import Disasm.Proofs.LocalFile
import Disasm.Proofs.TreeShape
import Disasm.Settings.Store
/-!
# Stored settings — which contents of the settings file can be loaded

Loading falls back to the defaults where the file is not JSON and where it
holds something other than an object; the file is then written anew. It
does not where the bytes are no text, where the JSON is too large to read,
and where the suffix of listings or the extra arguments have a value that
nothing can be made of. `Usable` is what remains, and loading returns
exactly then.
-/

namespace Disasm

open Act

namespace Settings

/-! ## Values -/

/-- Whether a value can be made a suffix of listings: a text, or one that
counts as false. -/
def markable : Json → Bool
  | .str _ | .stray _ => true
  | v => !v.truthy

/-- Whether a value can be made a list of arguments: a list, a text, an
object, or one that counts as false. -/
def listable : Json → Bool
  | .arr _ | .str _ | .stray _ | .obj _ | .odd _ => true
  | v => !v.truthy

/-- A value that is used only if it counts as false. -/
theorem refused_ok_iff {α : Type} (v : Json) (f : Failure) (a : α) :
    (∃ b, (if v.truthy then .error f else .ok a : Except Failure α) = .ok b) ↔
      (!v.truthy) = true := by
  cases v.truthy with
  | true => simp
  | false => simp

theorem normalMarker_ok_iff (v : Json) : (∃ s, normalMarker v = .ok s) ↔ markable v = true := by
  cases v with
  | null => exact iff_of_true ⟨_, rfl⟩ rfl
  | bool b => exact refused_ok_iff (.bool b) _ _
  | num n => exact refused_ok_iff (.num n) _ _
  | str s => exact iff_of_true ⟨_, rfl⟩ rfl
  | arr items => exact refused_ok_iff (.arr items) _ _
  | obj members => exact refused_ok_iff (.obj members) _ _
  | stray b => exact iff_of_true ⟨_, rfl⟩ rfl
  | odd members => exact refused_ok_iff (.odd members) _ _

theorem normalArguments_ok_iff (v : Json) :
    (∃ args, normalArguments v = .ok args) ↔ listable v = true := by
  cases v with
  | null => exact iff_of_true ⟨_, rfl⟩ rfl
  | bool b => exact refused_ok_iff (.bool b) _ _
  | num n => exact refused_ok_iff (.num n) _ _
  | str s => exact iff_of_true ⟨_, rfl⟩ rfl
  | arr items => exact iff_of_true ⟨_, rfl⟩ rfl
  | obj members => exact iff_of_true ⟨_, rfl⟩ rfl
  | stray b => exact iff_of_true ⟨_, rfl⟩ rfl
  | odd members => exact iff_of_true ⟨_, rfl⟩ rfl

theorem normalize_ok_iff (s : Settings) :
    (∃ c, s.normalize = .ok c) ↔ markable s.marker = true ∧ listable s.extraArguments = true := by
  rw [← normalMarker_ok_iff, ← normalArguments_ok_iff, normalize]
  constructor
  · rintro ⟨c, h⟩
    obtain ⟨marker, hmarker, h⟩ := ok_of_bind h
    obtain ⟨args, hargs, -⟩ := ok_of_bind h
    exact ⟨⟨marker, hmarker⟩, ⟨args, hargs⟩⟩
  · rintro ⟨⟨marker, hmarker⟩, ⟨args, hargs⟩⟩
    rw [hmarker, hargs]
    exact ⟨_, rfl⟩

/-! ## Fields -/

/-- The value that a list of members gives a name last. -/
def given? (members : List (String × Json)) (name : String) : Option Json :=
  members.reverse.lookup name

theorem given?_cons (other : String) (value : Json) (rest : List (String × Json)) (name : String) :
    given? ((other, value) :: rest) name =
      (given? rest name).or (if other = name then some value else none) := by
  rw [given?, List.reverse_cons, List.lookup_append]
  by_cases hname : other = name
  · simp [hname, given?]
  · have hne : (name == other) = false := beq_false_of_ne (Ne.symm hname)
    simp [hname, List.lookup_cons, hne, given?]

/-- The settings in which every field has the value that was given last for
its name, or else its own. -/
def overridden (s : Settings) (members : List (String × Json)) : Settings where
  backend := (given? members "backend_executable").getD s.backend
  sniffLimit := (given? members "binary_sniff_chunk_size").getD s.sniffLimit
  refuseRemote := (given? members "disable_on_remote_filesystems").getD s.refuseRemote
  marker := (given? members "view_extension").getD s.marker
  extraArguments := (given? members "extra_arguments").getD s.extraArguments
  ssh := (given? members "ssh_executable").getD s.ssh
  lastOpened := (given? members "last_opened").getD s.lastOpened

/-- Setting fields one after another gives each the last of its values. -/
theorem update_eq_overridden (s : Settings) (members : List (String × Json)) :
    s.update members = s.overridden members := by
  induction members generalizing s with
  | nil => rfl
  | cons first rest ih =>
    obtain ⟨other, value⟩ := first
    have hstep : s.update ((other, value) :: rest) =
        ((s.assign? other value).getD s).update rest := rfl
    rw [hstep, ih]
    simp only [overridden, given?_cons]
    -- One case for each field, and one for a name that is no field.
    unfold assign?
    split
    all_goals simp_all

/-- Members can be put over the defaults if something can be made of the
suffix of listings and of the extra arguments that they give. -/
theorem normalize_update_ok_iff (members : List (String × Json)) :
    (∃ c, (defaults.update members).normalize = .ok c) ↔
      (given? members "view_extension").all markable = true ∧
        (given? members "extra_arguments").all listable = true := by
  rw [normalize_ok_iff, update_eq_overridden, overridden]
  refine and_congr ?_ ?_
  · rcases given? members "view_extension" with _ | v
    · exact iff_of_true rfl rfl
    · exact Iff.rfl
  · rcases given? members "extra_arguments" with _ | v
    · exact iff_of_true rfl rfl
    · exact Iff.rfl

end Settings

/-! ## A file that can be read and written -/

namespace Machine

/-- A path leads to a file with this content, which may be read and written
to. -/
def HasFile (m : Machine) (path : String) (content : Bytes) : Prop :=
  ∃ place executable, m.files.nodeAt m.here true path = .ok (place, .file content executable) ∧
    m.files.unreadable.contains place = false ∧ m.files.unwritable.contains place = false

/-- A content can be written whole. -/
def HasRoom (m : Machine) (content : Bytes) : Prop :=
  m.shortageFor? content = none

/-- A path leads to a file with this content, which may be read. -/
def CanRead (m : Machine) (path : String) (content : Bytes) : Prop :=
  ∃ place executable, m.files.nodeAt m.here true path = .ok (place, .file content executable) ∧
    m.files.unreadable.contains place = false

variable {m : Machine} {path : String} {content : Bytes}

theorem HasFile.canRead (h : m.HasFile path content) : m.CanRead path content := by
  obtain ⟨place, executable, hnode, hread, -⟩ := h
  exact ⟨place, executable, hnode, hread⟩

theorem exec_existsAt {place : Place} {node : Node}
    (hnode : m.files.nodeAt m.here true path = .ok (place, node)) :
    (existsAt path).exec m = (.ok true, m) := by
  have hat : (nodeAt path).attempt.exec m = (.ok (.ok (place, node)), m) := by
    rw [exec_attempt]
    exact Prod.ext (congrArg Except.ok hnode) rfl
  rw [existsAt, nodeAt?, bind_assoc, exec_bind_ok hat]
  rfl

theorem CanRead.exec_existsAt (h : m.CanRead path content) :
    (existsAt path).exec m = (.ok true, m) := by
  obtain ⟨place, executable, hnode, -⟩ := h
  exact Machine.exec_existsAt hnode

theorem CanRead.exec_contentOf (h : m.CanRead path content) :
    (contentOf path).exec m = (.ok content, m) := by
  obtain ⟨place, executable, hnode, hread⟩ := h
  rw [Machine.exec_contentOf hnode, if_neg (ne_true_of_eq_false hread)]

section Writing

variable {place : Place} {executable : Bool} {new : Bytes} {short : Shortage}
  (hnode : m.files.nodeAt m.here true path = .ok (place, .file content executable))

include hnode

/-- A file that is there and may be written to is opened as it stands. -/
theorem exec_openForWriting (hwrite : m.files.unwritable.contains place = false) :
    (openForWriting path).exec m = (.ok (place, content), m) := by
  rw [openForWriting, exec_bind_ok (exec_get m), FileTree.seek_of_nodeAt hnode]
  rw [exec_bind_ok (exec_ofExcept _ m)]
  dsimp only
  rw [if_neg (ne_true_of_eq_false hwrite)]
  rfl

/-- What is written to a file that is there takes the place of its content, if
there is room for it. -/
theorem exec_writeFile (hwrite : m.files.unwritable.contains place = false)
    (hroom : m.HasRoom new) :
    (writeFile path new).exec m =
      (.ok ⟨⟩, { m with files := m.files.put place (.file new executable) }) := by
  rw [writeFile, exec_bind_ok (exec_openForWriting hnode hwrite)]
  dsimp only
  rw [exec_bind_ok (exec_get m), (hroom : m.shortageFor? new = none)]
  exact exec_storeAt (FileTree.node?_of_nodeAt hnode) new

/-- If there is no room for it, only its start does. -/
theorem exec_writeFile_short (hwrite : m.files.unwritable.contains place = false)
    (hshort : m.shortageFor? new = some short) :
    (writeFile path new).exec m = (.error (.system short.report path),
      { m with files := m.files.put place (.file (new.take short.room) executable) }) := by
  rw [writeFile, exec_bind_ok (exec_openForWriting hnode hwrite)]
  dsimp only
  rw [exec_bind_ok (exec_get m), hshort]
  dsimp only
  rw [exec_bind_ok (exec_storeAt (FileTree.node?_of_nodeAt hnode) _)]
  rfl

omit hnode in
/-- A file with another content can be read and written to as before. -/
theorem HasFile.put (h : m.HasFile path content) (new : Bytes) :
    ∃ place executable, m.files.nodeAt m.here true path = .ok (place, .file content executable) ∧
      m.files.unwritable.contains place = false ∧
      HasFile { m with files := m.files.put place (.file new executable) } path new := by
  obtain ⟨place, executable, hnode, hread, hwrite⟩ := h
  have halike := (FileTree.Alike.refl m.files).put (FileTree.node?_of_nodeAt hnode) new
  exact ⟨place, executable, hnode, hwrite, place, executable, FileTree.nodeAt_put hnode new,
    halike.unreadable ▸ hread, halike.unwritable ▸ hwrite⟩

end Writing

/-- What was written to a file is there. -/
theorem HasFile.exec_writeFile (h : m.HasFile path content) {new : Bytes}
    (hroom : m.HasRoom new) :
    ∃ m', (writeFile path new).exec m = (.ok ⟨⟩, m') ∧ m'.HasFile path new := by
  obtain ⟨place, executable, hnode, hwrite, hnew⟩ := h.put new
  exact ⟨_, Machine.exec_writeFile hnode hwrite hroom, hnew⟩

/-- **A content that there is no room for destroys what the file held**, and
only its start is there. -/
theorem HasFile.exec_writeFile_short (h : m.HasFile path content) {new : Bytes} {short : Shortage}
    (hshort : m.shortageFor? new = some short) :
    ∃ m', (writeFile path new).exec m = (.error (.system short.report path), m') ∧
      m'.HasFile path (new.take short.room) := by
  obtain ⟨place, executable, hnode, hwrite, hnew⟩ := h.put (new.take short.room)
  exact ⟨_, Machine.exec_writeFile_short hnode hwrite hshort, hnew⟩

/-- A file stays where it is when something is logged, though the log may be
written to it, and so does what may be read and written. -/
theorem exec_log_file {place : Place} {executable : Bool}
    (hnode : m.files.nodeAt m.here true path = .ok (place, .file content executable))
    (level : Int) (component message : String) :
    ∃ m' other, (log level component message).exec m = (.ok ⟨⟩, m') ∧
      m'.files.nodeAt m'.here true path = .ok (place, .file other executable) ∧
      m.files.unreadable = m'.files.unreadable ∧ m.files.unwritable = m'.files.unwritable := by
  obtain ⟨⟨⟩, hdone⟩ := total_log level component message m
  -- The log may be kept in this very file, so only the tree around its content lasts.
  have halike := alike_log m.files level component message m (.refl m.files)
  have hsame : ((log level component message).exec m).2.here = m.here :=
    here_of_standpoint (keeps_log level component message _ m rfl)
  obtain ⟨other, hother⟩ := halike.file_nodeAt hnode
  refine ⟨_, other, Prod.ext hdone rfl, ?_, halike.unreadable, halike.unwritable⟩
  rw [hsame]
  exact hother

theorem HasFile.exec_log (h : m.HasFile path content) (level : Int) (component message : String) :
    ∃ m' other, (log level component message).exec m = (.ok ⟨⟩, m') ∧ m'.HasFile path other := by
  obtain ⟨place, executable, hnode, hread, hwrite⟩ := h
  obtain ⟨m', other, hlog, hthere, hreadable, hwritable⟩ :=
    exec_log_file hnode level component message
  exact ⟨m', other, hlog, place, executable, hthere, hreadable ▸ hread, hwritable ▸ hwrite⟩

theorem CanRead.exec_log (h : m.CanRead path content) (level : Int) (component message : String) :
    ∃ m' other, (log level component message).exec m = (.ok ⟨⟩, m') ∧ m'.CanRead path other := by
  obtain ⟨place, executable, hnode, hread⟩ := h
  obtain ⟨m', other, hlog, hthere, hreadable, -⟩ := exec_log_file hnode level component message
  exact ⟨m', other, hlog, place, executable, hthere, hreadable ▸ hread⟩

/-- Logging takes no room. -/
theorem hasRoom_log_iff {m' : Machine} {new : Bytes} {level : Int} {component message : String}
    (hlog : (log level component message).exec m = (.ok ⟨⟩, m')) :
    m'.HasRoom new ↔ m.HasRoom new := by
  have hshortage : m'.shortage = m.shortage :=
    ((keeps_unlogged level component message).through Machine.shortage).eq hlog
  rw [HasRoom, HasRoom, shortageFor?, shortageFor?, hshortage]

end Machine

namespace Settings

/-! ## Loading -/

variable {m : Machine} {store : Path} {content : Bytes}

/-- How the content of a settings file reads, if it is a text at all, where
values may be nested to a depth. -/
def reading (depth : Nat) (content : Bytes) :
    Except Text.Utf8.Undecodable (Except Json.ReadFault Json) :=
  (Text.Utf8.decodeStrict content).map fun s => Json.read (Text.newlines s) depth

/-- What becomes of a settings file that is a text. -/
def adopt (store : Path) : Except Json.ReadFault Json → Act Machine Config
  | .ok v =>
    match v.fields? with
    | some members => Act.ofExcept (defaults.update members).normalize
    | none => saveDefaults store
  | .error .malformed => do
    Machine.log Log.warning "config_manager"
      ("settings file " ++ store.text ++ " is corrupt, restoring defaults")
    saveDefaults store
  | .error (.tooManyDigits count) => throw (.tooManyDigits count)
  | .error (.tooDeep inList) => throw (.tooDeep inList)

theorem load_eq (store : Path) :
    load store = (do
      if !(← Machine.existsAt store.text) then saveDefaults store
      else adopt store (Json.read (← readStore store) (← get).depth)) := by
  rw [load]
  refine bind_congr fun found => ?_
  cases found with
  | false => rfl
  | true =>
    refine bind_congr fun s => bind_congr fun m => ?_
    rcases Json.read s m.depth with (_ | _ | _) | v
    · rfl
    · rfl
    · rfl
    · rfl

/-- A settings file that is there is adopted as it reads, and fails if it is
no text. -/
theorem exec_load_canRead (h : m.CanRead store.text content) :
    (load store).exec m =
      match reading m.depth content with
      | .ok r => (adopt store r).exec m
      | .error u => (.error (.undecodable (.bytes u)), m) := by
  rw [load_eq, exec_bind_ok h.exec_existsAt]
  change (readStore store >>= fun s => get >>= fun m =>
    adopt store (Json.read s m.depth)).exec m = _
  rw [reading]
  rcases hs : Text.Utf8.decodeStrict content with u | s
  · have hstore : (readStore store).exec m = (.error (.undecodable (.bytes u)), m) := by
      rw [readStore, exec_bind_ok h.exec_contentOf, hs]
      rfl
    rw [exec_bind_error hstore]
    rfl
  · have hstore : (readStore store).exec m = (.ok (Text.newlines s), m) := by
      rw [readStore, exec_bind_ok h.exec_contentOf, hs]
      rfl
    rw [exec_bind_ok hstore, exec_bind_ok (exec_get m)]
    rfl

theorem exec_load (h : m.HasFile store.text content) :
    (load store).exec m =
      match reading m.depth content with
      | .ok r => (adopt store r).exec m
      | .error u => (.error (.undecodable (.bytes u)), m) :=
  exec_load_canRead h.canRead

/-- What is not JSON and what is no object is replaced. -/
inductive Replaced : Except Json.ReadFault Json → Prop
  | malformed : Replaced (.error .malformed)
  | bare {v : Json} (h : v.fields? = none) : Replaced (.ok v)

/-- What loading makes a configuration of: something that is replaced, or an
object in which the suffix of listings and the extra arguments have values
of which something can be made. -/
inductive Usable : Except Json.ReadFault Json → Prop
  | replaced {r : Except Json.ReadFault Json} (h : Replaced r) : Usable r
  | settings {v : Json} {members : List (String × Json)} (hobject : v.fields? = some members)
      (hmarker : (given? members "view_extension").all markable = true)
      (harguments : (given? members "extra_arguments").all listable = true) :
      Usable (.ok v)

/-- The bytes that settings are stored as. -/
def stored (s : Settings) : Bytes :=
  Text.Utf8.encode s.toJson.pretty

/-- The content of a settings file that holds the defaults. -/
def pristine : Bytes :=
  stored defaults

theorem exec_save {s : Settings} (hcopy : s.copy m.depth = .ok s) :
    (save store s).exec m = (Machine.writeFile store.text (stored s)).exec m := by
  rw [save, exec_bind_ok (exec_get m), hcopy]
  rfl

/-- Texts and lists of texts can be copied wherever on the stack the program is. -/
theorem copy_of_shallow {s : Settings} (h : ∀ field ∈ s.fields, field.2.copyCost ≤ 3)
    (m : Machine) : s.copy m.depth = .ok s := by
  have hfits : s.fields.all (·.2.copyCost ≤ m.depth) = true := by
    rw [List.all_eq_true]
    intro field hfield
    have hcost := h field hfield
    rw [Machine.depth, decide_eq_true_eq]
    omega
  rw [copy, if_pos hfits]

theorem copy_defaults (m : Machine) : defaults.copy m.depth = .ok defaults :=
  copy_of_shallow (by decide) m

theorem exec_saveDefaults (h : m.HasFile store.text content) (hroom : m.HasRoom pristine) :
    ∃ m', (saveDefaults store).exec m = (.ok {}, m') ∧ m'.HasFile store.text pristine := by
  obtain ⟨m', hwrite, hfile⟩ := h.exec_writeFile hroom
  refine ⟨m', ?_, hfile⟩
  rw [saveDefaults]
  exact exec_bind_ok ((exec_save (copy_defaults m)).trans hwrite)

/-- The defaults were stored only if there was room for them. -/
theorem hasRoom_of_saveDefaults {c : Config} (h : m.HasFile store.text content)
    (hsave : ((saveDefaults store).exec m).1 = .ok c) : m.HasRoom pristine := by
  rcases hshort : m.shortageFor? pristine with _ | short
  · exact hshort
  · obtain ⟨m', hwrite, -⟩ := h.exec_writeFile_short hshort
    rw [saveDefaults, exec_bind_error ((exec_save (copy_defaults m)).trans hwrite)] at hsave
    cases hsave

theorem adopt_bare {v : Json} (h : v.fields? = none) :
    adopt store (.ok v) = saveDefaults store := by
  rw [adopt, h]

theorem adopt_object {v : Json} {members : List (String × Json)} (h : v.fields? = some members) :
    adopt store (.ok v) = Act.ofExcept (defaults.update members).normalize := by
  rw [adopt, h]

theorem exec_adopt_replaced (h : m.HasFile store.text content) {r : Except Json.ReadFault Json}
    (hr : Replaced r) (hroom : m.HasRoom pristine) :
    ∃ m', (adopt store r).exec m = (.ok {}, m') ∧ m'.HasFile store.text pristine := by
  cases hr with
  | malformed =>
    -- The warning may go to the settings file itself, which is then written anew.
    obtain ⟨m₁, other, hlog, hfile⟩ := h.exec_log Log.warning "config_manager"
      ("settings file " ++ store.text ++ " is corrupt, restoring defaults")
    obtain ⟨m₂, hsave, hpristine⟩ := exec_saveDefaults hfile ((Machine.hasRoom_log_iff hlog).2 hroom)
    refine ⟨m₂, ?_, hpristine⟩
    rw [adopt, exec_bind_ok hlog]
    exact hsave
  | bare hbare =>
    rw [adopt_bare hbare]
    exact exec_saveDefaults h hroom

/-- What was replaced could be written. -/
theorem hasRoom_of_adopt (h : m.HasFile store.text content) {r : Except Json.ReadFault Json}
    {c : Config} (hr : Replaced r) (hdone : ((adopt store r).exec m).1 = .ok c) :
    m.HasRoom pristine := by
  cases hr with
  | malformed =>
    obtain ⟨m₁, other, hlog, hfile⟩ := h.exec_log Log.warning "config_manager"
      ("settings file " ++ store.text ++ " is corrupt, restoring defaults")
    rw [adopt, exec_bind_ok hlog] at hdone
    exact (Machine.hasRoom_log_iff hlog).1 (hasRoom_of_saveDefaults hfile hdone)
  | bare hbare =>
    rw [adopt_bare hbare] at hdone
    exact hasRoom_of_saveDefaults h hdone

theorem adopt_ok_iff (h : m.HasFile store.text content) (r : Except Json.ReadFault Json) :
    (∃ c, ((adopt store r).exec m).1 = .ok c) ↔
      Usable r ∧ (Replaced r → m.HasRoom pristine) := by
  constructor
  · rintro ⟨c, hc⟩
    refine ⟨?_, fun hreplaced => hasRoom_of_adopt h hreplaced hc⟩
    rcases r with fault | v
    · cases fault with
      | malformed => exact .replaced .malformed
      | tooManyDigits count => cases hc
      | tooDeep inList => cases hc
    · rcases hfields : v.fields? with _ | members
      · exact .replaced (.bare hfields)
      · rw [adopt_object hfields] at hc
        obtain ⟨hmarker, harguments⟩ := (normalize_update_ok_iff members).1 ⟨c, hc⟩
        exact .settings hfields hmarker harguments
  · rintro ⟨husable, hroom⟩
    cases husable with
    | replaced hreplaced =>
      obtain ⟨m', hrun, -⟩ := exec_adopt_replaced h hreplaced (hroom hreplaced)
      exact ⟨{}, by rw [hrun]⟩
    | settings hobject hmarker harguments =>
      rw [adopt_object hobject]
      exact (normalize_update_ok_iff _).2 ⟨hmarker, harguments⟩

/-- **A settings file that can be read and written is loaded if it is a text
that reads as something usable, and not otherwise**; what has to be replaced
also needs room for the defaults. What is replaced gives the defaults, which
the file then holds; an object is put over the defaults and changes nothing
on the machine. -/
theorem load_returns_iff_usable (h : m.HasFile store.text content) :
    ((∃ c, ((load store).exec m).1 = .ok c) ↔
      ∃ r, reading m.depth content = .ok r ∧ Usable r ∧ (Replaced r → m.HasRoom pristine)) ∧
    (∀ r, reading m.depth content = .ok r → Replaced r → m.HasRoom pristine →
      ∃ m', (load store).exec m = (.ok {}, m') ∧ m'.HasFile store.text pristine) ∧
    (∀ v members, reading m.depth content = .ok (.ok v) → v.fields? = some members →
      (load store).exec m = ((defaults.update members).normalize, m)) := by
  rw [exec_load h]
  refine ⟨?_, ?_, ?_⟩
  · rcases reading m.depth content with u | r
    · -- Bytes that are no text make loading fail, and read as nothing.
      constructor
      · rintro ⟨c, hc⟩
        cases hc
      · rintro ⟨r, hr, -⟩
        cases hr
    · rw [adopt_ok_iff h]
      constructor
      · intro hr
        exact ⟨r, rfl, hr⟩
      · rintro ⟨_, hr, husable⟩
        cases hr
        exact husable
  · intro r hread hreplaced hroom
    rw [hread]
    exact exec_adopt_replaced h hreplaced hroom
  · intro v members hread hobject
    rw [hread]
    dsimp only
    rw [adopt_object hobject, exec_ofExcept]

/-- A machine with one file, below its root. -/
def lone (content : Bytes) : Machine where
  cwd := "/"
  env := []
  files := { nodes := [(["s"], .file content false)] }

theorem hasFile_lone (content : Bytes) : (lone content).HasFile (Path.ofString "/s").text content :=
  ⟨["s"], false, rfl, rfl, rfl⟩

/-- A lone opening brace is not JSON. -/
theorem load_returns_iff_usable_brace :
    (lone [0x7B]).HasFile (Path.ofString "/s").text [0x7B] ∧
      reading (lone [0x7B]).depth [0x7B] = .ok (.error .malformed) ∧
      ∃ m', (load (Path.ofString "/s")).exec (lone [0x7B]) = (.ok {}, m') ∧
        m'.HasFile (Path.ofString "/s").text pristine :=
  ⟨hasFile_lone _, rfl, (load_returns_iff_usable (hasFile_lone _)).2.1 _ rfl .malformed rfl⟩

/-- **Bytes that are no text are not loaded**, though the file can be read
and written. -/
theorem load_fails_for_no_text :
    (lone [0xFF]).HasFile (Path.ofString "/s").text [0xFF] ∧
      ¬∃ c, ((load (Path.ofString "/s")).exec (lone [0xFF])).1 = .ok c := by
  refine ⟨hasFile_lone _, ?_⟩
  have hread : reading (lone [0xFF]).depth [0xFF] = .error ⟨.start, 0, 1, 0xFF⟩ := rfl
  rw [exec_load (hasFile_lone _), hread]
  rintro ⟨c, hc⟩
  cases hc

end Settings

end Disasm
