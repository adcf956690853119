import Disasm.Proofs.JsonReading
import Disasm.Proofs.StoredSettings
import Disasm.Proofs.Utf8
/-!
# Saved settings — what was saved is loaded

Settings are saved as printed JSON, in ASCII, and loaded through four
readers: of UTF-8, of line ends, of JSON and of the fields. On settings
whose fields have values of their declared types each of them gives back
what was written, so loading after saving is normalising
(`saved_settings_load`), and normalising what is normal changes nothing.
-/

namespace Disasm

open Act

/-! ## ASCII texts -/

namespace Text

/-- A text without carriage returns has its newlines already. -/
theorem newlines_eq_self {s : String} (h : '\r' ∉ s.toList) : newlines s = s := by
  have hchars : ∀ cs : List Char, '\r' ∉ cs → newlineChars cs = cs := by
    intro cs hcs
    induction cs with
    | nil => rfl
    | cons c cs ih =>
      rw [List.mem_cons, not_or] at hcs
      rw [newlineChars, if_neg (Ne.symm hcs.1), ih hcs.2]
      exact fun _ hc _ => hcs.1 hc.symm
  rw [newlines, hchars _ h, String.ofList_toList]

namespace Utf8

/-- A character of ASCII is one byte. -/
theorem encodeChar_ascii {c : Char} (h : c.toNat < 0x80) :
    String.utf8EncodeChar c = [c.toNat.toUInt8] := by
  have hval : c.val.toNat ≤ 0x7F := by
    have : c.val.toNat = c.toNat := rfl
    omega
  rw [String.utf8EncodeChar, if_pos hval]
  rfl

end Utf8

end Text

namespace Machine

variable {m m' : Machine} {path : String}

/-- How a file is made ready for writing: not at all, as it stands, or as a
new one. -/
theorem cases_openForWriting (path : String) (m : Machine) :
    (∃ f, (openForWriting path).exec m = (.error f, m)) ∨
    (∃ place content executable,
      m.files.nodeAt m.here true path = .ok (place, .file content executable) ∧
      (openForWriting path).exec m = (.ok (place, content), m)) ∨
    ∃ parent name, m.files.seek m.here true path = .ok (.missing parent name) ∧
      (openForWriting path).exec m = (.ok (parent ++ [name], []),
        { m with files := m.files.put (parent ++ [name]) (.file [] false) }) := by
  rw [openForWriting, exec_bind_ok (exec_get m)]
  rcases hseek : m.files.seek m.here true path with f | ⟨place, node⟩ | ⟨parent, name⟩
  · exact .inl ⟨f, rfl⟩
  · rw [exec_bind_ok (exec_ofExcept _ m)]
    cases node with
    | directory => exact .inl ⟨_, rfl⟩
    | link target => exact .inl ⟨_, rfl⟩
    | file content executable =>
      dsimp only
      split
      · exact .inl ⟨_, rfl⟩
      · refine .inr (.inl ⟨place, content, executable, ?_, rfl⟩)
        rw [FileTree.nodeAt, hseek]
        rfl
  · rw [exec_bind_ok (exec_ofExcept _ m)]
    dsimp only
    split
    · exact .inl ⟨_, rfl⟩
    split
    · exact .inl ⟨_, rfl⟩
    · exact .inr (.inr ⟨parent, name, rfl, rfl⟩)

/-- Whatever a path leads to is a file with this content. -/
def EndsIn (m : Machine) (path : String) (content : Bytes) : Prop :=
  ∀ place node, m.files.nodeAt m.here true path = .ok (place, node) →
    ∃ executable, node = .file content executable

/-- A content that is put where a file was opened is what the path leads to. -/
theorem exec_storeAt_opened {place : Place} {old : Bytes}
    (hopen : (openForWriting path).exec m = (.ok (place, old), m')) (new : Bytes) :
    ∃ written, (storeAt place new).exec m' = (.ok ⟨⟩, written) ∧ written.EndsIn path new := by
  rcases cases_openForWriting path m with
    ⟨g, hfail⟩ | ⟨other, content, executable, hold, hthere⟩ | ⟨parent, name, hseek, hmade⟩
  · cases hfail.symm.trans hopen
  · cases hthere.symm.trans hopen
    refine ⟨_, exec_storeAt (FileTree.node?_of_nodeAt hold) new, fun found node hnode => ?_⟩
    cases (FileTree.nodeAt_put hold new).symm.trans hnode
    exact ⟨executable, rfl⟩
  · cases hmade.symm.trans hopen
    have hnone := FileTree.node?_of_missing (FileTree.walk_of_seek hseek)
    have hplace : parent ++ [name] ≠ [] := by simp
    have hempty : (m.files.put (parent ++ [name]) (.file [] false)).node? (parent ++ [name]) =
        some (.file [] false) := by
      rw [FileTree.node?_put _ hplace, if_pos rfl]
    refine ⟨_, exec_storeAt hempty new, fun found node hnode => ?_⟩
    obtain ⟨-, rfl⟩ := (FileTree.gains_put hplace hnone (.file [] false) (.file new false)).nodeAt
      hseek hnode
    exact ⟨false, rfl⟩

/-- A file that could not be opened was not touched, nor was anything else. -/
theorem eq_of_openForWriting_error {f : Failure}
    (h : (openForWriting path).exec m = (.error f, m')) : m' = m := by
  rcases cases_openForWriting path m with ⟨_, hopen⟩ | ⟨_, _, _, -, hopen⟩ | ⟨_, _, -, hopen⟩
  · cases hopen.symm.trans h
    rfl
  · cases hopen.symm.trans h
  · cases hopen.symm.trans h

section Files

variable {I : Machine → Prop} (hfiles : ∀ m files, I m → I { m with files })

include hfiles

/-- A file is opened for writing in the file tree. -/
theorem preserves_openForWriting (path : String) : (openForWriting path).Preserves I := by
  intro m hm
  rcases cases_openForWriting path m with ⟨f, hopen⟩ | ⟨_, _, _, -, hopen⟩ | ⟨_, _, -, hopen⟩
  · rw [hopen]
    exact hm
  · rw [hopen]
    exact hm
  · rw [hopen]
    exact hfiles m _ hm

/-- So it is written there, whole or in part. -/
theorem preserves_writeFile (path : String) (content : Bytes) :
    (writeFile path content).Preserves I := by
  refine (preserves_openForWriting hfiles path).bind fun opened => ?_
  refine Preserves.get.bind fun now => ?_
  have hstore : ∀ new, (storeAt opened.1 new).Preserves I := fun new m hm => hfiles m _ hm
  rcases now.shortageFor? content with _ | short
  · exact hstore content
  · exact (hstore _).bind fun _ => Preserves.throw _

end Files

/-- **How writing a file anew can end.** Either the file could not be opened
and nothing was touched, or it was and took the content, or the start of it
that there was room for. -/
theorem cases_writeFile {new : Bytes} {r : Except Failure Unit}
    (h : (writeFile path new).exec m = (r, m')) :
    (∃ f, r = .error f ∧ m' = m) ∨
    (r = .ok ⟨⟩ ∧ m.HasRoom new ∧ m'.EndsIn path new) ∨
    ∃ short, r = .error (.system short.report path) ∧ m.shortageFor? new = some short ∧
      m'.EndsIn path (new.take short.room) := by
  rcases hopen : (openForWriting path).exec m with ⟨f | ⟨place, old⟩, opened⟩
  · rw [writeFile, exec_bind_error hopen] at h
    cases h
    exact .inl ⟨_, rfl, eq_of_openForWriting_error hopen⟩
  · -- Opening may make the file, but makes no room.
    have hshortage := preserves_openForWriting (I := (·.shortage = m.shortage))
      (fun _ _ h => h) path m rfl
    rw [hopen] at hshortage
    have hroom : opened.shortageFor? new = m.shortageFor? new := by
      rw [shortageFor?, hshortage]
      rfl
    rw [writeFile, exec_bind_ok hopen] at h
    dsimp only at h
    rw [exec_bind_ok (exec_get opened), hroom] at h
    rcases hshort : m.shortageFor? new with _ | short
    · obtain ⟨written, hstore, hends⟩ := exec_storeAt_opened hopen new
      rw [hshort] at h
      cases hstore.symm.trans h
      exact .inr (.inl ⟨rfl, hshort, hends⟩)
    · obtain ⟨written, hstore, hends⟩ := exec_storeAt_opened hopen (new.take short.room)
      rw [hshort] at h
      dsimp only at h
      rw [exec_bind_ok hstore] at h
      cases h
      exact .inr (.inr ⟨short, rfl, rfl, hends⟩)

end Machine

namespace Json

/-! ## Texts as values -/

/-- A text that is read back from where it is printed: one of characters, or
one that was itself read. -/
def IsText (v : Json) : Prop :=
  ∃ t : Script, v = .ofScript t ∧ Unpaired t.points

/-- A list of such texts. -/
def IsTexts (v : Json) : Prop :=
  ∃ ts : List Script, v = .arr (ts.map .ofScript) ∧ ∀ t ∈ ts, Unpaired t.points

theorem isText_str (s : String) : IsText (.str s) :=
  ⟨.plain s, rfl, unpaired_plain s⟩

/-- A text can be stored if no two of its surrogates make a pair. -/
theorem storable_ofScript {depth : Nat} {t : Script} (h : Unpaired t.points) :
    Storable depth (.ofScript t) := by
  cases t with
  | plain s => exact .str s
  | broken b => exact .stray h

/-- A text can be stored at any depth. -/
theorem IsText.storable {depth : Nat} {v : Json} (h : IsText v) : Storable depth v := by
  obtain ⟨t, rfl, ht⟩ := h
  exact storable_ofScript ht

/-- A list of texts is one level deep. -/
theorem IsTexts.storable {depth : Nat} {v : Json} (h : IsTexts v) : Storable (depth + 1) v := by
  obtain ⟨ts, rfl, hts⟩ := h
  exact .arr (List.forall_mem_map.2 fun t ht => storable_ofScript (hts t ht))

theorem copyCost_ofScript (t : Script) : (ofScript t).copyCost = 1 := by
  cases t with
  | plain s => rw [ofScript, copyCost] <;> exact fun _ h => by cases h
  | broken b => rw [ofScript, copyCost] <;> exact fun _ h => by cases h

/-- Copying a text takes next to no depth. -/
theorem IsText.copyCost_le {v : Json} (h : IsText v) : v.copyCost ≤ 3 := by
  obtain ⟨t, rfl, -⟩ := h
  rw [copyCost_ofScript]
  decide

/-- Nor does copying a list of texts. -/
theorem IsTexts.copyCost_le {v : Json} (h : IsTexts v) : v.copyCost ≤ 3 := by
  obtain ⟨ts, rfl, -⟩ := h
  rw [copyCost]
  induction ts with
  | nil => exact Nat.zero_le 3
  | cons t ts ih =>
    rw [List.map_cons, itemsCost, copyCost_ofScript]
    exact Nat.max_le.2 ⟨Nat.le_refl 3, ih⟩

end Json

namespace Settings

/-! ## Settings of the declared types -/

/-- Settings whose fields have values of their declared types: texts, a list
of texts, a truth value, and an integer that can be written in digits. -/
structure Typed (s : Settings) : Prop where
  backend : s.backend.IsText
  sniffLimit : ∃ n, s.sniffLimit = .int n ∧ Json.InRange n
  refuseRemote : ∃ b, s.refuseRemote = .bool b
  marker : s.marker.IsText
  extraArguments : s.extraArguments.IsTexts
  ssh : s.ssh.IsText
  lastOpened : s.lastOpened.IsText

theorem inRange_default : Json.InRange 1024 :=
  Nat.lt_of_lt_of_le (by decide : 1024 < 10 ^ 4) (Nat.pow_le_pow_right (by decide) (by decide))

/-- The defaults are of the declared types. -/
theorem typed_defaults : defaults.Typed where
  backend := Json.isText_str _
  sniffLimit := ⟨_, rfl, inRange_default⟩
  refuseRemote := ⟨_, rfl⟩
  marker := Json.isText_str _
  extraArguments := ⟨[], rfl, fun _ h => by cases h⟩
  ssh := Json.isText_str _
  lastOpened := Json.isText_str _

variable {s : Settings} {c : Config}

/-- Such settings are what a configuration can be made of. -/
theorem Typed.normalizes (h : s.Typed) : ∃ c, s.normalize = .ok c := by
  obtain ⟨marker, hmarker, -⟩ := h.marker
  obtain ⟨args, hargs, -⟩ := h.extraArguments
  rw [normalize_ok_iff, hmarker, hargs]
  refine ⟨?_, rfl⟩
  cases marker with
  | plain s => rfl
  | broken b => rfl

/-- Settings of the declared types can be stored where three levels can. -/
theorem Typed.storable (h : s.Typed) (spare : Nat) : Json.Storable (spare + 3) s.toJson := by
  obtain ⟨limit, hlimit, hrange⟩ := h.sniffLimit
  obtain ⟨refuse, hrefuse⟩ := h.refuseRemote
  have hnames : s.fields.map Prod.fst = defaults.fields.map Prod.fst := rfl
  refine .obj (by rw [hnames]; decide) ?_
  simp only [fields, List.forall_mem_cons]
  rw [hlimit, hrefuse]
  exact ⟨h.backend.storable, .int hrange, .bool _, h.marker.storable, h.extraArguments.storable,
    h.ssh.storable, h.lastOpened.storable, fun e he => by cases he⟩

/-- The fields of settings give all of them. -/
theorem update_fields (other s : Settings) : other.update s.fields = s := by
  simp only [update, fields, List.foldl_cons, List.foldl_nil, assign?, Option.getD_some]

/-- A suffix of listings begins with a dot. -/
theorem startsWith_normalSuffix (t : Script) :
    Text.startsWith (normalSuffix t).shown "." = true := by
  rw [normalSuffix]
  split
  · rfl
  split
  · assumption
  · rw [Script.shown_dotted, Text.startsWith, String.toList_append]
    rfl

/-- The marker of a text is its suffix. -/
theorem normalMarker_ofScript (t : Script) : normalMarker (.ofScript t) = .ok (normalSuffix t) := by
  cases t with
  | plain s => rfl
  | broken b => rfl

/-- A marker begins with a dot. -/
theorem startsWith_normalMarker {v : Json} {t : Script} (h : normalMarker v = .ok t) :
    Text.startsWith t.shown "." = true := by
  have hrefused : ∀ u : Json, (if u.truthy then .error (.noAttribute u.kind "startswith")
      else .ok ".objdump" : Except Failure Script) = .ok t →
      Text.startsWith t.shown "." = true := by
    intro u hu
    split at hu
    · cases hu
    · cases hu
      rfl
  cases v with
  | str s =>
    cases h
    exact startsWith_normalSuffix _
  | stray b =>
    cases h
    exact startsWith_normalSuffix _
  | null => exact hrefused .null h
  | bool b => exact hrefused (.bool b) h
  | num n => exact hrefused (.num n) h
  | arr items => exact hrefused (.arr items) h
  | obj members => exact hrefused (.obj members) h
  | odd members => exact hrefused (.odd members) h

/-- What begins with a dot is left as it is. -/
theorem normalSuffix_of_startsWith {t : Script} (h : Text.startsWith t.shown "." = true) :
    normalSuffix t = t := by
  have hfull : t.isEmpty = false := by
    cases t with
    | plain s =>
      rw [Script.isEmpty, Bool.eq_false_iff, Ne, String.isEmpty_iff]
      rintro rfl
      cases h
    | broken b => rfl
  rw [normalSuffix, hfull, h]
  rfl

/-- Texts are arguments as they are. -/
theorem normalArguments_texts (args : List Script) :
    normalArguments (.arr (args.map .ofScript)) = .ok args := by
  have hscript : ∀ t, (Json.ofScript t).script = t := by
    intro t
    cases t with
    | plain s => rfl
    | broken b => rfl
  rw [normalArguments, List.map_map]
  exact congrArg Except.ok (List.map_id'' hscript args)

/-- A limit is above zero. -/
theorem normalLimit_pos (v : Json) : 0 < normalLimit v := by
  unfold normalLimit
  split
  · split
    · omega
    · decide
  · decide

/-- A limit stays what it is. -/
theorem normalLimit_int (v : Json) : normalLimit (.int (normalLimit v)) = normalLimit v := by
  have hpos := normalLimit_pos v
  rw [normalLimit, if_pos (by omega)]
  rfl

/-- **Normal settings stay as they are.** -/
theorem normalize_toSettings (h : s.normalize = .ok c) : c.toSettings.normalize = .ok c := by
  rw [normalize] at h
  obtain ⟨marker, hmarker, h⟩ := ok_of_bind h
  obtain ⟨args, hargs, h⟩ := ok_of_bind h
  cases h
  have hagain := normalSuffix_of_startsWith (startsWith_normalMarker hmarker)
  rw [normalize]
  dsimp only [Config.toSettings]
  rw [normalMarker_ofScript, hagain, normalArguments_texts, normalLimit_int]
  by_cases hbackend : s.backend.truthy = true
  · simp only [if_pos hbackend]
    rfl
  · simp only [if_neg hbackend]
    rfl

/-! ## Saving and loading -/

/-- They are printed in ASCII. -/
theorem Typed.ascii (h : s.Typed) : ∀ c ∈ s.toJson.pretty.toList, c.toNat < 0x80 := by
  intro c hc
  rcases Json.isPrinted_renderAt (some 2) (h.storable 0) 0 c hc with hrange | rfl
  · omega
  · decide

/-- **Stored settings read as the object of their fields**, wherever on the
stack the program is. -/
theorem Typed.reading_stored (h : s.Typed) (m : Machine) :
    reading m.depth s.stored = .ok (.ok s.toJson) := by
  have hreturn : '\r' ∉ s.toJson.pretty.toList := by
    intro hmem
    rcases Json.isPrinted_renderAt (some 2) (h.storable 0) 0 _ hmem with hrange | hline
    · exact absurd hrange.1 (by decide)
    · cases hline
  rw [reading, stored, Text.Utf8.decodeStrict_encode]
  change Except.ok (Json.read (Text.newlines s.toJson.pretty) m.depth) = _
  rw [Text.newlines_eq_self hreturn, Machine.depth, Json.read_pretty (h.storable m.spare)]

/-- A file that holds stored settings is loaded as they are normalised, and
nothing on the machine changes. -/
theorem Typed.exec_load (h : s.Typed) {m : Machine} {store : Path}
    (hfile : m.CanRead store.text s.stored) : (load store).exec m = (s.normalize, m) := by
  have hobject : s.toJson.fields? = some s.fields := rfl
  rw [exec_load_canRead hfile, h.reading_stored]
  dsimp only
  rw [adopt_object hobject, update_fields, exec_ofExcept]

/-- Values of the declared types can be copied. -/
theorem Typed.copies (h : s.Typed) (m : Machine) : s.copy m.depth = .ok s := by
  obtain ⟨limit, hlimit, -⟩ := h.sniffLimit
  obtain ⟨refuse, hrefuse⟩ := h.refuseRemote
  refine copy_of_shallow ?_ m
  simp only [fields, List.forall_mem_cons]
  rw [hlimit, hrefuse]
  exact ⟨h.backend.copyCost_le, by simp [Json.copyCost], by simp [Json.copyCost],
    h.marker.copyCost_le, h.extraArguments.copyCost_le, h.ssh.copyCost_le,
    h.lastOpened.copyCost_le, fun e he => by cases he⟩

end Settings

end Disasm
