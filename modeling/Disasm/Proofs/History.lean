import Disasm.Proofs.JsonIntegers
import Disasm.Proofs.WindowInvariant
/-!
# The history — what opening files leaves in the settings file

A window works with a configuration of its own, which need not be the
stored one. Opening a file changes one field of both: the path opened
last. What is stored else stays, however many files are opened and
whatever the window was given (`only_history_stored`). For this the stored
settings are followed through loading and saving, and everything else that
opening does is seen to leave the settings file alone: it acts on the
machine only through what lasts.
-/

namespace Disasm

open Act

/-! ## Settings that were read -/

namespace Json

/-- A value of the kind of texts that fits is a text that can be stored. -/
theorem isText_of_kind {v : Json} (h : v.kind = "str") (hv : v.Fits) : v.IsText := by
  rcases v with _ | _ | (_ | _) | t | _ | _ | b | _
  case str => exact isText_str t
  case stray =>
    cases hv with
    | stray hpaired => exact ⟨.broken b, rfl, hpaired⟩
  all_goals simp [kind] at h

theorem exists_int_of_kind {v : Json} (h : v.kind = "int") : ∃ n, v = .int n := by
  rcases v with _ | _ | (n | _) | _ | _ | _ | _ | _
  case num.int => exact ⟨n, rfl⟩
  all_goals simp [kind] at h

theorem exists_bool_of_kind {v : Json} (h : v.kind = "bool") : ∃ b, v = .bool b := by
  rcases v with _ | b | (_ | _) | _ | _ | _ | _ | _
  case bool => exact ⟨b, rfl⟩
  all_goals simp [kind] at h

/-- Whether a value is a list of texts. -/
def isTexts : Json → Bool
  | .arr items => items.all (·.kind = "str")
  | _ => false

/-- So it is with a list of texts. -/
theorem isTexts_of_fits {v : Json} (h : v.isTexts = true) (hv : v.Fits) : v.IsTexts := by
  cases hv with
  | @arr items hitems =>
    rw [isTexts, List.all_eq_true] at h
    have htexts : ∀ u ∈ items, u.IsText :=
      fun u hu => isText_of_kind (of_decide_eq_true (h u hu)) (hitems u hu)
    clear h hitems
    induction items with
    | nil => exact ⟨[], rfl, fun _ ht => by cases ht⟩
    | cons u items ih =>
      rw [List.forall_mem_cons] at htexts
      obtain ⟨⟨t, rfl, ht⟩, htexts⟩ := htexts
      obtain ⟨ts, hts, hpaired⟩ := ih htexts
      cases hts
      exact ⟨t :: ts, rfl, List.forall_mem_cons.2 ⟨ht, hpaired⟩⟩
  | _ => cases h

/-- What an object says under names of characters is as it was read. -/
theorem Fits.fields {v : Json} {members : List (String × Json)} (h : v.Fits)
    (hfields : v.fields? = some members) : ∀ e ∈ members, e.2.Fits := by
  cases h with
  | obj hmembers =>
    cases hfields
    exact hmembers
  | odd hmembers =>
    cases hfields
    intro e he
    obtain ⟨⟨name, value⟩, hmem, hname⟩ := List.mem_filterMap.1 he
    obtain ⟨text, -, rfl⟩ := Option.map_eq_some_iff.1 hname
    exact hmembers _ hmem
  | _ => cases hfields

end Json

namespace Settings

variable {s : Settings} {c : Config} {content : Bytes} {depth : Nat}

/-- Whether every field has a value of its declared type. -/
def declared (s : Settings) : Bool :=
  s.backend.kind = "str" && s.sniffLimit.kind = "int" && s.refuseRemote.kind = "bool" &&
    s.marker.kind = "str" && s.extraArguments.isTexts && s.ssh.kind = "str" &&
    s.lastOpened.kind = "str"

/-- A value that is given is that of a member. -/
theorem mem_of_given {members : List (String × Json)} {name : String} {v : Json}
    (h : given? members name = some v) : (name, v) ∈ members := by
  obtain ⟨before, after, hreverse, -⟩ := List.lookup_eq_some_iff.1 h
  rw [← List.mem_reverse, hreverse]
  simp

/-- A value that a settings file gives for a field was read; if it gives none,
the field keeps its own. -/
theorem fits_getD {members : List (String × Json)} (h : ∀ e ∈ members, e.2.Fits) (name : String)
    {own : Json} (hown : own.Fits) : ((given? members name).getD own).Fits := by
  rcases hgiven : given? members name with _ | v
  · exact hown
  · exact h _ (mem_of_given hgiven)

/-- **Settings that were read are of the declared types if their kinds are**:
an integer that was read can be written, and a text that was read is read
back. -/
theorem typed_of_reading {v : Json} {members : List (String × Json)}
    (hread : reading depth content = .ok (.ok v)) (hobject : v.fields? = some members)
    (h : (defaults.update members).declared = true) : (defaults.update members).Typed := by
  obtain ⟨text, htext⟩ : ∃ text, Json.read text depth = .ok v := by
    rw [reading] at hread
    rcases hdecoded : Text.Utf8.decodeStrict content with u | text
    · rw [hdecoded] at hread
      cases hread
    · rw [hdecoded] at hread
      exact ⟨_, Except.ok.inj hread⟩
  have hfits := (Json.fits_of_read htext).fields hobject
  rw [update_eq_overridden] at h ⊢
  simp only [declared, Bool.and_eq_true, decide_eq_true_eq] at h
  obtain ⟨⟨⟨⟨⟨⟨hbackend, hlimit⟩, hrefuse⟩, hmarker⟩, hargs⟩, hssh⟩, hlast⟩ := h
  refine ⟨Json.isText_of_kind hbackend (fits_getD hfits _ (.str _)), ?_,
    Json.exists_bool_of_kind hrefuse, Json.isText_of_kind hmarker (fits_getD hfits _ (.str _)),
    Json.isTexts_of_fits hargs (fits_getD hfits _ (.arr fun _ hv => by cases hv)),
    Json.isText_of_kind hssh (fits_getD hfits _ (.str _)),
    Json.isText_of_kind hlast (fits_getD hfits _ (.str _))⟩
  obtain ⟨n, hn⟩ := Json.exists_int_of_kind hlimit
  have hnumber : (defaults.overridden members).sniffLimit.Fits :=
    fits_getD hfits _ (.int inRange_default)
  rw [hn] at hnumber
  cases hnumber with
  | int hrange => exact ⟨n, hn, hrange⟩

/-- A content is that of a settings file with values of the declared types,
which make up a configuration, where values may be nested to a depth. -/
def Gives (depth : Nat) (content : Bytes) (c : Config) : Prop :=
  ∃ v members, reading depth content = .ok (.ok v) ∧ v.fields? = some members ∧
    (defaults.update members).Typed ∧ (defaults.update members).normalize = .ok c

/-- Loading a content gives the configuration and leaves the machine as it is.
-/
theorem Gives.exec_load {m : Machine} {store : Path} (h : Gives m.depth content c)
    (hfile : m.CanRead store.text content) : (load store).exec m = (.ok c, m) := by
  obtain ⟨v, members, hread, hobject, -, hc⟩ := h
  rw [exec_load_canRead hfile, hread]
  dsimp only
  rw [adopt_object hobject, exec_ofExcept, hc]

/-- What was stored gives what it stands for. -/
theorem gives_stored (hs : s.Typed) (h : s.normalize = .ok c) (m : Machine) :
    Gives m.depth s.stored c := by
  refine ⟨s.toJson, s.fields, hs.reading_stored m, rfl, ?_, ?_⟩
  · rw [update_fields]
    exact hs
  · rw [update_fields]
    exact h

theorem inRange_normalLimit {n : Int} (h : Json.InRange n) :
    Json.InRange (normalLimit (.int n)) := by
  rw [normalLimit]
  split
  · have hsize : ((n.toNat : Int)).natAbs = n.natAbs := by omega
    rw [Json.InRange, hsize]
    exact h
  · exact inRange_default

/-- A dot in front of a text joins nothing. -/
theorem unpaired_normalSuffix {t : Script} (h : Json.Unpaired t.points) :
    Json.Unpaired (normalSuffix t).points := by
  rw [normalSuffix]
  split
  · exact Json.unpaired_plain ".objdump"
  split
  · exact h
  · have hpoints : t.dotted.points = .char '.' :: t.points := by
      cases t with
      | plain s => simp [Script.dotted, Script.points, String.toList_append]
      | broken b => rfl
    rw [hpoints, Json.Unpaired, List.isChain_cons]
    exact ⟨fun p _ => Json.joins_char_left '.' p, h⟩

/-- A configuration made of settings of the declared types is stored as
such. -/
theorem Typed.toSettings (hs : s.Typed) (h : s.normalize = .ok c) : c.toSettings.Typed := by
  obtain ⟨n, hn, hrange⟩ := hs.sniffLimit
  obtain ⟨t, ht, hpaired⟩ := hs.marker
  obtain ⟨ts, hts, htexts⟩ := hs.extraArguments
  rw [normalize, ht, hts, normalMarker_ofScript, normalArguments_texts] at h
  cases h
  refine ⟨?_, ⟨_, rfl, ?_⟩, ⟨_, rfl⟩, ⟨_, rfl, unpaired_normalSuffix hpaired⟩, ⟨ts, rfl, htexts⟩,
    hs.ssh, hs.lastOpened⟩
  · dsimp only [Config.toSettings]
    split
    · exact hs.backend
    · exact Json.isText_str _
  · rw [hn]
    exact inRange_normalLimit hrange

/-- The path opened last is taken as it is. -/
theorem normalize_lastOpened (h : s.normalize = .ok c) (v : Json) :
    { s with lastOpened := v }.normalize = .ok { c with lastOpened := v } := by
  rw [normalize] at h ⊢
  obtain ⟨marker, hmarker, h⟩ := ok_of_bind h
  obtain ⟨args, hargs, h⟩ := ok_of_bind h
  cases h
  dsimp only
  rw [hmarker, hargs]
  rfl

/-- What a configuration that a settings file gave is stored as, once a path
is remembered in it. -/
theorem Gives.typed_remember (h : Gives depth content c) (path : String) :
    { c.toSettings with lastOpened := .str path }.Typed := by
  obtain ⟨v, members, -, -, htyped, hc⟩ := h
  exact { htyped.toSettings hc with lastOpened := Json.isText_str path }

/-- **What is stored after a path was remembered** gives the configuration
with that path. -/
theorem Gives.remember (h : Gives depth content c) (path : String) (m : Machine) :
    Gives m.depth (stored { c.toSettings with lastOpened := .str path })
      { c with lastOpened := .str path } := by
  refine gives_stored (h.typed_remember path) ?_ m
  obtain ⟨v, members, -, -, -, hc⟩ := h
  exact normalize_toSettings (normalize_lastOpened hc (.str path))

end Settings

/-! ## The settings file on the machine -/

namespace Machine

variable {path : String} {place : Place} {content : Bytes} {executable : Bool}

/-- A path leads to a file at a place, which may be read and written to, and
to which no log goes. -/
structure StoresAt (path : String) (place : Place) (content : Bytes) (executable : Bool)
    (m : Machine) : Prop where
  node : m.files.nodeAt m.here true path = .ok (place, .file content executable)
  readable : m.files.unreadable.contains place = false
  writable : m.files.unwritable.contains place = false
  unlogged : Sink.file place ∉ m.logger.attached

/-- A path leads to a file with this content, which may be read and written
to, and to which no log goes. -/
def Stores (m : Machine) (path : String) (content : Bytes) : Prop :=
  ∃ place executable, m.StoresAt path place content executable

/-- What is stored depends on the files, the working directory and the sinks
of the log. -/
theorem StoresAt.congr {m m' : Machine} (h : m.StoresAt path place content executable)
    (hfiles : m'.files = m.files) (hcwd : m'.cwd = m.cwd) (hlogger : m'.logger = m.logger) :
    m'.StoresAt path place content executable := by
  have hhere : m'.here = m.here := congrArg (fun cwd => pathNames (Path.normalize cwd)) hcwd
  refine ⟨?_, hfiles ▸ h.readable, hfiles ▸ h.writable, hlogger ▸ h.unlogged⟩
  rw [hfiles, hhere]
  exact h.node

/-- What is stored is a matter of the files, the working directory and the log.
-/
theorem Stores.congr {m m' : Machine} (h : m.Stores path content)
    (hfiles : m'.files = m.files) (hcwd : m'.cwd = m.cwd) (hlogger : m'.logger = m.logger) :
    m'.Stores path content := by
  obtain ⟨place, executable, hstores⟩ := h
  exact ⟨place, executable, hstores.congr hfiles hcwd hlogger⟩

/-- What is stored can be read. -/
theorem Stores.canRead {m : Machine} (h : m.Stores path content) : m.CanRead path content := by
  obtain ⟨place, executable, hstores⟩ := h
  exact ⟨place, executable, hstores.node, hstores.readable⟩

/-- What was written is stored. -/
theorem Stores.of_writeFile {m m' : Machine} {new : Bytes} (h : m.Stores path content)
    (hwritten : (writeFile path new).exec m = (.ok ⟨⟩, m')) : m'.Stores path new := by
  obtain ⟨place, executable, hnode, hread, hwrite, hlog⟩ := h
  have halike := (FileTree.Alike.refl m.files).put (FileTree.node?_of_nodeAt hnode) new
  have hroom : m.HasRoom new := by
    rcases cases_writeFile hwritten with ⟨_, hf, -⟩ | ⟨-, hroom, -⟩ | ⟨_, hf, -⟩
    · cases hf
    · exact hroom
    · cases hf
  cases (Machine.exec_writeFile hnode hwrite hroom).symm.trans hwritten
  exact ⟨place, executable, FileTree.nodeAt_put hnode new, halike.unreadable ▸ hread,
    halike.unwritable ▸ hwrite, hlog⟩

/-- Writing to another file leaves this one as it is. -/
theorem StoresAt.put {m : Machine} (h : m.StoresAt path place content executable) {other : Place}
    (hother : other ≠ place) {old : Bytes} {mode : Bool}
    (hfile : m.files.node? other = some (.file old mode)) (new : Bytes) :
    StoresAt path place content executable
      { m with files := m.files.put other (.file new mode) } := by
  have halike := (FileTree.Alike.refl m.files).put hfile new
  have hroot : other ≠ [] := by
    rintro rfl
    cases hfile
  obtain ⟨found, hfound⟩ := halike.file_nodeAt h.node
  have hsame := FileTree.node?_of_nodeAt hfound
  rw [FileTree.node?_put _ hroot, if_neg (Ne.symm hother), FileTree.node?_of_nodeAt h.node] at hsame
  cases hsame
  exact ⟨hfound, halike.unreadable ▸ h.readable, halike.unwritable ▸ h.writable, h.unlogged⟩

/-- A record goes to another file. -/
theorem preserves_writeTo (r : Log.Record) {k : Sink} (hk : k ≠ .file place) :
    (writeTo r k).Preserves (StoresAt path place content executable) := by
  intro m hm
  cases k with
  | console colored => exact hm.congr rfl rfl rfl
  | file other =>
    rw [writeTo, exec_bind_ok (exec_get m)]
    split
    · rename_i old mode hfile
      rw [exec_storeAt hfile]
      exact hm.put (fun h => hk (congrArg Sink.file h)) hfile _
    · exact hm

/-- So all the sinks of the log leave the file alone. -/
theorem preserves_deliver (r : Log.Record) :
    (deliver r).Preserves (StoresAt path place content executable) := by
  intro m hm
  rw [deliver, exec_bind_ok (exec_get m)]
  refine Preserves.ite ?_ (Preserves.pure _) m hm
  refine Preserves.ite ?_ (Preserves.forM_mem fun k hk => ?_)
  · exact Preserves.ite (fun m hm => hm.congr rfl rfl rfl) (Preserves.pure _)
  · refine preserves_writeTo r fun hplace => hm.unlogged ?_
    rw [← hplace]
    split at hk
    · exact hk
    · cases hk

/-- A file is stored, and values may be nested to a depth. -/
def Keeps (path : String) (content : Bytes) (depth : Nat) (m : Machine) : Prop :=
  m.Stores path content ∧ m.depth = depth

/-- **A stored file lasts**: no log goes to it, and commands and notices do
not touch files. Nor do they take anything of the stack. -/
theorem lasting_keeps (path : String) (content : Bytes) (depth : Nat) :
    Lasting (Keeps path content depth) where
  log level component message := by
    rintro m ⟨⟨place, executable, hm⟩, hdepth⟩
    refine ⟨⟨place, executable, ?_⟩, ?_⟩
    · exact Preserves.bind (fun m hm => hm.congr rfl rfl rfl) (fun _ => preserves_deliver _) m hm
    · exact (keeps_unlogged level component message).through Machine.depth _ m hdepth
  run c := by
    rintro m ⟨hm, hdepth⟩
    have hsame : ((run c).exec m).2.unoccupied = m.unoccupied := keeps_unoccupied c _ m rfl
    exact ⟨hm.congr (congrArg (·.files) hsame) (congrArg (·.cwd) hsame)
      (congrArg (·.logger) hsame), (congrArg Machine.depth hsame).trans hdepth⟩
  notices _ _ hm := ⟨hm.1.congr rfl rfl rfl, hm.2⟩

end Machine

/-! ## What lasts in a window -/

namespace Sniff

theorem preserves_isBinary {I : Machine → Prop} (s : Source) (limit : Int) :
    (isBinary s limit).Preserves I := by
  refine Preserves.bind (Preserves.bind ?_ fun _ => Preserves.pure _) fun _ => Preserves.pure _
  refine Preserves.ite (Preserves.pure _) ?_
  cases s with
  | bytes content => exact Preserves.pure _
  | reader content => exact Preserves.pure _
  | file path => exact (Machine.preserves_readStart path limit).bind fun _ => Preserves.pure _

end Sniff

namespace Registry

variable {H σ R : Type} {I : σ → Prop}

/-- Handlers that preserve an invariant do so one after the other. -/
theorem preserves_openFrom {registry : σ → Registry H} {announce : String → Act σ Unit}
    {behave : H → Behaviour σ R} {path : String} (hannounce : ∀ name, (announce name).Preserves I)
    (haccepts : ∀ h, ((behave h).accepts path).Preserves I)
    (hactivate : ∀ h, ((behave h).activate path).Preserves I) (n steps index : Nat) :
    (openFrom registry announce behave path n steps index).Preserves I := by
  induction steps generalizing index with
  | zero => exact Preserves.pure _
  | succ steps ih =>
    refine Preserves.get.bind fun s => ?_
    split
    · exact Preserves.pure _
    · rename_i e _
      refine (haccepts e.handler).bind fun taken => Preserves.ite ?_ (ih (index + 1))
      exact (hannounce e.name).bind fun _ => (hactivate e.handler).bind fun _ => Preserves.pure _

end Registry

section Lasting

variable {J : Machine → Prop} (hJ : Machine.Lasting J)

include hJ

/-- A file is looked at and probed, and both preserve what lasts. -/
theorem Opening.preserves_looksDisassemblable (c : Config) (path : String) :
    (looksDisassemblable c path).Preserves J := by
  refine Preserves.bind (fun _ hm => hm) fun l => ?_
  have hprobe : ∀ binary : Bool, (do
      if binary then return (← Probe.probeAt c l).accepted
      else return false : Act Machine Bool).Preserves J := by
    intro binary
    refine Preserves.ite ?_ (Preserves.pure _)
    exact (Probe.preserves_probeAt hJ c l).bind fun _ => Preserves.pure _
  refine Preserves.ite ((Preserves.pure _).bind hprobe) (Preserves.bind ?_ hprobe)
  exact Preserves.recover ((Sniff.preserves_isBinary _ _).map _) fun _ => Preserves.pure _

namespace Screen

/-- The screen shows a file by reading it. -/
theorem lasting_showFile (c : Config) (l : Location) :
    (showFile c l).Preserves fun s => J s.machine := by
  refine Preserves.bind (fun s hs => ?_) fun raw => ?_
  · exact Host.preserves_readBytes hJ _ l s.machine hs
  · exact Preserves.bind (fun _ hs => hs) fun _ => fun _ hs => hs

/-- A file that is loaded is shown. -/
theorem lasting_load (c : Config) (path : String) :
    (load c path).Preserves fun s => J s.machine :=
  Preserves.bind (fun _ hs => hs) fun l => lasting_showFile hJ c l

theorem lasting_presenter (c : Config) : (presenter c).Preserves fun s => J s.machine where
  showText _ _ hs := hs
  setIdentity _ _ hs := hs
  markUnmodified _ hs := hs
  restore original := lasting_showFile hJ c original.location

end Screen

end Lasting

namespace Window

variable {w w' : Window} {store : Path} {content : Bytes} {depth : Nat} {c : Config}
  {path : String} {α : Type}

/-- A window's settings file is at a path and has this content, and values
may be nested to a depth. -/
def Stocked (store : Path) (content : Bytes) (depth : Nat) (w : Window) : Prop :=
  w.store = store ∧ w.machine.Keeps store.text content depth

/-- What leaves the file on the machine alone leaves it in the window. -/
theorem stocked_onMachine {x : Act Machine α}
    (hx : x.Preserves (·.Keeps store.text content depth)) :
    (onMachine x).Preserves (Stocked store content depth) :=
  fun w hw => ⟨hw.1, hx w.machine hw.2⟩

/-- So does what a view does there. -/
theorem stocked_onStage {x : Act (Stage Screen) α}
    (hx : x.Preserves fun s => s.machine.Keeps store.text content depth) (v : View) :
    (onStage v x).Preserves (Stocked store content depth) :=
  fun w hw => ⟨hw.1, hx (w.stage v) hw.2⟩

theorem stocked_tell (d : Dialog) : (tell d).Preserves (Stocked store content depth) :=
  fun _ hw => hw

/-- Putting the original back reads one file and writes none. -/
theorem stocked_restoreOriginal : restoreOriginal.Preserves (Stocked store content depth) := by
  intro w hw
  have hlasting := Machine.lasting_keeps store.text content depth
  rw [restoreOriginal, exec_bind_ok (exec_get w)]
  cases w.view with
  | none => exact hw
  | some v =>
    dsimp only
    rw [exec_bind_ok (exec_set w _)]
    have hsync : syncActions.Preserves (Stocked store content depth) := fun _ hw => hw
    refine Preserves.bind (Preserves.recover (stocked_onStage ?_ v) fun f => stocked_tell _)
      (fun _ => hsync) _ hw
    exact View.preserves_teardown (View.lasting_machine hlasting w.config)
      (Screen.lasting_presenter hlasting w.config)

/-- So does showing a file as text. -/
theorem stocked_load (c : Config) (path : String) :
    (onStage {} (Screen.load c path)).Preserves (Stocked store content depth) :=
  stocked_onStage (Screen.lasting_load (Machine.lasting_keeps _ _ _) c path) {}

/-- Handlers are asked and take the file, all of which lasts. -/
theorem stocked_dispatch (path : String) :
    (dispatch path).Preserves (Stocked store content depth) := by
  have hlasting := Machine.lasting_keeps store.text content depth
  refine Preserves.bind (Preserves.get.bind fun w => ?_) fun _ => Preserves.pure _
  refine Registry.preserves_openFrom (fun name => ?_) (fun c => ?_) (fun c => ?_) _ _ _
  · exact stocked_onMachine (hlasting.log _ _ _)
  · exact stocked_onMachine (Opening.preserves_looksDisassemblable hlasting c path)
  · refine stocked_onStage ?_ {}
    refine Preserves.bind (fun _ hs => hs) fun _ => Preserves.bind ?_ fun shown => ?_
    · exact View.preserves_setup (View.lasting_machine hlasting c)
        (Screen.lasting_presenter hlasting c) path none
    · exact Preserves.ite (Preserves.get.bind fun _ => Preserves.pure _) (Preserves.pure _)

/-- A file is shown by the handler that takes it, or as text. -/
theorem stocked_exhibit (path : String) :
    (exhibit path).Preserves (Stocked store content depth) := by
  refine (stocked_dispatch path).attempt.bind fun r => ?_
  rcases r with f | view
  · refine Preserves.when (Preserves.throw f) ?_
    exact (stocked_tell _).bind fun _ => Preserves.pure _
  · refine Preserves.bind (fun _ hw => hw) fun _ => Preserves.bind (fun _ hw => hw) fun _ => ?_
    refine Preserves.ite ?_ ?_
    · exact Preserves.bind (fun _ hw => hw) fun _ => Preserves.pure _
    · exact Preserves.bind (fun _ hw => hw) fun _ => Preserves.pure _

/-! ## Remembering -/

theorem exec_onMachine {x : Act Machine α} {r : Except Failure α} {m' : Machine}
    (h : x.exec w.machine = (r, m')) : (onMachine x).exec w = (r, { w with machine := m' }) := by
  have hrun : (onMachine x).exec w =
      ((x.exec w.machine).1, { w with machine := (x.exec w.machine).2 }) := rfl
  rw [hrun, h]

/-- **Remembering a path** stores what the settings file gave with that path,
and ends as that does. -/
theorem exec_remember (hw : Stocked store content depth w) (hc : Settings.Gives depth content c)
    {r : Except Failure Unit} {m' : Machine}
    (hwrite : (Machine.writeFile store.text
      (Settings.stored { c.toSettings with lastOpened := .str path })).exec w.machine = (r, m')) :
    (remember path).exec w =
      (r, { w with machine := m', config := { w.config with lastOpened := .str path } }) := by
  obtain ⟨rfl, hstores, rfl⟩ := hw
  have hcopy := (hc.typed_remember path).copies w.machine
  have hsave : (do
      let stored ← Settings.load w.store
      Settings.save w.store { stored.toSettings with lastOpened := .str path } :
      Act Machine Unit).exec w.machine = (r, m') := by
    rw [exec_bind_ok (hc.exec_load hstores.canRead), Settings.exec_save hcopy]
    exact hwrite
  rw [remember, exec_bind_ok (exec_modify _ w), exec_bind_ok (exec_get _)]
  exact exec_onMachine hsave

/-- Once a path was remembered the settings file holds what it gave with that
path. -/
theorem stocked_remember (hw : Stocked store content depth w)
    (hc : Settings.Gives depth content c) (h : (remember path).exec w = (.ok (), w')) :
    Stocked store (Settings.stored { c.toSettings with lastOpened := .str path }) depth w' := by
  rcases hwrite : (Machine.writeFile store.text
      (Settings.stored { c.toSettings with lastOpened := .str path })).exec w.machine with ⟨r, m'⟩
  cases (exec_remember hw hc hwrite).symm.trans h
  obtain ⟨hstore, hstores, hdepth⟩ := hw
  have hsame := Machine.preserves_writeFile (I := (·.depth = depth)) (fun _ _ h => h) store.text
    (Settings.stored { c.toSettings with lastOpened := .str path }) w.machine hdepth
  rw [hwrite] at hsame
  exact ⟨hstore, hstores.of_writeFile hwrite, hsame⟩

end Window

/-! ## A file that cannot be read -/

/-- A file that cannot be read leaves the screen as it is. -/
theorem Screen.presenter_of_load_error {c : Config} {path : String} {s t : Stage Screen}
    {f : Failure} (h : (Screen.load c path).exec s = (.error f, t)) :
    t.presenter = s.presenter := by
  rw [load, exec_bind] at h
  rcases hlocation : (View.onMachine (Machine.readLocation path)).exec s with ⟨g | l, s₁⟩
  · rw [hlocation] at h
    cases h
    exact (congrArg (fun r => r.2.presenter) hlocation).symm
  · rw [hlocation] at h
    have hkept : s₁.presenter = s.presenter :=
      (congrArg (fun r => r.2.presenter) hlocation).symm
    dsimp only at h
    rw [showFile, exec_bind] at h
    rcases hread : (View.onMachine (readOriginal c l)).exec s₁ with ⟨g | raw, s₂⟩
    · rw [hread] at h
      cases h
      exact (congrArg (fun r => r.2.presenter) hread).symm.trans hkept
    · rw [hread] at h
      cases h

namespace Window

variable {w w' : Window} {store : Path} {content : Bytes} {depth : Nat} {c : Config}
  {path : String} {α : Type}

/-- The configuration is not touched when the original is put back. -/
theorem keeps_config_restoreOriginal : restoreOriginal.Keeps Window.config := by
  intro config w hw
  rw [restoreOriginal, exec_bind_ok (exec_get w)]
  cases w.view with
  | none => exact hw
  | some v =>
    dsimp only
    rw [exec_bind_ok (exec_set w _)]
    have hsync : syncActions.Preserves (·.config = config) := fun _ hw => hw
    exact Preserves.bind (Preserves.recover (fun _ hw => hw) fun f _ hw => hw) (fun _ => hsync) _ hw

/-- **A file that cannot be read is not opened**: the window is left as
giving up the listing leaves it, but for what was done on the machine and
the dialog that tells of it. -/
theorem exec_openPath_unread {w₁ w₂ : Window} {f : Failure}
    (hrestore : restoreOriginal.exec w = (.ok (), w₁))
    (hload : (onStage {} (Screen.load w₁.config path)).exec w₁ = (.error f, w₂))
    (hf : (f.isSystem || f.isValue) = true) :
    (openPath path).exec w = (.ok false, { w₁ with
      machine := w₂.machine
      dialogs := w₁.dialogs ++ [.critical "Unable to open file" f.message] }) := by
  have hscreen : w₂ = { w₁ with machine := w₂.machine } := by
    rw [exec_onStage] at hload
    rcases hend : (Screen.load w₁.config path).exec (w₁.stage {}) with ⟨r, s⟩
    rw [hend] at hload
    cases hload
    have hsame : s.presenter = w₁.screen := Screen.presenter_of_load_error hend
    rw [hsame]
  rw [exec_openPath hrestore, hload]
  dsimp only
  rw [if_pos hf, hscreen]

/-! ## Runs -/

/-- Opening a path gets as far as showing the file: what was on show is given
up, and the file can be read. -/
def Reads (path : String) (w : Window) : Prop :=
  ∃ w₁ w₂, restoreOriginal.exec w = (.ok (), w₁) ∧
    (onStage {} (Screen.load w₁.config path)).exec w₁ = (.ok (), w₂)

/-- Opening a path returned: if the file was read, the settings file gives
what it gave with that path, and otherwise it is as it was. -/
theorem stocked_openPath {shown : Bool} (hw : Stocked store content depth w)
    (hc : Settings.Gives depth content c) (h : (openPath path).exec w = (.ok shown, w')) :
    (Reads path w → ∃ new, Stocked store new depth w' ∧
      Settings.Gives depth new { c with lastOpened := .str path }) ∧
    (¬Reads path w → Stocked store content depth w') := by
  obtain ⟨_, w₁, hrestore, -⟩ := ok_of_exec_bind h
  have hw₁ := stocked_restoreOriginal w hw
  rw [hrestore] at hw₁
  rw [exec_openPath hrestore] at h
  have hw₂ := stocked_load w₁.config path w₁ hw₁
  rcases hload : (onStage {} (Screen.load w₁.config path)).exec w₁ with ⟨f | _, w₂⟩
  · rw [hload] at h hw₂
    refine ⟨?_, fun _ => ?_⟩
    · rintro ⟨u₁, u₂, hrestore', hload'⟩
      cases hrestore.symm.trans hrestore'
      cases hload.symm.trans hload'
    · dsimp only at h
      split at h
      · cases h
        exact hw₂
      · cases h
  · rw [hload] at h hw₂
    obtain ⟨⟨⟩, w₃, hremember, h⟩ := ok_of_exec_bind h
    have hw₃ := stocked_remember hw₂ hc hremember
    have hw' := stocked_exhibit path w₃ hw₃
    rw [h] at hw'
    refine ⟨fun _ => ⟨_, hw', ?_⟩, fun hunread => absurd ⟨w₁, w₂, hrestore, hload⟩ hunread⟩
    rw [← hw'.2.2]
    exact hc.remember path w'.machine

/-- What a window can come to by opening files, each of which returns, and
the path that was read last. Between two of them the machine changes in any
way that leaves the settings file there with its content, to be read and
written to, and the program its stack, and the user makes up his mind anew. -/
inductive Course (first : Window) : Option String → Window → Prop
  | start : Course first none first
  | elsewhere {last : Option String} {w : Window} (machine : Machine)
      (answers : List (Option String)) : Course first last w →
      (∀ content, w.machine.Stores w.store.text content →
        machine.Stores w.store.text content) →
      machine.depth = w.machine.depth →
      Course first last { w with machine, answers }
  | read {last : Option String} {w w' : Window} {path : String} {shown : Bool} :
      Course first last w → (openPath path).exec w = (.ok shown, w') → Reads path w →
      Course first (some path) w'
  | unread {last : Option String} {w w' : Window} {path : String} {shown : Bool} :
      Course first last w → (openPath path).exec w = (.ok shown, w') → ¬Reads path w →
      Course first last w'

/-- A configuration with the path that was read last, if any was. -/
def recalling (c : Config) (last : Option String) : Config :=
  { c with lastOpened := (last.map .str).getD c.lastOpened }

/-- **All along a course the file gives what was remembered last.** -/
theorem Course.stocked {first : Window} {last : Option String} (h : Course first last w)
    (hfirst : Stocked store content depth first) (hc : Settings.Gives depth content c) :
    ∃ current, Stocked store current depth w ∧
      Settings.Gives depth current (recalling c last) := by
  induction h with
  | start => exact ⟨content, hfirst, hc⟩
  | elsewhere machine answers _ hmachine hdepth ih =>
    obtain ⟨current, ⟨rfl, hstores, hsame⟩, hcurrent⟩ := ih
    exact ⟨current, ⟨rfl, hmachine current hstores, hdepth.trans hsame⟩, hcurrent⟩
  | read _ hopen hread ih =>
    obtain ⟨current, hw, hcurrent⟩ := ih
    exact (stocked_openPath hw hcurrent hopen).1 hread
  | unread _ hopen hunread ih =>
    obtain ⟨current, hw, hcurrent⟩ := ih
    exact ⟨current, (stocked_openPath hw hcurrent hopen).2 hunread, hcurrent⟩

/-- **Only the history is stored.** Before files were opened and after, the
settings file is loaded as it stands, and gives the same configuration but
for the path opened last, which is the one that was read last; the
configuration that the window was given is no part of it. A file that
cannot be read is not opened: the settings file and the configuration of
the window stay as they are, and the pane is left as giving up the listing
leaves it. -/
theorem only_history_stored {first : Window} {v : Json} {members : List (String × Json)}
    {last : Option String} (hfile : first.machine.Stores first.store.text content)
    (hread : Settings.reading first.machine.depth content = .ok (.ok v))
    (hobject : v.fields? = some members)
    (htypes : (Settings.defaults.update members).declared = true) (h : Course first last w) :
    (∃ c, (Settings.load first.store).exec first.machine = (.ok c, first.machine) ∧
      (Settings.load first.store).exec w.machine = (.ok (recalling c last), w.machine)) ∧
    ∀ path w₁ w₂ f, restoreOriginal.exec w = (.ok (), w₁) →
      (onStage {} (Screen.load w₁.config path)).exec w₁ = (.error f, w₂) →
      (f.isSystem || f.isValue) = true →
      ∃ w' current, (openPath path).exec w = (.ok false, w') ∧
        w.machine.Stores first.store.text current ∧ w'.machine.Stores first.store.text current ∧
        w'.config = w.config ∧ w'.screen.editor = w₁.screen.editor := by
  have htyped := Settings.typed_of_reading hread hobject htypes
  obtain ⟨c, hc⟩ := htyped.normalizes
  have hgives : Settings.Gives first.machine.depth content c :=
    ⟨v, members, hread, hobject, htyped, hc⟩
  obtain ⟨current, hw, hcurrent⟩ := h.stocked ⟨rfl, hfile, rfl⟩ hgives
  refine ⟨⟨c, hgives.exec_load hfile.canRead, ?_⟩, ?_⟩
  · rw [← hw.2.2] at hcurrent
    exact hcurrent.exec_load hw.2.1.canRead
  intro path w₁ w₂ f hrestore hload hf
  have hopen := exec_openPath_unread hrestore hload hf
  have hw₁ := stocked_restoreOriginal w hw
  rw [hrestore] at hw₁
  have hw₂ := stocked_load w₁.config path w₁ hw₁
  rw [hload] at hw₂
  have hconfig : w₁.config = w.config := keeps_config_restoreOriginal.eq hrestore
  exact ⟨_, current, hopen, hw.2.1, hw₂.2.1, hconfig, rfl⟩

/-- Settings with a suffix of listings that lacks its dot. -/
def marked : Settings :=
  { Settings.defaults with marker := .str "lst" }

/-- Such settings once a path is remembered. -/
def recalled : Settings :=
  { Settings.defaults with marker := .str ".lst", lastOpened := .str "/a" }

/-- A machine with a text file and a settings file. -/
def plain (s : Settings) : Machine where
  cwd := "/"
  env := []
  files := { nodes := [(["a"], .file [0x61] false), (["s"], .file s.stored false)] }

/-- A window that was given another backend than the stored one. -/
def overridden : Window where
  machine := plain marked
  store := Path.ofString "/s"
  config := { backend := .str "other" }
  registry := ({} : Registry Config).register Opening.handlerName { backend := .str "other" }

/-- The window once the text file is read. -/
def reading : Window :=
  ((onStage {} (Screen.load overridden.config "/a")).exec overridden).2

/-- The window once another file was asked for in vain. -/
def unread : Window :=
  ((onStage {} (Screen.load overridden.config "/b")).exec overridden).2

/-- The window once the path of the text file is remembered. -/
def remembered : Window :=
  { reading with
    machine := plain recalled
    config := { backend := .str "other", lastOpened := .str "/a" } }

theorem typed_marked : marked.Typed :=
  { Settings.typed_defaults with marker := Json.isText_str "lst" }

theorem gives_marked (m : Machine) : Settings.Gives m.depth marked.stored { suffix := ".lst" } :=
  Settings.gives_stored typed_marked rfl m

theorem stores_plain (s : Settings) : (plain s).Stores (Path.ofString "/s").text s.stored :=
  ⟨["s"], false, rfl, rfl, rfl, List.not_mem_nil⟩

theorem exec_openPath_overridden :
    (openPath "/a").exec overridden = (exhibit "/a").exec remembered := by
  have hrestore : restoreOriginal.exec overridden = (.ok (), overridden) := rfl
  have hload : (onStage {} (Screen.load overridden.config "/a")).exec overridden =
      (.ok (), reading) := rfl
  have hwrite : (Machine.writeFile (Path.ofString "/s").text recalled.stored).exec (plain marked) =
      (.ok (), plain recalled) := rfl
  have hstocked : Stocked (Path.ofString "/s") marked.stored (plain marked).depth reading :=
    ⟨rfl, stores_plain marked, rfl⟩
  rw [exec_openPath hrestore, hload]
  exact exec_bind_ok (exec_remember hstocked (gives_marked _) hwrite)

/-- Of a window that was given another backend, the settings file gets to
know of the file that was opened, and not of the backend. -/
theorem only_history_stored_overridden :
    ∃ w, Course overridden (some "/a") w ∧
      (Settings.load overridden.store).exec w.machine =
        (.ok { suffix := ".lst", lastOpened := .str "/a" }, w.machine) ∧
      ∃ w', (openPath "/b").exec overridden = (.ok false, w') ∧
        w'.config = { backend := .str "other" } := by
  have hread := typed_marked.reading_stored overridden.machine
  have htypes : (Settings.defaults.update marked.fields).declared = true := by
    rw [Settings.update_fields]
    rfl
  have hreturns : ((exhibit "/a").exec remembered).1.toOption = some false := by
    decide +kernel
  have hopen : (openPath "/a").exec overridden =
      (.ok false, ((exhibit "/a").exec remembered).2) := by
    rw [exec_openPath_overridden]
    exact Prod.ext (ok_of_toOption hreturns) rfl
  have hcourse : Course overridden (some "/a") ((exhibit "/a").exec remembered).2 :=
    .read .start hopen ⟨overridden, reading, rfl, rfl⟩
  obtain ⟨c, hbefore, hafter⟩ := (only_history_stored (stores_plain marked) hread rfl htypes hcourse).1
  have hgiven := (gives_marked (plain marked)).exec_load (stores_plain marked).canRead
  cases hgiven.symm.trans hbefore
  have hmissing : (onStage {} (Screen.load overridden.config "/b")).exec overridden =
      (.error (.system .noEntry "/b"), unread) := rfl
  obtain ⟨w', _, hrefused, -, -, hconfig, -⟩ :=
    (only_history_stored (w := overridden) (stores_plain marked) hread rfl htypes .start).2 "/b"
      _ _ _ rfl hmissing rfl
  exact ⟨_, hcourse, hafter, w', hrefused, hconfig⟩

end Window

end Disasm
