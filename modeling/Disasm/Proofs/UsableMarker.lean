import Disasm.Proofs.DerivedName
import Disasm.Proofs.Dispatch
import Disasm.Proofs.SavedSettings
/-!
# Usable markers — which settings can name a listing

The marker of listings is brought into form when settings are normalised:
a missing dot is put in front, and no marker at all becomes the default.
Whether a suffix can be put behind a name is decided much later, when the
listing is presented. The two conditions differ in a lone dot and in
markers that hold a slash. With any other marker a set-up over a buffer
succeeds once the file has been disassembled; with these it fails, for
every file that has a name (`presented_iff_usable`).
-/

namespace Disasm

open Act

/-- A text that can be given as the marker of listings. -/
def Settings.UsableMarker (s : String) : Prop :=
  s ≠ "." ∧ '/' ∉ s.toList

instance (s : String) : Decidable (Settings.UsableMarker s) :=
  inferInstanceAs (Decidable (s ≠ "." ∧ '/' ∉ s.toList))

namespace Settings

open Disasm.Path

theorem head?_of_startsWith {s : String} (h : Text.startsWith s "." = true) :
    s.toList.head? = some '.' := by
  obtain ⟨tail, htail⟩ := List.isPrefixOf_iff_prefix.1 h
  rw [← htail]
  rfl

/-- Of the texts that begin with a dot, the usable ones are the markers. -/
theorem isMarker_iff_of_dot {s : String} (hdot : s.toList.head? = some '.') :
    IsMarker s ↔ UsableMarker s := by
  have hone : s = "." ↔ s.toList = ['.'] := by
    rw [← String.toList_inj]
    rfl
  have hne : s ≠ "" := by
    rintro rfl
    cases hdot
  rw [← isSuffix_iff hne]
  unfold isSuffix UsableMarker
  simp [hdot, hne, hone, and_comm]

/-- **Normalising makes a marker of every usable text**, and of no other. -/
theorem isMarker_normalSuffix (s : Script) :
    IsMarker (normalSuffix s).shown ↔ UsableMarker s.shown := by
  rw [isMarker_iff_of_dot (head?_of_startsWith (startsWith_normalSuffix s)), normalSuffix]
  split
  · -- The default stands in for no text, and both are usable.
    rename_i hempty
    cases s with
    | plain s =>
      rw [Script.isEmpty, String.isEmpty_iff] at hempty
      subst hempty
      exact iff_of_true (by decide) (by decide)
    | broken b => cases hempty
  split
  · exact Iff.rfl
  · -- A dot was put in front of something that is no dot.
    rename_i hempty hundotted
    have hfull : s.shown ≠ "" := fun hnone => hempty (Script.isEmpty_of_shown hnone)
    have hnew : "." ++ s.shown ≠ "." := by
      rw [ne_eq, ← String.toList_inj, String.toList_append]
      simpa using hfull
    have hold : s.shown ≠ "." := by
      intro hdot
      rw [hdot] at hundotted
      exact hundotted rfl
    rw [Script.shown_dotted]
    simp [UsableMarker, hnew, hold]

/-- The marker of a configuration comes from the settings. -/
theorem marker_of_normalize {raw : Settings} {c : Config} (h : raw.normalize = .ok c) :
    normalMarker raw.marker = .ok c.suffix := by
  obtain ⟨marker, hmarker, h⟩ := ok_of_bind h
  obtain ⟨args, -, h⟩ := ok_of_bind h
  rw [hmarker, ← Except.ok.inj h]

end Settings

/-! ## Names of listings -/

/-- A marker that is not empty names a listing of a file if and only if it is
one. -/
theorem Location.viewName_eq {l : Location} {marker : String} (hname : l.name ≠ "")
    (hne : marker ≠ "") :
    (Path.IsMarker marker → l.viewName marker = .ok (l.marked marker).display) ∧
      (¬Path.IsMarker marker → l.viewName marker = .error (.badSuffix marker)) := by
  constructor
  · intro hmarker
    rw [viewName, withSuffix_eq hname hmarker]
    rfl
  · intro hmarker
    have hfull : ¬(Path.ofString l.path).name.isEmpty = true := by
      rw [String.isEmpty_iff]
      exact hname
    rw [← Path.isSuffix_iff hne] at hmarker
    unfold viewName Location.withSuffix
    dsimp only
    rw [if_neg hfull, if_neg hmarker]
    rfl

/-- The root goes by its own name, whatever the marker. -/
theorem Location.viewName_root {l : Location} (hname : l.name = "") (marker : String) :
    l.viewName marker = .ok l.display := by
  have hempty : (Path.ofString l.path).name.isEmpty = true := by
    rw [String.isEmpty_iff]
    exact hname
  unfold viewName Location.withSuffix
  dsimp only
  rw [if_pos hempty]
  rfl

namespace View

variable {c : Config} {read : Location → Act Machine Bytes}
variable {path : String} {timeout : Option Number} {st t : Stage Buffer}
variable {original : Identity} {output : Output}

/-- A set-up over a buffer succeeds once the listing can be named. -/
theorem exec_setup_named {name : String} (hst : st.view.session = none)
    (hready : (ready c path timeout).exec st = (.ok (some (original, output)), t))
    (hname : original.location.viewName c.marker = .ok name) :
    ∃ u, (setup (Buffer.presenter read) c path timeout).exec st = (.ok true, u) := by
  have hpresent := Buffer.exec_present read c.marker original output.text t
  rw [hname] at hpresent
  exact exec_setup_presented hst hready hpresent

/-- A set-up over a buffer fails if the listing cannot be named: for that
reason, or because the original could not be read again. -/
theorem exec_setup_unnamed {f : Failure} (hst : st.view.session = none)
    (hready : (ready c path timeout).exec st = (.ok (some (original, output)), t))
    (hname : original.location.viewName c.marker = .error f) :
    ((setup (Buffer.presenter read) c path timeout).exec st).1 =
      match ((read original.location).exec (failed t original).machine).1 with
      | .ok _ => .error f
      | .error g => .error g := by
  have hpresent := Buffer.exec_present read c.marker original output.text t
  rw [hname] at hpresent
  -- The buffer was filled before the name was asked for; the machine is as it was.
  obtain ⟨u, hpresent, hmachine⟩ : ∃ u,
      (present (Buffer.presenter read) c.marker original output.text).exec t = (.error f, u) ∧
        (failed u original).machine = (failed t original).machine := ⟨_, hpresent, rfl⟩
  have hback := Buffer.exec_putBack read original (failed u original)
  rw [hmachine] at hback
  rcases hread : (read original.location).exec (failed t original).machine with ⟨g | content, m⟩
  · rw [hread] at hback
    rw [exec_setup_stranded hst hready hpresent hback]
  · rw [hread] at hback
    rw [exec_setup_failed hst hready hpresent hback]

/-- **A marker is usable if and only if it can name listings.** With a usable
one, a set-up over a buffer succeeds whenever the file was accepted and
disassembled. With a lone dot, or with a slash, it fails after that: for
the marker or, if the file cannot be put back, for what kept it from being
read again. -/
theorem presented_iff_usable (raw : Settings) (s : Script) (c : Config)
    (hs : raw.marker = .ofScript s) (hc : raw.normalize = .ok c) :
    (∀ l : Location, l.name ≠ "" →
      ((∃ name, l.viewName c.marker = .ok name) ↔ Settings.UsableMarker s.shown)) ∧
    ∀ (read : Location → Act Machine Bytes) (path : String) (timeout : Option Number)
        (st t : Stage Buffer) (original : Identity) (output : Output),
      st.view.session = none →
      (ready c path timeout).exec st = (.ok (some (original, output)), t) →
      (Settings.UsableMarker s.shown ∨ original.location.name = "" →
        ∃ u, (setup (Buffer.presenter read) c path timeout).exec st = (.ok true, u)) ∧
      (¬Settings.UsableMarker s.shown → original.location.name ≠ "" →
        ((setup (Buffer.presenter read) c path timeout).exec st).1 =
          match ((read original.location).exec (failed t original).machine).1 with
          | .ok _ => .error (.badSuffix c.marker)
          | .error g => .error g) := by
  have hmarker := Settings.marker_of_normalize hc
  have hdot : c.marker.toList.head? = some '.' :=
    Settings.head?_of_startsWith (Settings.startsWith_normalMarker hmarker)
  have hne : c.marker ≠ "" := by
    intro hempty
    rw [hempty] at hdot
    cases hdot
  rw [hs, Settings.normalMarker_ofScript] at hmarker
  have husable := Settings.isMarker_normalSuffix s
  rw [Except.ok.inj hmarker, ← Config.marker] at husable
  refine ⟨fun l hl => ?_, fun read path timeout st t original output hst hready => ⟨?_, ?_⟩⟩
  · obtain ⟨hok, herror⟩ := Location.viewName_eq hl hne
    rw [← husable]
    refine ⟨fun ⟨name, hname⟩ => ?_, fun h => ⟨_, hok h⟩⟩
    by_contra h
    rw [herror h] at hname
    cases hname
  · intro h
    by_cases hname : original.location.name = ""
    · exact exec_setup_named hst hready (Location.viewName_root hname c.marker)
    · have h := husable.2 (h.resolve_right hname)
      exact exec_setup_named hst hready ((Location.viewName_eq hname hne).1 h)
  · intro h hname
    rw [← husable] at h
    exact exec_setup_unnamed hst hready ((Location.viewName_eq hname hne).2 h)

/-- Settings with a marker, as they were given. -/
def marking (s : String) : Settings :=
  { ({ backend := .str "o" } : Config).toSettings with marker := .str s }

/-- A view of the linked machine, over a buffer. -/
def linked : Stage Buffer :=
  { machine := .linked, presenter := {} }

/-- The file that the link leads to. -/
def linkedFile : Identity :=
  { location := { path := "/a" }, size := 2 }

/-- Its listing. -/
def linkedListing : Output :=
  { text := "A", identity := linkedFile, command := ["o", "-d", "--", "a"] }

/-- A word without a dot is usable, and marks the listing of the linked
file. -/
theorem presented_iff_usable_word :
    Settings.UsableMarker "dis" ∧
      ∃ c, (marking "dis").normalize = .ok c ∧
        (∃ name, Location.viewName { path := "/a.out" } c.marker = .ok name) ∧
        ∃ u, (setup (Buffer.presenter Buffer.readOriginal) c "/l" none).exec linked =
          (.ok true, u) := by
  let c : Config := { backend := .str "o", suffix := ".dis" }
  have hc : (marking "dis").normalize = .ok c := rfl
  have husable : Settings.UsableMarker "dis" := by decide
  have hready : ((ready c "/l" none).exec linked).1 = .ok (some (linkedFile, linkedListing)) :=
    ok_of_toOption (by decide +kernel)
  obtain ⟨hnames, hpresents⟩ := presented_iff_usable (marking "dis") "dis" c rfl hc
  refine ⟨husable, c, hc, (hnames _ (by decide)).2 husable, ?_⟩
  exact (hpresents Buffer.readOriginal "/l" none linked _ linkedFile linkedListing rfl
    (Prod.ext hready rfl)).1 (.inl husable)

/-- **A lone dot is taken for a marker**, and fails when the listing is to be
shown: the file was accepted and disassembled. -/
theorem lone_dot_unusable :
    ∃ c, (marking ".").normalize = .ok c ∧
      Location.viewName { path := "/a" } c.marker = .error (.badSuffix ".") ∧
      ((ready c "/l" none).exec linked).1 = .ok (some (linkedFile, linkedListing)) ∧
      ((setup (Buffer.presenter Buffer.readOriginal) c "/l" none).exec linked).1 =
        .error (.badSuffix ".") := by
  let c : Config := { backend := .str "o", suffix := "." }
  have hc : (marking ".").normalize = .ok c := rfl
  have hname : Location.viewName { path := "/a" } c.marker = .error (.badSuffix ".") := by
    refine (Location.viewName_eq (by decide) (by decide)).2 fun hmarker => ?_
    exact absurd hmarker.long (by decide)
  have hready : ((ready c "/l" none).exec linked).1 = .ok (some (linkedFile, linkedListing)) :=
    ok_of_toOption (by decide +kernel)
  have hread : ((Buffer.readOriginal linkedFile.location).exec
      (failed ((ready c "/l" none).exec linked).2 linkedFile).machine).1 = .ok [0, 1] :=
    ok_of_toOption (by decide +kernel)
  refine ⟨c, hc, hname, hready, ?_⟩
  rw [exec_setup_unnamed rfl (Prod.ext hready rfl) hname, hread]

end View

end Disasm
