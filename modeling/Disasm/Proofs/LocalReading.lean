import Disasm.Proofs.DerivedName
/-!
# Local readings — what was read once is read as itself

A text that is no remote location is made a path of this machine: a tilde
in front is replaced by a home, the working directory is put in front, and
empty names and dots are taken out. What comes of it is `IsCanonical`, and
a canonical text is left alone by each of these steps, whatever the
working directory and the homes are (`read_canonical`). So a path that was
read can be read again anywhere.
-/

namespace Disasm

namespace Path

variable {p : Path} {s : String} {names before : List String}

/-- A text in the form of a path that was read: one slash or two, and behind
them names, of which none is empty or a dot or a double dot. -/
def IsCanonical (s : String) : Prop :=
  ∃ (root : Root) (names : List String), root ≠ .relative ∧
    s = root.text ++ String.intercalate "/" names ∧ ∀ name ∈ names, IsPlain name

/-- Slashes in front make a text of their own, even if there are no names. -/
theorem text_rooted (hroot : p.root ≠ .relative) :
    p.text = p.root.text ++ String.intercalate "/" p.parts := by
  have hfull : ¬(p.root.text ++ String.intercalate "/" p.parts).isEmpty = true := by
    rw [String.isEmpty_iff, ← String.toList_eq_nil_iff, String.toList_append,
      List.append_eq_nil_iff]
    rintro ⟨hempty, -⟩
    cases hr : p.root with
    | relative => exact hroot hr
    | single => exact absurd hempty (by rw [hr]; decide)
    | double => exact absurd hempty (by rw [hr]; decide)
  rw [text, if_neg hfull]

theorem isCanonical_iff :
    IsCanonical s ↔
      ∃ p : Path, p.root ≠ .relative ∧ (∀ name ∈ p.parts, IsPlain name) ∧ p.text = s := by
  constructor
  · rintro ⟨root, names, hroot, rfl, hnames⟩
    exact ⟨⟨root, names⟩, hroot, hnames, text_rooted hroot⟩
  · rintro ⟨p, hroot, hnames, rfl⟩
    exact ⟨p.root, p.parts, hroot, text_rooted hroot, hnames⟩

theorem IsCanonical.startsWith (h : IsCanonical s) : Text.startsWith s "/" = true := by
  obtain ⟨p, hroot, -, rfl⟩ := isCanonical_iff.1 h
  exact startsWith_text hroot

/-! ## Normalising -/

/-- Below a root no double dot is ever kept. -/
theorem not_mem_foldl_pushName (h : ".." ∉ before) :
    ".." ∉ names.foldl (pushName true) before := by
  induction names generalizing before with
  | nil => exact h
  | cons name names ih =>
    refine ih ?_
    unfold pushName
    split
    · exact h
    split
    · rename_i hname
      exact List.not_mem_cons_of_ne_of_not_mem (Ne.symm hname) h
    · split
      · exact List.not_mem_nil
      · rw [List.mem_cons, not_or] at h
        rw [if_neg (Ne.symm h.1)]
        exact h.2

theorem isPlain_of_mem_tidied (h : Text.startsWith s "/" = true) :
    ∀ name ∈ tidied s, IsPlain name := by
  have hdots : ".." ∉ tidied s := by
    rw [tidied, decide_eq_true (root_of_startsWith h), List.mem_reverse]
    exact not_mem_foldl_pushName List.not_mem_nil
  intro name hname
  obtain ⟨hisName, hdot⟩ := isName_of_mem_tidied name hname
  exact ⟨hisName, hdot, ne_of_mem_of_not_mem hname hdots⟩

/-- **A rooted text that is normalised is canonical.** -/
theorem isCanonical_normalize (h : Text.startsWith s "/" = true) : IsCanonical (normalize s) := by
  rw [isCanonical_iff]
  exact ⟨⟨Root.of s.toList, tidied s⟩, root_of_startsWith h, isPlain_of_mem_tidied h, rfl⟩

/-- **A canonical text is normal already.** -/
theorem IsCanonical.normalize_eq (h : IsCanonical s) : normalize s = s := by
  obtain ⟨p, hroot, hnames, rfl⟩ := isCanonical_iff.1 h
  have hisName : ∀ name ∈ p.parts, IsName name := fun name hname => (hnames name hname).isName
  have hdots : ".." ∉ p.parts := fun hmem => (hnames _ hmem).ne_dots rfl
  have hread : ofString p.text = p :=
    ofString_text fun name hname => ⟨hisName name hname, (hnames name hname).ne_dot⟩
  have hreadRoot : Root.of p.text.toList = p.root := congrArg Path.root hread
  have htidied : tidied p.text = p.parts := by
    rw [tidied_of_rooted (startsWith_text hroot), pathNames_text hroot hisName,
      Place.along_of_plain hdots hisName, List.nil_append, List.filter_eq_self]
    exact fun name hname => decide_eq_true (hnames name hname).ne_dot
  show text ⟨Root.of p.text.toList, tidied p.text⟩ = p.text
  rw [hreadRoot, htidied]

/-- No working directory is put in front of a canonical text. -/
theorem IsCanonical.absolute_eq (h : IsCanonical s) (cwd : String) : absolute cwd s = s := by
  rw [absolute, join, if_pos h.startsWith, h.normalize_eq]

/-- A canonical text does not need a working directory either. -/
theorem IsCanonical.seenFrom_eq (h : IsCanonical s) (cwd : Option String) :
    seenFrom cwd s = .ok s := by
  cases cwd with
  | none => rw [seenFrom, if_pos h.startsWith, h.normalize_eq]
  | some directory => rw [seenFrom, h.absolute_eq]

/-- **What is made absolute is canonical**, if the working directory is
rooted. -/
theorem isCanonical_of_seenFrom {cwd : Option String} {path : String}
    (hcwd : ∀ directory, cwd = some directory → Text.startsWith directory "/" = true)
    (h : seenFrom cwd s = .ok path) : IsCanonical path := by
  cases cwd with
  | none =>
    rw [seenFrom] at h
    split at h
    · rename_i hrooted
      cases h
      exact isCanonical_normalize hrooted
    · cases h
  | some directory =>
    cases h
    exact isCanonical_normalize (startsWith_join (hcwd directory rfl) s)

/-- A home is found for every text without a null character, or none is looked
for. -/
theorem exists_expandHome (h : Char.ofNat 0 ∉ s.toList) (home : Option String)
    (users : List (String × String)) : ∃ expanded, expandHome home users s = .ok expanded := by
  unfold expandHome
  split
  · rename_i cs hcs
    have hnone : Char.ofNat 0 ∉ cs.takeWhile (· ≠ '/') := by
      intro hmem
      rw [hcs] at h
      exact h (List.mem_cons_of_mem _ ((List.takeWhile_sublist _).mem hmem))
    dsimp only
    rw [String.toList_ofList, if_neg (by simpa using hnone)]
    split
    · exact ⟨_, rfl⟩
    · exact ⟨_, rfl⟩
  · exact ⟨_, rfl⟩

/-- A rooted text has no tilde in front. -/
theorem expandHome_of_rooted (h : Text.startsWith s "/" = true) (home : Option String)
    (users : List (String × String)) : expandHome home users s = .ok s := by
  refine expandHome_of_plain ?_
  obtain ⟨rest, hrest⟩ := List.isPrefixOf_iff_prefix.1 h
  rw [Text.startsWith, ← hrest]
  rfl

end Path

namespace Location

open Disasm.Path

variable {raw s : String}

/-- A text that begins like a remote location, in whatever letter case. -/
def IsRemoteText (raw : String) : Prop :=
  ∃ scheme ∈ schemes, Text.startsWith (Text.lowerAscii raw) (scheme ++ "://") = true

instance (raw : String) : Decidable (IsRemoteText raw) :=
  inferInstanceAs (Decidable (∃ scheme ∈ schemes,
    Text.startsWith (Text.lowerAscii raw) (scheme ++ "://") = true))

theorem cutScheme?_eq_none_iff : cutScheme? raw = none ↔ ¬IsRemoteText raw := by
  unfold cutScheme? IsRemoteText Text.startsWith Text.lowerAscii
  rw [List.findSome?_eq_none_iff, String.toList_ofList, not_exists]
  refine forall_congr' fun scheme => ?_
  rw [not_and]
  refine imp_congr_right fun _ => ?_
  dsimp only
  split
  · rename_i hhead
    exact iff_of_false (by simp) (fun hnot => hnot hhead)
  · rename_i hhead
    exact iff_of_true rfl hhead

/-- No scheme begins with a slash. -/
theorem not_isRemoteText_of_rooted (h : Text.startsWith raw "/" = true) :
    ¬IsRemoteText raw := by
  obtain ⟨rest, hrest⟩ := List.isPrefixOf_iff_prefix.1 h
  rintro ⟨scheme, hscheme, hhead⟩
  rw [Text.startsWith, Text.lowerAscii, ← hrest, String.toList_ofList] at hhead
  simp only [schemes, List.mem_cons, List.not_mem_nil, or_false] at hscheme
  rcases hscheme with rfl | rfl
  · cases hhead
  · cases hhead

/-- **A canonical text is read as itself**, wherever it is read. -/
theorem read_canonical (h : IsCanonical s) (cwd home : Option String)
    (users : List (String × String)) : Location.read cwd home users s = .ok { path := s } := by
  rw [Location.read, cutScheme?_eq_none_iff.2 (not_isRemoteText_of_rooted h.startsWith)]
  dsimp only
  rw [expandHome_of_rooted h.startsWith]
  change (seenFrom cwd s >>= _) = _
  rw [h.seenFrom_eq]
  rfl

/-- **Reading a local path is canonical and idempotent.** A text that is no
remote location is read, if it has no null character and the working
directory is there, and whatever is read of it, from a rooted working
directory and with whatever homes, is a local location with a canonical
path. Its display is read as the same location from everywhere: not as a
remote one, and without a tilde being replaced once more. A text that is
canonical to begin with is not changed at all. -/
theorem local_reading_settles (cwd home : Option String) (users : List (String × String))
    (raw : String) (hcwd : ∀ directory, cwd = some directory → Text.startsWith directory "/" = true)
    (hraw : ¬IsRemoteText raw) :
    (cwd.isSome = true → Char.ofNat 0 ∉ raw.toList →
      ∃ l, Location.read cwd home users raw = .ok l) ∧
    ∀ l, Location.read cwd home users raw = .ok l → l.isRemote = false ∧ IsCanonical l.path ∧
      (∀ (cwd' home' : Option String) (users' : List (String × String)),
        Location.read cwd' home' users' l.display = .ok l) ∧
      (IsCanonical raw → l.path = raw) := by
  constructor
  · intro hthere hnull
    obtain ⟨directory, rfl⟩ := Option.isSome_iff_exists.1 hthere
    obtain ⟨expanded, hexpand⟩ := exists_expandHome hnull home users
    rw [Location.read, cutScheme?_eq_none_iff.2 hraw]
    dsimp only
    rw [hexpand]
    exact ⟨_, rfl⟩
  · intro l hread
    rw [Location.read, cutScheme?_eq_none_iff.2 hraw] at hread
    obtain ⟨expanded, hexpand, hread⟩ := ok_of_bind hread
    obtain ⟨path, hpath, hread⟩ := ok_of_bind hread
    have hcanonical := isCanonical_of_seenFrom hcwd hpath
    cases hread
    refine ⟨rfl, hcanonical, read_canonical hcanonical, fun h => ?_⟩
    rw [expandHome_of_rooted h.startsWith] at hexpand
    cases hexpand
    rw [h.seenFrom_eq] at hpath
    exact (Except.ok.inj hpath).symm

/-- A home that begins with a tilde itself, and a path that holds a remote
location. -/
theorem local_reading_settles_tilde :
    (∀ directory, some "/w" = some directory → Text.startsWith directory "/" = true) ∧
      ¬IsRemoteText "~//../ssh://h/./a" ∧
      ∃ l, Location.read "/w" "~u/" [("u", "/z")] "~//../ssh://h/./a" = .ok l ∧
        l.path = "/w/ssh:/h/a" ∧ Location.read "/elsewhere" "/z" [] l.display = .ok l := by
  have hraw : ¬IsRemoteText "~//../ssh://h/./a" := by decide
  have hcwd : ∀ directory, some "/w" = some directory → Text.startsWith directory "/" = true := by
    intro directory hsame
    cases hsame
    decide
  obtain ⟨hreturns, hsettles⟩ :=
    local_reading_settles "/w" "~u/" [("u", "/z")] "~//../ssh://h/./a" hcwd hraw
  obtain ⟨l, hread⟩ := hreturns rfl (by decide)
  obtain ⟨-, -, hagain, -⟩ := hsettles l hread
  have hpath : Location.read "/w" "~u/" [("u", "/z")] "~//../ssh://h/./a" =
      .ok { path := "/w/ssh:/h/a" } := Act.ok_of_toOption (by decide +kernel)
  refine ⟨hcwd, hraw, l, hread, ?_, hagain _ _ _⟩
  rw [hread, Except.ok.injEq] at hpath
  rw [hpath]

end Location

end Disasm
