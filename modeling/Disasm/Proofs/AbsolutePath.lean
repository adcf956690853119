import Disasm.Proofs.LocalFile
/-!
# Absolute paths — which names they have

The system goes by the names of a path, and the program hands it paths
that were made absolute by their text. For a rooted working directory
these are the names of the directory, with those of what was put below it
pushed one after the other: dots go, and double dots take the name before
them back (`Place.along`, `pathNames_localPath`). Reading such a path and
writing it again keeps its names.
-/

namespace Disasm

/-! ## Pieces between slashes -/

theorem Text.splitAt_join (a b : String) :
    splitAt '/' (a ++ "/" ++ b) = splitAt '/' a ++ splitAt '/' b := by
  have hlist : (a ++ "/" ++ b).toList = a.toList ++ '/' :: b.toList := by
    simp [String.toList_append]
  rw [splitAt, hlist, List.splitOn_append_cons_self, List.map_append]
  rfl

namespace Place

variable {here : Place} {name : String} {names : List String}

/-- The place that names stand for by their text, seen from another: double
dots take back the name before them. -/
def along (here : Place) (names : List String) : Place :=
  (names.foldl (Path.pushName true) here.reverse).reverse

theorem along_nil (here : Place) : along here [] = here :=
  List.reverse_reverse here

theorem along_dot (here : Place) (names : List String) :
    along here ("." :: names) = along here names := rfl

theorem along_dots (h : ".." ∉ here) (names : List String) :
    along here (".." :: names) = along here.dropLast names := by
  rcases List.eq_nil_or_concat here with rfl | ⟨parent, last, rfl⟩
  · rfl
  · have hlast : last ≠ ".." := by
      rintro rfl
      exact h (by simp)
    rw [List.concat_eq_append, List.dropLast_concat, along, along, List.foldl_cons,
      List.reverse_append, List.reverse_singleton, List.singleton_append, Path.pushName,
      if_neg (by decide), if_neg (by decide), if_neg hlast]

theorem along_plain (h : IsPlain name) (here : Place) (names : List String) :
    along here (name :: names) = along (here ++ [name]) names := by
  rw [along, along, List.foldl_cons, List.reverse_append, Path.pushName.eq_def,
    if_neg (by simp [h.isName.1, h.ne_dot]), if_pos h.ne_dots]
  rfl

/-- Names without double dots come behind the place, without the single
ones. -/
theorem along_of_plain (hdots : ".." ∉ names) (hnames : ∀ name ∈ names, IsName name) :
    along here names = here ++ names.filter (· ≠ ".") := by
  induction names generalizing here with
  | nil => rw [along_nil, List.filter_nil, List.append_nil]
  | cons name names ih =>
    rw [List.mem_cons, not_or] at hdots
    rw [List.forall_mem_cons] at hnames
    by_cases hdot : name = "."
    · rw [hdot, along_dot, ih hdots.2 hnames.2, List.filter_cons_of_neg (by decide)]
    · rw [along_plain ⟨hnames.1, hdot, Ne.symm hdots.1⟩, ih hdots.2 hnames.2,
        List.filter_cons_of_pos (by simpa using hdot), List.append_assoc, List.singleton_append]

end Place

namespace Path

variable {s cwd raw : String}

theorem namesOf_eq (s : String) : namesOf s = (pathNames s).filter (· ≠ ".") := by
  rw [namesOf, pathNames, List.filter_filter]
  congr 1
  funext name
  exact Bool.and_comm _ _

/-- The names of a rooted path are those of its text. -/
theorem pathNames_text {p : Path} (hroot : p.root ≠ .relative)
    (h : ∀ name ∈ p.parts, IsName name) : pathNames p.text = p.parts := by
  obtain ⟨root, parts⟩ := p
  cases root with
  | relative => exact absurd rfl hroot
  | single =>
    rw [Place.text_single]
    exact Place.pathNames_text h
  | double =>
    have hslash : Path.text ⟨.double, parts⟩ = "" ++ "/" ++ Place.text parts := by
      have hlist : ("//" ++ String.intercalate "/" parts).toList =
          ("" ++ "/" ++ Place.text parts).toList := by
        simp [Place.text]
      have hfull : ¬("//" ++ String.intercalate "/" parts).isEmpty = true := by
        simp [← String.toList_eq_nil_iff]
      rw [Path.text]
      change (if ("//" ++ String.intercalate "/" parts).isEmpty = true then "."
        else "//" ++ String.intercalate "/" parts) = _
      rw [if_neg hfull]
      exact String.toList_inj.1 hlist
    rw [hslash, pathNames, Text.splitAt_join, List.filter_append]
    exact Place.pathNames_text h

/-- A rooted text that is read and written again loses empty names and single
dots. -/
theorem pathNames_ofString (h : Text.startsWith s "/" = true) :
    pathNames (ofString s).text = namesOf s := by
  refine pathNames_text (p := ofString s) (root_of_startsWith h) fun name hname => ?_
  have hmem : name ∈ namesOf s := hname
  rw [namesOf_eq] at hmem
  exact isName_of_mem_pathNames (List.mem_filter.1 hmem).1

/-! ## Normal paths -/

/-- The names that a text has once it is normalised. -/
def tidied (s : String) : List String :=
  ((Text.splitAt '/' s).foldl (pushName (Root.of s.toList ≠ .relative)) []).reverse

theorem isName_of_mem_foldl {rooted : Bool} {names before : List String}
    (hnames : ∀ name ∈ names, '/' ∉ name.toList)
    (hbefore : ∀ name ∈ before, IsName name ∧ name ≠ ".") :
    ∀ name ∈ names.foldl (pushName rooted) before, IsName name ∧ name ≠ "." := by
  have hdots : IsName ".." ∧ ".." ≠ "." := ⟨⟨by decide, by decide⟩, by decide⟩
  induction names generalizing before with
  | nil => exact hbefore
  | cons name names ih =>
    rw [List.forall_mem_cons] at hnames
    refine ih hnames.2 ?_
    unfold pushName
    split
    · exact hbefore
    split
    · rename_i hkept _
      rw [Bool.or_eq_true, not_or, decide_eq_true_eq, String.isEmpty_iff] at hkept
      exact List.forall_mem_cons.2 ⟨⟨⟨hkept.1, hnames.1⟩, hkept.2⟩, hbefore⟩
    · split
      · split
        · exact fun _ h => by cases h
        · exact List.forall_mem_singleton.2 hdots
      · rw [List.forall_mem_cons] at hbefore
        split
        · exact List.forall_mem_cons.2 ⟨hdots, List.forall_mem_cons.2 hbefore⟩
        · exact hbefore.2

theorem isName_of_mem_tidied : ∀ name ∈ tidied s, IsName name ∧ name ≠ "." := by
  intro name hname
  refine isName_of_mem_foldl (fun piece hpiece => ?_) (fun _ h => by cases h) name
    (List.mem_reverse.1 hname)
  obtain ⟨cs, hcs, rfl⟩ := List.mem_map.1 hpiece
  rw [String.toList_ofList]
  exact not_mem_of_mem_splitOn hcs

/-- A rooted text that was normalised has the tidied names. -/
theorem pathNames_normalize (h : Text.startsWith s "/" = true) :
    pathNames (normalize s) = tidied s :=
  pathNames_text (p := ⟨Root.of s.toList, tidied s⟩) (root_of_startsWith h)
    fun name hname => (isName_of_mem_tidied name hname).1

/-- And so it has when it is read and written again. -/
theorem pathNames_ofString_normalize (h : Text.startsWith s "/" = true) :
    pathNames (ofString (normalize s)).text = tidied s := by
  have hrooted : Text.startsWith (normalize s) "/" = true := startsWith_text (root_of_startsWith h)
  rw [pathNames_ofString hrooted, namesOf_eq, pathNames_normalize h, List.filter_eq_self]
  exact fun name hname => decide_eq_true (isName_of_mem_tidied name hname).2

/-- Empty pieces are not pushed. -/
theorem foldl_pathNames (rooted : Bool) (before : List String) :
    (pathNames s).foldl (pushName rooted) before =
      (Text.splitAt '/' s).foldl (pushName rooted) before := by
  have hpush : (fun before name => if (!name.isEmpty) = true then pushName rooted before name
      else before) = pushName rooted := by
    funext before name
    split
    · rfl
    · rename_i hempty
      rw [pushName.eq_def, if_pos (by simpa using Or.inl hempty)]
  rw [pathNames, List.foldl_filter, hpush]

theorem tidied_of_rooted (h : Text.startsWith s "/" = true) :
    tidied s = Place.along [] (pathNames s) := by
  rw [tidied, decide_eq_true (root_of_startsWith h), Place.along, foldl_pathNames]
  rfl

/-- The pieces of a text that is put below a directory are pushed behind
those of the directory. -/
theorem foldl_join (hcwd : Text.startsWith cwd "/" = true)
    (hraw : Text.startsWith raw "/" = false) (rooted : Bool) :
    (Text.splitAt '/' (join cwd raw)).foldl (pushName rooted) [] =
      (Text.splitAt '/' raw).foldl (pushName rooted)
        ((Text.splitAt '/' cwd).foldl (pushName rooted) []) := by
  have hfull : ¬cwd.isEmpty = true := by
    intro hempty
    rw [String.isEmpty_iff] at hempty
    rw [hempty] at hcwd
    cases hcwd
  rw [join, if_neg (ne_true_of_eq_false hraw)]
  by_cases hends : Text.endsWith cwd "/" = true
  · -- The slash at the end of the directory leaves an empty piece, which is not pushed.
    obtain ⟨front, hfront⟩ := List.isSuffixOf_iff_suffix.1 hends
    have hcut : cwd = String.ofList front ++ "/" ++ "" := by
      rw [← String.toList_inj, ← hfront]
      simp
    have hpieces : Text.splitAt '/' cwd = Text.splitAt '/' (String.ofList front) ++ [""] := by
      rw [hcut, Text.splitAt_join]
      rfl
    have hjoined : cwd ++ raw = String.ofList front ++ "/" ++ raw := by
      rw [hcut, String.append_empty]
    rw [if_pos (by simp [hends]), hjoined, Text.splitAt_join, List.foldl_append, hpieces,
      List.foldl_append]
    rfl
  · rw [if_neg (by simp [hfull, hends]), Text.splitAt_join, List.foldl_append]

/-- **Names that are put below a rooted directory are seen from there.** -/
theorem tidied_join (hcwd : Text.startsWith cwd "/" = true)
    (hraw : Text.startsWith raw "/" = false) :
    tidied (join cwd raw) = Place.along (tidied cwd) (pathNames raw) := by
  rw [tidied_of_rooted (startsWith_join hcwd raw), tidied_of_rooted hcwd, Place.along,
    foldl_pathNames, Place.along, foldl_pathNames, Place.along, foldl_pathNames,
    List.reverse_reverse]
  exact congrArg List.reverse (foldl_join hcwd hraw true)

theorem expandHome_of_plain {home : Option String} {users : List (String × String)}
    (h : Text.startsWith raw "~" = false) : expandHome home users raw = .ok raw := by
  unfold expandHome
  split
  · rename_i cs hcs
    rw [Text.startsWith, hcs] at h
    cases h
  · rfl

end Path

/-! ## What a user names -/

namespace Machine

variable {m : Machine} {raw : String}

/-- The path that a text stands for keeps its names when it is read and
written again. -/
theorem pathNames_ofString_localPath (hcwd : Text.startsWith m.cwd "/" = true) (raw : String) :
    pathNames (Path.ofString (m.localPath raw)).text = pathNames (m.localPath raw) := by
  have hrooted := Path.startsWith_join hcwd
    ((Path.expandHome m.home m.users raw).toOption.getD raw)
  rw [localPath, Path.absolute, Path.pathNames_ofString_normalize hrooted,
    Path.pathNames_normalize hrooted]

/-- **A text without a tilde stands for its own names**, seen from the working
directory. -/
theorem pathNames_localPath (hcwd : Text.startsWith m.cwd "/" = true)
    (htilde : Text.startsWith raw "~" = false) :
    pathNames (m.localPath raw) = Place.along (FileTree.startOf m.here raw) (pathNames raw) := by
  have hrooted := Path.startsWith_join hcwd raw
  rw [localPath, Path.expandHome_of_plain htilde, Path.absolute]
  dsimp only [Except.toOption, Option.getD_some]
  rw [Path.pathNames_normalize hrooted, FileTree.startOf]
  by_cases hraw : Text.startsWith raw "/" = true
  · rw [if_pos hraw, Path.join, if_pos hraw, Path.tidied_of_rooted hraw]
  · rw [if_neg hraw, Path.tidied_join hcwd (Bool.eq_false_iff.2 hraw), here,
      Path.pathNames_normalize hcwd]

end Machine

end Disasm
