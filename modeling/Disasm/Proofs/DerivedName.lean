import Disasm.Location.Basic
import Disasm.Proofs.AbsolutePath
import Mathlib.Data.List.TakeWhile
/-!
# Derived names — place and stem are kept

A listing goes by the location of its file with another suffix. That
location is made from a text: the path is read into its names, the last
name gets its suffix replaced, and the result is written down again, to be
read whenever somebody asks for its name or its directory. `ofString_text`
says that nothing is lost between writing and reading, whatever slashes,
dots and roots the text had; `IsStem` says which part of a name is kept.
The main statement is `derived_name`.
-/

namespace Disasm

/-! ## A path and its text -/

/-- Names put together with slashes are cut apart again. -/
theorem Text.splitAt_intercalate {names : List String} (h : ∀ name ∈ names, IsName name)
    (hne : names ≠ []) : splitAt '/' (String.intercalate "/" names) = names := by
  have hpieces : (['/'].intercalate (names.map String.toList)).splitOn '/' =
      names.map String.toList := by
    refine List.splitOn_intercalate '/' (fun cs hcs => ?_) (by simpa using hne)
    obtain ⟨name, hname, rfl⟩ := List.mem_map.1 hcs
    exact (h name hname).2
  have hchars : (String.intercalate "/" names).toList =
      ['/'].intercalate (names.map String.toList) := by
    rw [String.toList_intercalate]
    rfl
  rw [splitAt, hchars, hpieces]
  simp

namespace Path

variable {p : Path} {s name suffix : String}

/-- A path such as reading makes them: no name is empty or a single dot, and
none holds a slash. -/
def IsRead (p : Path) : Prop :=
  ∀ name ∈ p.parts, IsName name ∧ name ≠ "."

theorem isRead_ofString (s : String) : (ofString s).IsRead := by
  intro name hname
  have hmem : name ∈ namesOf s := hname
  rw [namesOf_eq, List.mem_filter] at hmem
  exact ⟨isName_of_mem_pathNames hmem.1, of_decide_eq_true hmem.2⟩

theorem namesOf_join (a b : String) : namesOf (a ++ "/" ++ b) = namesOf a ++ namesOf b := by
  unfold namesOf
  rw [Text.splitAt_join, List.filter_append]

theorem namesOf_intercalate {names : List String} (h : ∀ name ∈ names, IsName name ∧ name ≠ ".") :
    namesOf (String.intercalate "/" names) = names := by
  by_cases hne : names = []
  · subst hne
    decide
  · unfold namesOf
    rw [Text.splitAt_intercalate (fun name hname => (h name hname).1) hne, List.filter_eq_self]
    intro name hname
    simpa using ⟨(h name hname).1.1, (h name hname).2⟩

/-- Slashes in front are no names. -/
theorem namesOf_root (root : Root) (s : String) : namesOf (root.text ++ s) = namesOf s := by
  cases root with
  | relative => exact congrArg namesOf (String.empty_append ..)
  | single => exact namesOf_join "" s
  | double => exact namesOf_join "/" s

/-- The slashes of a root announce it, if what follows does not begin with
another. -/
theorem of_rootText (root : Root) {cs : List Char} (h : cs.head? ≠ some '/') :
    Root.of (root.text.toList ++ cs) = root := by
  rcases cs with _ | ⟨c, cs⟩
  · cases root <;> rfl
  · have hc : ∀ rest, c :: cs ≠ '/' :: rest := by
      intro rest hrest
      exact h (congrArg List.head? hrest)
    cases root with
    | relative =>
      show Root.of (c :: cs) = .relative
      rw [Root.of]
      · exact fun rest => hc ('/' :: '/' :: rest)
      · exact fun rest => hc ('/' :: rest)
      · exact hc
    | single =>
      show Root.of ('/' :: c :: cs) = .single
      rw [Root.of]
      · intro rest hrest
        exact hc ('/' :: rest) hrest
      · exact hc
    | double =>
      show Root.of ('/' :: '/' :: c :: cs) = .double
      rw [Root.of]
      exact hc

/-- Names put together begin as the first of them. -/
theorem head?_intercalate {names : List String} (h : ∀ name ∈ names, IsName name) :
    (String.intercalate "/" names).toList.head? ≠ some '/' := by
  rcases names with _ | ⟨first, rest⟩
  · decide
  · obtain ⟨hempty, hslash⟩ := h first List.mem_cons_self
    obtain ⟨c, cs, hcs⟩ : ∃ c cs, first.toList = c :: cs :=
      List.exists_cons_of_ne_nil (by simpa using hempty)
    rw [String.toList_intercalate, List.map_cons, hcs, List.intercalate_cons_cons_left,
      List.head?_cons]
    rintro hc
    rw [Option.some_inj] at hc
    exact hslash (by simp [hcs, hc])

/-- **A path is read off its own text.** -/
theorem ofString_text (h : p.IsRead) : ofString p.text = p := by
  obtain ⟨root, parts⟩ := p
  unfold text
  dsimp only
  split
  · -- Only the empty relative path has no text of its own.
    rename_i hempty
    rw [String.isEmpty_iff, ← String.toList_eq_nil_iff, String.toList_append,
      List.append_eq_nil_iff] at hempty
    have hroot : root = .relative := by
      cases root with
      | relative => rfl
      | single => exact absurd hempty.1 (by decide)
      | double => exact absurd hempty.1 (by decide)
    have hparts : parts = [] := by
      have hnames : namesOf (String.intercalate "/" parts) = parts := namesOf_intercalate h
      rw [← hnames, String.toList_eq_nil_iff.1 hempty.2]
      decide
    rw [hroot, hparts]
    decide
  · unfold ofString
    rw [namesOf_root, namesOf_intercalate h, String.toList_append,
      of_rootText root (head?_intercalate fun name hname => (h name hname).1)]

/-- The text of a path ends with its last name. -/
theorem text_concat (root : Root) (parts : List String) (hname : name ≠ "") :
    ∃ front, (text ⟨root, parts ++ [name]⟩).toList = front ++ name.toList := by
  obtain ⟨front, hfront⟩ : ∃ front,
      (root.text ++ String.intercalate "/" (parts ++ [name])).toList = front ++ name.toList := by
    by_cases hparts : parts = []
    · exact ⟨root.text.toList, by simp [hparts]⟩
    · refine ⟨(root.text ++ String.intercalate "/" parts ++ "/").toList, ?_⟩
      rw [String.intercalate_append_of_ne_nil hparts (by simp), String.intercalate_singleton]
      simp
  refine ⟨front, ?_⟩
  unfold text
  dsimp only
  rw [if_neg, hfront]
  rw [String.isEmpty_iff, ← String.toList_eq_nil_iff, hfront, List.append_eq_nil_iff,
    String.toList_eq_nil_iff]
  exact fun hnil => hname hnil.2

/-! ## Stems and suffixes -/

/-- What is kept of a name whose suffix is replaced. -/
inductive IsStem (name : String) : String → Prop
  /-- The last dot is neither the first nor the last character: what stands in
  front of it. -/
  | cut {stem tail : String} : name = stem ++ "." ++ tail → stem ≠ "" → tail ≠ "" →
      '.' ∉ tail.toList → IsStem name stem
  /-- There is no such dot: the whole name. -/
  | whole : (∀ front tail : String, name = front ++ "." ++ tail → '.' ∉ tail.toList →
      front = "" ∨ tail = "") → IsStem name name

/-- A name is cut at its last dot, unless that stands at an end. -/
theorem cutSuffix_append (front : List Char) {tail : List Char} (h : '.' ∉ tail) :
    cutSuffix (front ++ '.' :: tail) =
      if front ≠ [] ∧ tail ≠ [] then (front, '.' :: tail) else (front ++ '.' :: tail, []) := by
  have htail : (front ++ '.' :: tail).reverse.takeWhile (· ≠ '.') = tail.reverse := by
    rw [List.reverse_append, List.reverse_cons, List.append_assoc,
      List.takeWhile_append_of_pos (by simpa using fun c hc => ne_of_mem_of_not_mem hc h)]
    simp
  have hstem : ((front ++ '.' :: tail).reverse.drop (tail.length + 1)).reverse = front := by
    rw [List.reverse_append, List.drop_append_of_le_length (by simp)]
    simp
  unfold cutSuffix
  dsimp only
  rw [htail, List.length_reverse, hstem, List.reverse_reverse]
  by_cases hends : front ≠ [] ∧ tail ≠ []
  · rw [if_pos hends, if_pos]
    simp [hends]
    omega
  · rw [if_neg hends, if_neg]
    simp only [not_and, Decidable.not_not] at hends
    simp
    tauto

theorem cutSuffix_undotted {cs : List Char} (h : '.' ∉ cs) : cutSuffix cs = (cs, []) := by
  have htail : cs.reverse.takeWhile (· ≠ '.') = cs.reverse := by
    rw [List.takeWhile_eq_self_iff]
    simpa using fun c hc => ne_of_mem_of_not_mem hc h
  unfold cutSuffix
  dsimp only
  rw [htail, if_neg]
  simp

/-- A text with a dot has a last one. -/
theorem exists_lastDot {cs : List Char} (h : '.' ∈ cs) :
    ∃ front tail, cs = front ++ '.' :: tail ∧ '.' ∉ tail := by
  obtain ⟨tail, front, hcs, hlast⟩ := List.eq_append_cons_of_mem (List.mem_reverse.2 h)
  refine ⟨front.reverse, tail.reverse, ?_, by simpa using hlast⟩
  rw [← List.reverse_reverse cs, hcs]
  simp

/-- **A name is cut behind its stem.** -/
theorem isStem_cutSuffix (name : String) :
    IsStem name (String.ofList (cutSuffix name.toList).1) := by
  by_cases hcut : ∃ front tail, name.toList = front ++ '.' :: tail ∧ '.' ∉ tail ∧
      front ≠ [] ∧ tail ≠ []
  · obtain ⟨front, tail, hname, hlast, hends⟩ := hcut
    have hparts : name = String.ofList front ++ "." ++ String.ofList tail := by
      rw [← String.toList_inj, hname]
      simp
    rw [hname, cutSuffix_append front hlast, if_pos hends]
    refine .cut hparts ?_ ?_ ?_
    · simpa using hends.1
    · simpa using hends.2
    · simpa using hlast
  · have hwhole : cutSuffix name.toList = (name.toList, []) := by
      by_cases hdot : '.' ∈ name.toList
      · obtain ⟨front, tail, hname, hlast⟩ := exists_lastDot hdot
        rw [hname, cutSuffix_append front hlast,
          if_neg fun hends => hcut ⟨front, tail, hname, hlast, hends⟩]
      · exact cutSuffix_undotted hdot
    rw [hwhole, String.ofList_toList]
    refine .whole fun front tail hname hlast => ?_
    by_contra hends
    rw [not_or] at hends
    refine hcut ⟨front.toList, tail.toList, by simp [hname], hlast, ?_, ?_⟩
    · simpa using hends.1
    · simpa using hends.2

theorem IsStem.ne_empty {stem : String} (h : IsStem name stem) (hname : name ≠ "") :
    stem ≠ "" := by
  cases h with
  | cut _ hstem _ _ => exact hstem
  | whole _ => exact hname

theorem IsStem.mem {stem : String} (h : IsStem name stem) {c : Char} (hc : c ∈ stem.toList) :
    c ∈ name.toList := by
  cases h with
  | cut hname _ _ _ => simp [hname, hc]
  | whole _ => exact hc

/-- A text that listings can be marked with: a dot with something behind it,
and no slash. -/
structure IsMarker (marker : String) : Prop where
  dot : marker.toList.head? = some '.'
  long : 1 < marker.length
  slash : '/' ∉ marker.toList

/-- Of the suffixes only the empty one is no marker. -/
theorem isSuffix_iff (hne : suffix ≠ "") : isSuffix suffix.toList = true ↔ IsMarker suffix := by
  have hlong : suffix.toList.head? = some '.' → (suffix.toList ≠ ['.'] ↔ 1 < suffix.length) := by
    intro hdot
    obtain ⟨tail, htail⟩ := List.head?_eq_some_iff.1 hdot
    rw [← String.length_toList, htail, List.length_cons]
    rcases tail with _ | ⟨c, tail⟩
    · simp
    · simp
  unfold isSuffix
  simp only [Bool.and_eq_true, Bool.or_eq_true, Bool.not_eq_true', decide_eq_true_eq,
    List.contains_eq_mem, decide_eq_false_iff_not, List.isEmpty_iff, String.toList_eq_nil_iff, hne,
    false_or]
  constructor
  · rintro ⟨hslash, hdot, hmore⟩
    exact ⟨hdot, (hlong hdot).1 hmore, hslash⟩
  · rintro ⟨hdot, hmore, hslash⟩
    exact ⟨hslash, hdot, (hlong hdot).2 hmore⟩

variable {marker stem : String}

/-- The name of a path is the last of its names. -/
theorem mem_of_name (h : p.name ≠ "") : p.name ∈ p.parts := by
  unfold Path.name at h ⊢
  rcases hlast : p.parts.getLast? with _ | last
  · exact absurd (by rw [hlast]; rfl) h
  · exact List.mem_of_getLast? hlast

@[simp] theorem parent_withSuffix (p : Path) (suffix : String) :
    (p.withSuffix suffix).parent = p.parent := by
  simp [withSuffix, parent]

/-- The name of a path whose suffix was replaced. -/
theorem name_withSuffix (p : Path) (suffix : String) :
    (p.withSuffix suffix).name = String.ofList (cutSuffix p.name.toList).1 ++ suffix := by
  simp [withSuffix, Path.name]

/-- A stem with a marker behind it is a name, and no dot. -/
theorem isName_marked (hname : IsName name) (hstem : IsStem name stem) (hmarker : IsMarker marker) :
    IsName (stem ++ marker) ∧ stem ++ marker ≠ "." := by
  have hlong : 1 < (stem ++ marker).length := by
    rw [String.length_append]
    have := hmarker.long
    omega
  refine ⟨⟨?_, ?_⟩, ?_⟩
  · intro hempty
    rw [hempty] at hlong
    exact absurd hlong (by decide)
  · rw [String.toList_append, List.mem_append]
    rintro (hslash | hslash)
    · exact hname.2 (hstem.mem hslash)
    · exact hmarker.slash hslash
  · intro hdot
    rw [hdot] at hlong
    exact absurd hlong (by decide)

theorem IsRead.withSuffix (h : p.IsRead) (hname : p.name ≠ "") (hmarker : IsMarker marker) :
    (p.withSuffix marker).IsRead := by
  intro other hother
  rcases List.mem_append.1 hother with hfront | hlast
  · exact h other (List.dropLast_subset _ hfront)
  · rw [List.mem_singleton, String.ofList_append, String.ofList_toList] at hlast
    rw [hlast]
    exact isName_marked (h _ (mem_of_name hname)).1 (isStem_cutSuffix _) hmarker

/-- **A marker without a second dot is the suffix that the next one
replaces.** -/
theorem withSuffix_withSuffix (hname : p.name ≠ "") (hmarker : IsMarker marker)
    (hdots : '.' ∉ marker.toList.tail) :
    (p.withSuffix marker).withSuffix marker = p.withSuffix marker := by
  have hstem : (cutSuffix p.name.toList).1 ≠ [] := by
    simpa using (isStem_cutSuffix p.name).ne_empty hname
  obtain ⟨tail, htail⟩ := List.head?_eq_some_iff.1 hmarker.dot
  have hlong : tail ≠ [] := by
    rintro rfl
    have := hmarker.long
    rw [← String.length_toList, htail] at this
    exact absurd this (by decide)
  rw [htail, List.tail_cons] at hdots
  have hcut : cutSuffix (p.withSuffix marker).name.toList =
      ((cutSuffix p.name.toList).1, '.' :: tail) := by
    rw [name_withSuffix, String.toList_append, String.toList_ofList, htail,
      cutSuffix_append _ hdots, if_pos ⟨hstem, hlong⟩]
  have hfront : (p.withSuffix marker).parts.dropLast = p.parts.dropLast := List.dropLast_concat
  show Path.mk p.root ((p.withSuffix marker).parts.dropLast ++
    [String.ofList ((cutSuffix (p.withSuffix marker).name.toList).1 ++ marker.toList)]) = _
  rw [hfront, hcut]
  rfl

end Path

/-! ## Locations -/

namespace Location

open Disasm.Path

variable {l : Location} {marker : String}

/-- A location with its suffix replaced, if it has a name. -/
def marked (l : Location) (marker : String) : Location :=
  l.withPath ((Path.ofString l.path).withSuffix marker).text

theorem withSuffix_eq (hname : l.name ≠ "") (hmarker : IsMarker marker) :
    l.withSuffix marker = .ok (l.marked marker) := by
  have hfull : ¬(Path.ofString l.path).name.isEmpty = true := by
    rw [String.isEmpty_iff]
    exact hname
  have hne : marker ≠ "" := by
    rintro rfl
    exact absurd hmarker.dot (by decide)
  unfold Location.withSuffix
  dsimp only
  rw [if_neg hfull, if_pos ((isSuffix_iff hne).2 hmarker)]
  rfl

/-- What is written for a marked location is read as the path that was
meant. -/
theorem ofString_marked (hname : l.name ≠ "") (hmarker : IsMarker marker) :
    Path.ofString (l.marked marker).path = (Path.ofString l.path).withSuffix marker :=
  ofString_text ((isRead_ofString l.path).withSuffix hname hmarker)

/-- The display of a location ends with its path. -/
theorem display_ends (l : Location) : ∃ front, l.display.toList = front ++ l.path.toList := by
  unfold display
  split
  · exact ⟨[], rfl⟩
  · dsimp only
    exact ⟨_, String.toList_append⟩

theorem name_marked (hname : l.name ≠ "") (hmarker : IsMarker marker) :
    (l.marked marker).name = String.ofList (cutSuffix l.name.toList).1 ++ marker := by
  unfold Location.name
  rw [ofString_marked hname hmarker, name_withSuffix]

theorem isName_marked (hname : l.name ≠ "") (hmarker : IsMarker marker) :
    IsName (l.marked marker).name := by
  have hold := (isRead_ofString l.path l.name (mem_of_name hname)).1
  rw [name_marked hname hmarker]
  exact (Path.isName_marked hold (isStem_cutSuffix l.name) hmarker).1

theorem endsWith_marked (hname : l.name ≠ "") (hmarker : IsMarker marker) :
    Text.endsWith (l.marked marker).display marker = true := by
  obtain ⟨front, hdisplay⟩ := display_ends (l.marked marker)
  obtain ⟨before, hpath⟩ := text_concat (Path.ofString l.path).root
    (Path.ofString l.path).parts.dropLast (isName_marked hname hmarker).1
  rw [name_marked hname hmarker] at hpath
  have htext : (l.marked marker).path.toList =
      before ++ (String.ofList (cutSuffix l.name.toList).1 ++ marker).toList := by
    rw [← hpath]
    simp [marked, withPath, Path.withSuffix, Location.name]
  unfold Text.endsWith
  rw [List.isSuffixOf_iff_suffix, hdisplay, htext, String.toList_append, ← List.append_assoc,
    ← List.append_assoc]
  exact List.suffix_append _ _

theorem marked_marked (hname : l.name ≠ "") (hmarker : IsMarker marker)
    (hdots : '.' ∉ marker.toList.tail) : (l.marked marker).marked marker = l.marked marker := by
  show (l.marked marker).withPath
    ((Path.ofString (l.marked marker).path).withSuffix marker).text = _
  rw [ofString_marked hname hmarker, withSuffix_withSuffix hname hmarker hdots]
  rfl

/-- **The derived name keeps place and stem.** A location that has a name
gets another one from any marker: on the same host, for the same user and
port and by the same scheme, in the same directory, and made of the stem of
the old name and the marker. The listing is shown as that location, which
ends with the marker; and a marker that has no second dot is found again
and not added twice. -/
theorem derived_name (l : Location) (marker : String) (hname : l.name ≠ "")
    (hmarker : IsMarker marker) :
    ∃ d, l.withSuffix marker = .ok d ∧
      d.host = l.host ∧ d.user = l.user ∧ d.port = l.port ∧ d.scheme = l.scheme ∧
      d.directory = l.directory ∧
      (∃ stem, IsStem l.name stem ∧ d.name = stem ++ marker) ∧
      l.viewName marker = .ok d.display ∧ Text.endsWith d.display marker = true ∧
      ('.' ∉ marker.toList.tail → d.withSuffix marker = .ok d) := by
  have hwith := withSuffix_eq hname hmarker
  have hstem := isStem_cutSuffix l.name
  refine ⟨l.marked marker, hwith, rfl, rfl, rfl, rfl, ?_, ⟨_, hstem, name_marked hname hmarker⟩, ?_,
    endsWith_marked hname hmarker, ?_⟩
  · unfold Location.directory
    rw [ofString_marked hname hmarker, parent_withSuffix]
  · unfold viewName
    rw [hwith]
    rfl
  · intro hdots
    rw [withSuffix_eq (isName_marked hname hmarker).1 hmarker, marked_marked hname hmarker hdots]

/-- Double dots are a name like any other, and have no suffix. -/
theorem derived_name_dots :
    ({ path := "a//./.." } : Location).name ≠ "" ∧ IsMarker ".d" ∧
      ∃ d, ({ path := "a//./.." } : Location).withSuffix ".d" = .ok d ∧ d.path = "a/...d" ∧
        d.directory = ({ path := "a//./.." } : Location).directory ∧
        d.withSuffix ".d" = .ok d := by
  have hname : ({ path := "a//./.." } : Location).name ≠ "" := by decide +kernel
  have hmarker : IsMarker ".d" := ⟨by decide, by decide, by decide⟩
  obtain ⟨d, hwith, -, -, -, -, hdirectory, -, -, -, hagain⟩ :=
    derived_name { path := "a//./.." } ".d" hname hmarker
  have hd : ({ path := "a//./.." } : Location).withSuffix ".d" = .ok { path := "a/...d" } :=
    Act.ok_of_toOption (by decide +kernel)
  rw [hd, Except.ok.injEq] at hwith
  refine ⟨hname, hmarker, d, by rw [hd, hwith], by rw [← hwith], hdirectory, hagain (by decide)⟩

end Location

end Disasm
