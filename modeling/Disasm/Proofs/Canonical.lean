import Disasm.Machine.Canonical
import Disasm.Path.Absolute
import Mathlib.Tactic.Common
/-!
# Canonical places and the system's walk

A path is looked up in two ways: the system walks along it, and
`canonical` resolves it name by name. Where both come to an end, they end
at the same place (`canonical_of_file`). So a file that was opened along
any path, links and all, is found again along its canonical one
(`nodeAt_canonical`): the system's walk to the text of a canonical place
meets directories only, and no link.
-/

namespace Disasm

/-! ## Names and the texts of places -/

/-- A text that can name an entry of a directory or a step along a path. -/
def IsName (name : String) : Prop :=
  name ≠ "" ∧ '/' ∉ name.toList

/-- A name that leads down from a directory. -/
structure IsPlain (name : String) : Prop where
  isName : IsName name
  ne_dot : name ≠ "."
  ne_dots : name ≠ ".."

/-- A piece between separators holds none. -/
theorem not_mem_of_mem_splitOn {sep : Char} {cs piece : List Char}
    (h : piece ∈ cs.splitOn sep) : sep ∉ piece := by
  induction cs generalizing piece with
  | nil =>
    rw [List.splitOn_nil, List.mem_singleton] at h
    rw [h]
    exact List.not_mem_nil
  | cons c cs ih =>
    rw [List.splitOn_cons_eq_if_modifyHead] at h
    split at h
    · rcases List.mem_cons.1 h with rfl | h
      · exact List.not_mem_nil
      · exact ih h
    · rename_i hc
      rcases hsplit : cs.splitOn sep with _ | ⟨first, others⟩
      · exact absurd hsplit (List.splitOn_ne_nil _ _)
      · rw [hsplit, List.modifyHead_cons, List.mem_cons] at h
        rw [hsplit] at ih
        rcases h with rfl | h
        · have hfirst := ih List.mem_cons_self
          intro hmem
          rcases List.mem_cons.1 hmem with rfl | hmem
          · simp at hc
          · exact hfirst hmem
        · exact ih (List.mem_cons_of_mem _ h)

theorem isName_of_mem_pathNames {name path : String} (h : name ∈ pathNames path) :
    IsName name := by
  rw [pathNames, List.mem_filter, Text.splitAt, List.mem_map] at h
  obtain ⟨⟨piece, hpiece, rfl⟩, hempty⟩ := h
  refine ⟨fun heq => ?_, ?_⟩
  · rw [heq] at hempty
    cases hempty
  · rw [String.toList_ofList]
    exact not_mem_of_mem_splitOn hpiece

namespace Place

variable {p : Place}

theorem toList_text (p : Place) :
    p.text.toList = '/' :: ['/'].intercalate (p.map String.toList) := by
  rw [text, String.toList_append, String.toList_intercalate]
  rfl

/-- The text of a place is rooted. -/
theorem startsWith_text (p : Place) : Text.startsWith p.text "/" = true := by
  rw [Text.startsWith, toList_text]
  rfl

/-- The pieces of the text of a place are an empty one and its names. -/
theorem splitAt_text (h : ∀ name ∈ p, IsName name) (hne : p ≠ []) :
    Text.splitAt '/' p.text = "" :: p := by
  have hpieces : (['/'].intercalate (p.map String.toList)).splitOn '/' = p.map String.toList := by
    refine List.splitOn_intercalate '/' (fun cs hcs => ?_) (by simpa using hne)
    obtain ⟨name, hname, rfl⟩ := List.mem_map.1 hcs
    exact (h name hname).2
  have hroot := List.splitOn_append_cons_self (a := '/') []
    (['/'].intercalate (p.map String.toList))
  rw [List.nil_append] at hroot
  rw [Text.splitAt, toList_text, hroot, hpieces]
  simp

/-- **A place is read off its text.** -/
theorem pathNames_text (h : ∀ name ∈ p, IsName name) : pathNames p.text = p := by
  by_cases hne : p = []
  · rw [hne]
    rfl
  · rw [pathNames, splitAt_text h hne, List.filter_cons_of_neg (by decide), List.filter_eq_self]
    intro name hname
    simpa using (h name hname).1

/-- The text of a place ends with its last name. -/
theorem text_concat (p : Place) (name : String) :
    ∃ front, (Place.text (p ++ [name])).toList = front ++ name.toList := by
  by_cases hp : p = []
  · exact ⟨['/'], by simp [hp, toList_text]⟩
  · refine ⟨("/" ++ String.intercalate "/" p ++ "/").toList, ?_⟩
    rw [text, String.intercalate_append_of_ne_nil hp (by simp), String.intercalate_singleton]
    simp

theorem endsWith_text {name : String} (h : IsName name) (p : Place) :
    Text.endsWith (Place.text (p ++ [name])) "/" = false := by
  obtain ⟨front, htail⟩ := text_concat p name
  rw [Text.endsWith, htail, Bool.eq_false_iff]
  intro hends
  obtain ⟨before, hbefore⟩ := List.isSuffixOf_iff_suffix.1 hends
  have hlast : (front ++ name.toList).getLast? = some '/' := by
    rw [← hbefore]
    exact List.getLast?_concat
  rw [List.getLast?_append] at hlast
  cases hc : name.toList.getLast? with
  | none => exact h.1 (by simpa using hc)
  | some c =>
    rw [hc, Option.some_or] at hlast
    exact h.2 (List.mem_of_getLast? (hc.trans hlast))

/-- **A path is read off the text of a place.** -/
theorem ofString_eq (h : ∀ name ∈ p, IsPlain name) (hne : p ≠ []) :
    Path.ofString p.text = ⟨.single, p⟩ := by
  have hnames : Path.namesOf p.text = p := by
    rw [Path.namesOf, splitAt_text (fun name hname => (h name hname).isName) hne,
      List.filter_cons_of_neg (by decide), List.filter_eq_self]
    intro name hname
    simpa using ⟨(h name hname).isName.1, (h name hname).ne_dot⟩
  have hroot : Root.of p.text.toList = .single := by
    obtain ⟨name, rest, rfl⟩ := List.exists_cons_of_ne_nil hne
    have hname := (h name List.mem_cons_self).isName
    obtain ⟨c, cs, hcs⟩ : ∃ c cs, name.toList = c :: cs :=
      List.exists_cons_of_ne_nil (by simpa using hname.1)
    have hc : c ≠ '/' := by
      rintro rfl
      exact hname.2 (by simp [hcs])
    rw [toList_text, List.map_cons, hcs, List.intercalate_cons_cons_left]
    unfold Root.of
    split
    · rename_i heq
      simp_all
    · rename_i heq
      simp_all
    · rfl
    · rename_i hnot
      exact absurd rfl (hnot _)
  rw [Path.ofString, hroot, hnames]

/-- The text of a place is that of the path below a single root. -/
theorem text_single (p : Place) : Path.text ⟨.single, p⟩ = p.text := by
  have hfull : ¬p.text.isEmpty = true := by
    simp [← String.toList_eq_nil_iff, toList_text]
  rw [Path.text]
  change (if p.text.isEmpty = true then "." else p.text) = p.text
  rw [if_neg hfull]

/-- A place whose text is read and written again has the same text. -/
theorem ofString_text (h : ∀ name ∈ p, IsPlain name) (hne : p ≠ []) :
    (Path.ofString p.text).text = p.text := by
  rw [ofString_eq h hne, text_single]

end Place

/-- A sequence that succeeds has two parts that do. -/
theorem ok_of_bind {ε α β : Type} {x : Except ε α} {f : α → Except ε β} {b : β}
    (h : x >>= f = .ok b) : ∃ a, x = .ok a ∧ f a = .ok b := by
  cases x with
  | error e => cases h
  | ok a => exact ⟨a, rfl, h⟩

namespace FileTree

variable {t : FileTree} {here p place : Place} {name path : String} {node : Node}

/-! ## Directories that the system reaches without a link -/

/-- A place that is a directory, and so is every place on the way to it. -/
structure Directory (t : FileTree) (p : Place) : Prop where
  plain : ∀ name ∈ p, IsPlain name
  directory : ∀ q, q <+: p → t.node? q = some .directory

theorem directory_root (t : FileTree) : t.Directory [] where
  plain := by simp
  directory := by
    intro q hq
    rw [List.prefix_nil.1 hq]
    rfl

theorem Directory.of_prefix {q : Place} (h : t.Directory p) (hq : q <+: p) : t.Directory q where
  plain name hname := h.plain name (hq.subset hname)
  directory r hr := h.directory r (hr.trans hq)

theorem Directory.dropLast (h : t.Directory p) : t.Directory p.dropLast :=
  h.of_prefix (List.dropLast_prefix p)

theorem Directory.plain_concat (h : t.Directory p) (hname : IsPlain name) :
    ∀ other ∈ p ++ [name], IsPlain other := by
  intro other hother
  rcases List.mem_append.1 hother with hother | hother
  · exact h.plain other hother
  · rw [List.mem_singleton.1 hother]
    exact hname

theorem Directory.concat (h : t.Directory p) (hname : IsPlain name)
    (hnode : t.node? (p ++ [name]) = some .directory) : t.Directory (p ++ [name]) where
  plain := h.plain_concat hname
  directory q hq := by
    rcases List.prefix_concat_iff.1 hq with rfl | hq
    · exact hnode
    · exact h.directory q hq

/-- Where a path starts is a directory, if relative paths start from one. -/
theorem Directory.startOf (h : t.Directory p) (path : String) : t.Directory (startOf p path) := by
  rw [FileTree.startOf]
  split
  · exact directory_root t
  · exact h

/-- **Along directories a walk goes straight on**, or fails wherever it is
bound for. -/
theorem stretch_along (follow : Bool) {along : List String} (h : t.Directory (here ++ along)) :
    (∀ directory rest, t.stretch follow directory here (along ++ rest) =
        t.stretch follow directory (here ++ along) rest) ∨
      ∀ directory rest, ∃ code,
        t.stretch follow directory here (along ++ rest) = .failed code := by
  induction along generalizing here with
  | nil =>
    rw [List.append_nil]
    exact Or.inl fun _ _ => rfl
  | cons name along ih =>
    have hplain := h.plain name (by simp)
    have hnode : t.node? (here ++ [name]) = some .directory :=
      h.directory _ ⟨along, by simp⟩
    have hfurther : here ++ name :: along = here ++ [name] ++ along := List.append_cons _ _ _
    rw [hfurther] at h ⊢
    -- A directory may not be searched and a name may be too long; nothing else stops the walk.
    by_cases hsearch : t.unsearchable.contains here = true
    · refine Or.inr fun directory rest => ⟨.accessDenied, ?_⟩
      rw [List.cons_append, stretch, if_pos hsearch]
    by_cases hlong : maxName < (Text.Utf8.encode name).length
    · refine Or.inr fun directory rest => ⟨.nameTooLong, ?_⟩
      rw [List.cons_append, stretch, if_neg hsearch, if_pos hlong]
    have hstep : ∀ directory rest, t.stretch follow directory here (name :: along ++ rest) =
        t.stretch follow directory (here ++ [name]) (along ++ rest) := by
      intro directory rest
      rw [List.cons_append, stretch, if_neg hsearch, if_neg hlong, if_neg hplain.ne_dot,
        if_neg hplain.ne_dots, hnode]
    simp only [hstep]
    exact ih h

/-- What is found along a path: the path is one that a program can ask for,
and the walk along it ends there. -/
theorem nodeAt_ok_iff {cwd : Place} {follow : Bool} :
    t.nodeAt cwd follow path = .ok (place, node) ↔
      path.toList.contains (Char.ofNat 0) = false ∧ path.isEmpty = false ∧
        (Text.Utf8.encode path).length < maxPath ∧
        t.walk follow maxLinks (Text.endsWith path "/") (startOf cwd path) (pathNames path) =
          .ok (.node place node) := by
  rw [nodeAt, seek, lookup]
  by_cases hnul : path.toList.contains (Char.ofNat 0) = true
  · rw [if_pos hnul, hnul]
    exact iff_of_false (fun h => by cases h) (fun h => by cases h.1)
  by_cases hempty : path.isEmpty = true
  · rw [if_neg hnul, if_pos hempty, hempty]
    exact iff_of_false (fun h => by cases h) (fun h => by cases h.2.1)
  by_cases hlong : maxPath ≤ (Text.Utf8.encode path).length
  · rw [if_neg hnul, if_neg hempty, if_pos hlong]
    exact iff_of_false (fun h => by cases h) (fun h => absurd hlong (Nat.not_le.2 h.2.2.1))
  rw [if_neg hnul, if_neg hempty, if_neg hlong]
  refine Iff.trans ?_ (and_iff_right (Bool.eq_false_iff.2 hnul)).symm
  refine Iff.trans ?_ (and_iff_right (Bool.eq_false_iff.2 hempty)).symm
  refine Iff.trans ?_ (and_iff_right (Nat.not_le.1 hlong)).symm
  rcases t.walk follow maxLinks (Text.endsWith path "/") (startOf cwd path) (pathNames path) with
    code | ⟨found, stands⟩ | ⟨parent, name⟩
  · exact iff_of_false (fun h => by cases h) (fun h => by cases h)
  · constructor
    · intro h
      cases h
      rfl
    · intro h
      cases h
      rfl
  · exact iff_of_false (fun h => by cases h) (fun h => by cases h)

theorem walk_of_nodeAt {cwd : Place} {follow : Bool}
    (h : t.nodeAt cwd follow path = .ok (place, node)) :
    t.walk follow maxLinks (Text.endsWith path "/") (startOf cwd path) (pathNames path) =
      .ok (.node place node) :=
  (nodeAt_ok_iff.1 h).2.2.2

/-- At its last name a walk fails or finds what stands there, unless it has
a link to follow. -/
theorem stretch_last {follow : Bool} (hname : IsPlain name)
    (hend : follow = true → ∀ target, t.node? (here ++ [name]) ≠ some (.link target)) :
    (∃ code, t.stretch follow false here [name] = .failed code) ∨
      t.stretch follow false here [name] = .missing here name ∨
      ∃ node, t.stretch follow false here [name] = .found (here ++ [name]) node ∧
        t.node? (here ++ [name]) = some node := by
  rw [stretch]
  split
  · exact Or.inl ⟨_, rfl⟩
  split
  · exact Or.inl ⟨_, rfl⟩
  rw [if_neg hname.ne_dot, if_neg hname.ne_dots]
  rcases hnode : t.node? (here ++ [name]) with _ | _ | ⟨content, executable⟩ | target
  · exact Or.inr (Or.inl rfl)
  · exact Or.inr (Or.inr ⟨_, rfl, rfl⟩)
  · exact Or.inr (Or.inr ⟨_, rfl, rfl⟩)
  · cases follow with
    | false => exact Or.inr (Or.inr ⟨_, rfl, rfl⟩)
    | true => exact absurd hnode (hend rfl target)

/-- **Below a directory the system finds what stands there**, if it finds
anything and no link is followed at the end. -/
theorem node_of_nodeAt {cwd : Place} {follow : Bool} (hhere : t.Directory here)
    (hname : IsPlain name)
    (hend : follow = true → ∀ target, t.node? (here ++ [name]) ≠ some (.link target))
    (h : t.nodeAt cwd follow (Place.text (here ++ [name])) = .ok (place, node)) :
    place = here ++ [name] ∧ t.node? (here ++ [name]) = some node := by
  have hnames : ∀ other ∈ here ++ [name], IsName other :=
    fun other hother => (hhere.plain_concat hname other hother).isName
  have hwalk := walk_of_nodeAt h
  rw [Place.endsWith_text hname.isName, startOf, if_pos (Place.startsWith_text _),
    Place.pathNames_text hnames, walk] at hwalk
  have hlast : t.stretch follow false [] (here ++ [name]) = t.stretch follow false here [name] := by
    rcases stretch_along follow (by rwa [List.nil_append]) with hsame | hfail
    · rw [hsame, List.nil_append]
    · obtain ⟨code, hfail⟩ := hfail false [name]
      rw [hfail] at hwalk
      cases hwalk
  rw [hlast] at hwalk
  rcases stretch_last hname hend with ⟨code, hfail⟩ | hmissing | ⟨found, hfound, hnode⟩
  · rw [hfail] at hwalk
    cases hwalk
  · rw [hmissing] at hwalk
    cases hwalk
  · rw [hfound] at hwalk
    cases hwalk
    exact ⟨rfl, hnode⟩

/-- Where a file stands there is no link. -/
theorem not_link_of_file {content : Bytes} {executable : Bool}
    (h : t.node? p = some (.file content executable)) (target : String) :
    t.node? p ≠ some (.link target) := by
  rw [h]
  exact fun hlink => by cases hlink

/-! ## The system's walk, without its limits -/

/-- Where names lead from a directory when every link is followed. -/
inductive Leads (t : FileTree) : Place → List String → Place → Node → Prop
  /-- The way is at its end. -/
  | arrived (here : Place) : Leads t here [] here .directory
  | dot {here place : Place} {rest : List String} {node : Node} :
      Leads t here rest place node → Leads t here ("." :: rest) place node
  | dots {here place : Place} {rest : List String} {node : Node} :
      Leads t here.dropLast rest place node → Leads t here (".." :: rest) place node
  | down {here place : Place} {name : String} {rest : List String} {node : Node} :
      name ≠ "." → name ≠ ".." → t.node? (here ++ [name]) = some .directory →
      Leads t (here ++ [name]) rest place node → Leads t here (name :: rest) place node
  /-- A file ends the way. -/
  | file {here : Place} {name : String} {content : Bytes} {executable : Bool} :
      name ≠ "." → name ≠ ".." →
      t.node? (here ++ [name]) = some (.file content executable) →
      Leads t here [name] (here ++ [name]) (.file content executable)
  /-- The target of a link stands for its name. -/
  | link {here place : Place} {name target : String} {rest : List String} {node : Node} :
      name ≠ "." → name ≠ ".." → t.node? (here ++ [name]) = some (.link target) →
      Leads t (startOf here target) (pathNames target ++ rest) place node →
      Leads t here (name :: rest) place node

/-- A file that the way leads to stands there. -/
theorem Leads.node_file {names : List String} {content : Bytes} {executable : Bool}
    (h : t.Leads here names place (.file content executable)) :
    t.node? place = some (.file content executable) := by
  generalize hfile : Node.file content executable = node at h
  induction h with
  | arrived here => cases hfile
  | dot _ ih => exact ih hfile
  | dots _ ih => exact ih hfile
  | down _ _ _ _ ih => exact ih hfile
  | file _ _ hnode => exact hnode
  | link _ _ _ _ ih => exact ih hfile

/-- The ways a first name can lead on. -/
theorem Leads.cons_cases {rest : List String} (h : t.Leads here (name :: rest) place node) :
    (name = "." ∧ t.Leads here rest place node) ∨
      (name = ".." ∧ t.Leads here.dropLast rest place node) ∨
      (name ≠ "." ∧ name ≠ ".." ∧
        ((t.node? (here ++ [name]) = some .directory ∧ t.Leads (here ++ [name]) rest place node) ∨
          (∃ content executable, t.node? (here ++ [name]) = some (.file content executable) ∧
            rest = [] ∧ place = here ++ [name] ∧ node = .file content executable) ∨
          ∃ target, t.node? (here ++ [name]) = some (.link target) ∧
            t.Leads (startOf here target) (pathNames target ++ rest) place node)) := by
  cases h with
  | dot h => exact Or.inl ⟨rfl, h⟩
  | dots h => exact Or.inr (Or.inl ⟨rfl, h⟩)
  | down hdot hdots hnode h => exact Or.inr (Or.inr ⟨hdot, hdots, Or.inl ⟨hnode, h⟩⟩)
  | file hdot hdots hnode =>
    exact Or.inr (Or.inr ⟨hdot, hdots, Or.inr (Or.inl ⟨_, _, hnode, rfl, rfl, rfl⟩)⟩)
  | link hdot hdots hnode h =>
    exact Or.inr (Or.inr ⟨hdot, hdots, Or.inr (Or.inr ⟨_, hnode, h⟩)⟩)

/-- A stretch is a part of the way along names: what it finds is where they
lead, and a link that stops it leads on. -/
def Stretch.IsPart (t : FileTree) (here : Place) (names : List String) : Stretch → Prop
  | .found place node => t.Leads here names place node
  | .link parent target rest => ∀ place node,
      t.Leads (startOf parent target) (pathNames target ++ rest) place node →
        t.Leads here names place node
  | .missing _ _ | .failed _ => True

/-- A part of a way is a part of every way that leads into it. -/
theorem Stretch.IsPart.of_leads {start : Place} {names rest : List String} {s : Stretch}
    (h : s.IsPart t here rest)
    (hleads : ∀ place node, t.Leads here rest place node → t.Leads start names place node) :
    s.IsPart t start names := by
  cases s with
  | found place node => exact hleads place node h
  | missing parent name => trivial
  | link parent target rest => exact fun place node hrest => hleads place node (h place node hrest)
  | failed code => trivial

theorem isPart_stretch (directory : Bool) (names : List String) (here : Place) :
    (t.stretch true directory here names).IsPart t here names := by
  induction names generalizing here with
  | nil => exact .arrived here
  | cons name rest ih =>
    rw [stretch]
    split
    · trivial
    split
    · trivial
    split
    · rename_i hdot
      rw [hdot]
      exact (ih here).of_leads fun _ _ => .dot
    split
    · rename_i hdots
      rw [hdots]
      exact (ih here.dropLast).of_leads fun _ _ => .dots
    rename_i hdot hdots
    rcases hnode : t.node? (here ++ [name]) with _ | _ | ⟨content, executable⟩ | target
    · dsimp only
      split
      · trivial
      · trivial
    · exact (ih (here ++ [name])).of_leads fun _ _ => .down hdot hdots hnode
    · dsimp only
      split
      · rename_i hlast
        rw [Bool.and_eq_true, List.isEmpty_iff] at hlast
        rw [hlast.1]
        exact .file hdot hdots hnode
      · trivial
    · simp only [Bool.not_true, Bool.and_false, Bool.false_and]
      exact fun _ _ => .link hdot hdots hnode

/-- **The system's walk ends where the names lead.** -/
theorem leads_of_walk {budget : Nat} {directory : Bool} {names : List String}
    (h : t.walk true budget directory here names = .ok (.node place node)) :
    t.Leads here names place node := by
  -- A walk ends at a node when a stretch finds it, or behind a link that it follows.
  fun_induction walk t true budget directory here names with
  | case1 budget directory here names found foundNode hs =>
    cases h
    have hpart := isPart_stretch (t := t) directory names here
    rw [hs] at hpart
    exact hpart
  | case2 => cases h
  | case3 => cases h
  | case4 => cases h
  | case5 => cases h
  | case6 directory here names parent target rest hs budget hfull ih =>
    have hpart := isPart_stretch (t := t) directory names here
    rw [hs] at hpart
    exact hpart place node (ih h)

/-! ## Resolving follows the walk -/

/-- What is left of a way once its beginning has been resolved: the rest
leads on from a directory, or there is no rest and a file is the end. -/
inductive Remains (t : FileTree) : Place → List String → Place → Node → Prop
  | ahead {p place : Place} {rest : List String} {node : Node} :
      t.Directory p → t.Leads p rest place node → Remains t p rest place node
  | done {parent : Place} {name : String} {content : Bytes} {executable : Bool} :
      t.Directory parent → IsPlain name →
      Remains t (parent ++ [name]) [] (parent ++ [name]) (.file content executable)

variable {follow : Place → String → Except Failure Place} {names rest : List String}

/-- A plain name is resolved by what stands there. -/
theorem resolveBy_plain (hhere : t.Directory here) (hname : IsPlain name)
    (h : t.resolveBy follow here (name :: names) = .ok p) :
    ∃ node, t.node? (here ++ [name]) = some node ∧
      match node with
      | .link target => ∃ q, follow (here ++ [name]) target = .ok q ∧
          t.resolveBy follow q names = .ok p
      | _ => t.resolveBy follow (here ++ [name]) names = .ok p := by
  rw [resolveBy, if_neg hname.ne_dot, if_neg hname.ne_dots] at h
  obtain ⟨⟨place, node⟩, hlook, h⟩ := ok_of_bind h
  obtain ⟨-, hnode⟩ := node_of_nodeAt hhere hname (fun hfalse => by cases hfalse) hlook
  refine ⟨node, hnode, ?_⟩
  cases node with
  | directory => exact h
  | file content executable => exact h
  | link target => exact ok_of_bind h

/-- **Resolving the beginning of a way leaves the rest of it.** The target of
a link is the beginning of what the link leads on to. -/
theorem remains_of_resolveBy
    (hfollow : ∀ {here p place : Place} {name target : String} {rest : List String} {node : Node},
      t.Directory here → follow (here ++ [name]) target = .ok p →
      t.Leads (startOf here target) (pathNames target ++ rest) place node →
      t.Remains p rest place node)
    (hhere : t.Directory here) (hnames : ∀ name ∈ names, IsName name)
    (h : t.resolveBy follow here names = .ok p)
    (hleads : t.Leads here (names ++ rest) place node) : t.Remains p rest place node := by
  -- The rest stays general: behind a link it starts with the names that are still to come.
  induction names generalizing here with
  | nil =>
    cases h
    exact .ahead hhere hleads
  | cons name names ih =>
    have hnext : ∀ other ∈ names, IsName other := by
      intro other hother
      exact hnames other (List.mem_cons_of_mem name hother)
    rw [List.cons_append] at hleads
    rcases hleads.cons_cases with ⟨rfl, hrest⟩ | ⟨rfl, hrest⟩ | ⟨hdot, hdots, hways⟩
    · rw [resolveBy, if_pos rfl] at h
      exact ih hhere hnext h hrest
    · rw [resolveBy, if_neg (by decide), if_pos rfl] at h
      exact ih hhere.dropLast hnext h hrest
    have hplain : IsPlain name := ⟨hnames name (by simp), hdot, hdots⟩
    obtain ⟨found, hfound, h⟩ := resolveBy_plain hhere hplain h
    rcases hways with ⟨hnode, hrest⟩ | ⟨content, executable, hnode, hend, rfl, rfl⟩ |
      ⟨target, hnode, hrest⟩
    · cases hfound.symm.trans hnode
      exact ih (hhere.concat hplain hnode) hnext h hrest
    · cases hfound.symm.trans hnode
      -- Behind a file the system refuses even a dot, so nothing is left to resolve.
      obtain ⟨rfl, rfl⟩ := List.append_eq_nil_iff.1 hend
      cases h
      exact .done hhere hplain
    · cases hfound.symm.trans hnode
      obtain ⟨q, hq, h⟩ := h
      have hremains := hfollow hhere hq hrest
      generalize hremaining : names ++ rest = remaining at hremains
      cases hremains with
      | ahead hdir hrest =>
        rw [← hremaining] at hrest
        exact ih hdir hnext h hrest
      | done hparent hlast =>
        obtain ⟨rfl, rfl⟩ := List.append_eq_nil_iff.1 hremaining
        cases h
        exact .done hparent hlast

/-- Resolving the beginning of a way, however deep links are nested. -/
theorem remains_of_resolve {budget : Nat} (hhere : t.Directory here)
    (hnames : ∀ name ∈ names, IsName name) (h : t.resolve budget here names = .ok p)
    (hleads : t.Leads here (names ++ rest) place node) : t.Remains p rest place node := by
  induction budget generalizing here p place names rest node with
  | zero => exact remains_of_resolveBy (fun _ hfollow => by cases hfollow) hhere hnames h hleads
  | succ budget ih =>
    refine remains_of_resolveBy (fun hdir hfollow hrest => ?_) hhere hnames h hleads
    rw [List.dropLast_concat] at hfollow
    exact ih (hdir.startOf _) (fun _ => isName_of_mem_pathNames) hfollow hrest

/-- **A file that the system finds along a rooted path is at the canonical
place of that path**, below directories and under a plain name. -/
theorem canonical_of_file {cwd : Place} {content : Bytes} {executable : Bool}
    (hroot : Text.startsWith path "/" = true)
    (hnode : t.nodeAt cwd true path = .ok (place, .file content executable))
    (hcanonical : t.canonical cwd path = .ok p) :
    p = place ∧ t.node? p = some (.file content executable) ∧
      ∃ parent name, p = parent ++ [name] ∧ t.Directory parent ∧ IsPlain name := by
  have hleads := leads_of_walk (walk_of_nodeAt hnode)
  rw [canonical] at hcanonical
  rw [startOf, if_pos hroot] at hcanonical hleads
  rw [← List.append_nil (pathNames path)] at hleads
  have hremains := remains_of_resolve (directory_root t) (fun _ => isName_of_mem_pathNames)
    hcanonical hleads
  cases hremains with
  | ahead hdir hrest => cases hrest
  | done hparent hlast => exact ⟨rfl, hleads.node_file, _, _, rfl, hparent, hlast⟩

/-- **A file is found again at its canonical place.** -/
theorem nodeAt_canonical {cwd other found : Place} {content : Bytes} {executable : Bool}
    (hroot : Text.startsWith path "/" = true)
    (hnode : t.nodeAt cwd true path = .ok (place, .file content executable))
    (hcanonical : t.canonical cwd path = .ok p)
    (hagain : t.nodeAt other true p.text = .ok (found, node)) :
    found = place ∧ node = .file content executable ∧ (Path.ofString p.text).text = p.text := by
  obtain ⟨rfl, hfile, parent, name, rfl, hparent, hname⟩ := canonical_of_file hroot hnode hcanonical
  obtain ⟨rfl, hsame⟩ := node_of_nodeAt hparent hname (fun _ => not_link_of_file hfile) hagain
  rw [hfile] at hsame
  exact ⟨rfl, (Option.some.inj hsame).symm,
    Place.ofString_text (hparent.plain_concat hname) (by simp)⟩

end FileTree

end Disasm
