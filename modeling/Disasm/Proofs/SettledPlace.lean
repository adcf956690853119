import Disasm.Proofs.AbsolutePath
/-!
# Settled places — files by their directory and their name

What a path resolves to is settled: a directory or a file in one, with no
link on the way (`settled_of_canonical`). A file at such a place can be
named in two ways, by the text of the place and by its name in its
directory, and where the system finds it in the first way it does so in
the second (`nodeAt_of_concat`). And wherever the system finds it along
the names that were resolved, it is at that place (`place_of_leads`).

The system takes double dots at the place that it has come to, a text
takes them at the name before. The two agree where no link is on the way
to the dots (`Retraces`, `Leads.along`).
-/

namespace Disasm

/-! ## Texts of places -/

namespace Place

variable {p : Place} {name : String}

theorem startsWith_name (h : IsName name) : Text.startsWith name "/" = false := by
  rw [Bool.eq_false_iff]
  intro hslash
  obtain ⟨rest, hrest⟩ := List.isPrefixOf_iff_prefix.1 hslash
  exact h.2 (by rw [← hrest]; simp)

theorem endsWith_name (h : IsName name) : Text.endsWith name "/" = false := by
  rw [Bool.eq_false_iff]
  intro hslash
  obtain ⟨front, hfront⟩ := List.isSuffixOf_iff_suffix.1 hslash
  exact h.2 (by rw [← hfront]; simp)

/-- **The text of a place is that of its directory joined with its name.** -/
theorem join_text (hp : ∀ other ∈ p, IsName other) (hname : IsName name) :
    Path.join p.text name = Place.text (p ++ [name]) := by
  have hfull : p.text.isEmpty = false := by
    simp [← String.toList_eq_nil_iff, toList_text]
  rw [Path.join, if_neg (ne_true_of_eq_false (startsWith_name hname))]
  by_cases hne : p = []
  · rw [hne]
    rfl
  · have hends : Text.endsWith p.text "/" = false := by
      obtain ⟨q, last, rfl⟩ := List.eq_nil_or_concat p |>.resolve_left hne
      rw [List.concat_eq_append] at hp ⊢
      exact endsWith_text (hp last (by simp)) q
    rw [hfull, hends, if_neg (by decide), text, text,
      String.intercalate_append_of_ne_nil hne (List.cons_ne_nil _ _),
      String.intercalate_singleton]
    simp only [String.append_assoc]

/-- The text of a place begins with that of its directory and ends with its
name. -/
theorem toList_concat (hp : ∀ other ∈ p, IsName other) (hname : IsName name) :
    ∃ gap, (Place.text (p ++ [name])).toList = p.text.toList ++ gap ++ name.toList := by
  rw [← join_text hp hname, Path.join, if_neg (ne_true_of_eq_false (startsWith_name hname))]
  split
  · exact ⟨[], by simp⟩
  · exact ⟨['/'], by simp⟩

/-- The names of a name are that name. -/
theorem pathNames_name (h : IsName name) : pathNames name = [name] := by
  have hsplit : Text.splitAt '/' name = [name] := by
    rw [Text.splitAt, List.splitOn_eq_singleton h.2]
    simp
  rw [pathNames, hsplit]
  simp [h.1]

end Place

namespace FileTree

variable {t : FileTree} {here p place : Place} {name path : String} {node : Node}

/-- What is found along the text of a place: the text is one that a program
can ask for, and the walk along its names from the root ends there. -/
theorem nodeAt_text_iff {cwd : Place} {follow : Bool} (hp : ∀ name ∈ p, IsName name) :
    t.nodeAt cwd follow p.text = .ok (place, node) ↔
      p.text.toList.contains (Char.ofNat 0) = false ∧
        (Text.Utf8.encode p.text).length < maxPath ∧
        t.walk follow maxLinks (Text.endsWith p.text "/") [] p = .ok (.node place node) := by
  have hfull : p.text.isEmpty = false := by
    simp [← String.toList_eq_nil_iff, Place.toList_text]
  rw [nodeAt_ok_iff, startOf, if_pos (Place.startsWith_text p), Place.pathNames_text hp,
    and_iff_right hfull]

/-! ## Canonical places are settled -/

/-- A place that is reached along directories alone: a directory, or a file
in one. -/
inductive Settled (t : FileTree) : Place → Prop
  | directory {p : Place} : t.Directory p → Settled t p
  | file {parent : Place} {name : String} {content : Bytes} {executable : Bool} :
      t.Directory parent → IsPlain name →
      t.node? (parent ++ [name]) = some (.file content executable) →
      Settled t (parent ++ [name])

theorem Settled.dropLast (h : t.Settled p) : t.Settled p.dropLast := by
  cases h with
  | directory hp => exact .directory hp.dropLast
  | file hparent _ _ =>
    rw [List.dropLast_concat]
    exact .directory hparent

/-- Behind a file the system finds nothing. -/
theorem Settled.directory_of_nodeAt {cwd : Place} {follow : Bool} (h : t.Settled here)
    (hname : IsName name)
    (hfound : t.nodeAt cwd follow (Place.text (here ++ [name])) = .ok (place, node)) :
    t.Directory here := by
  cases h with
  | directory hhere => exact hhere
  | @file parent last content executable hparent hlast hnode =>
    exfalso
    have hnames : ∀ other ∈ parent ++ [last] ++ [name], IsName other := by
      intro other hother
      rcases List.mem_append.1 hother with hother | hother
      · exact (hparent.plain_concat hlast other hother).isName
      · rw [List.mem_singleton.1 hother]
        exact hname
    obtain ⟨-, -, hwalk⟩ := (nodeAt_text_iff hnames).1 hfound
    rw [Place.endsWith_text hname, List.append_assoc, walk] at hwalk
    have hstops : ∃ code, t.stretch follow false [] (parent ++ ([last] ++ [name])) =
        .failed code := by
      rcases stretch_along follow (by rwa [List.nil_append]) with hsame | hfail
      · rw [hsame, List.nil_append, List.singleton_append, stretch]
        split
        · exact ⟨_, rfl⟩
        split
        · exact ⟨_, rfl⟩
        rw [if_neg hlast.ne_dot, if_neg hlast.ne_dots, hnode]
        exact ⟨_, rfl⟩
      · exact hfail _ _
    obtain ⟨code, hcode⟩ := hstops
    rw [hcode] at hwalk
    cases hwalk

/-- And so nothing is resolved behind a file. -/
theorem Settled.directory_of_resolveBy {follow : Place → String → Except Failure Place}
    {names : List String} (hhere : t.Settled here) (hname : IsPlain name)
    (h : t.resolveBy follow here (name :: names) = .ok p) : t.Directory here := by
  rw [resolveBy, if_neg hname.ne_dot, if_neg hname.ne_dots] at h
  obtain ⟨⟨found, node⟩, hfound, -⟩ := ok_of_bind h
  exact hhere.directory_of_nodeAt hname.isName hfound

/-- Resolving names from a settled place ends at one, if following links
does. -/
theorem settled_of_resolveBy {follow : Place → String → Except Failure Place}
    (hfollow : ∀ {here q : Place} {name target : String}, t.Directory here →
      follow (here ++ [name]) target = .ok q → t.Settled q)
    {names : List String} (hhere : t.Settled here) (hnames : ∀ name ∈ names, IsName name)
    (h : t.resolveBy follow here names = .ok p) : t.Settled p := by
  induction names generalizing here with
  | nil =>
    cases h
    exact hhere
  | cons name names ih =>
    rw [List.forall_mem_cons] at hnames
    by_cases hdot : name = "."
    · rw [resolveBy, if_pos hdot] at h
      exact ih hhere hnames.2 h
    by_cases hdots : name = ".."
    · rw [resolveBy, if_neg hdot, if_pos hdots] at h
      exact ih hhere.dropLast hnames.2 h
    have hplain : IsPlain name := ⟨hnames.1, hdot, hdots⟩
    have hdir := hhere.directory_of_resolveBy hplain h
    obtain ⟨node, hnode, hrest⟩ := resolveBy_plain hdir hplain h
    cases node with
    | directory => exact ih (.directory (hdir.concat hplain hnode)) hnames.2 hrest
    | file content executable => exact ih (.file hdir hplain hnode) hnames.2 hrest
    | link target =>
      obtain ⟨q, hq, hrest⟩ := hrest
      exact ih (hfollow hdir hq) hnames.2 hrest

theorem settled_of_resolve {budget : Nat} {names : List String} (hhere : t.Settled here)
    (hnames : ∀ name ∈ names, IsName name) (h : t.resolve budget here names = .ok p) :
    t.Settled p := by
  induction budget generalizing here p names with
  | zero => exact settled_of_resolveBy (fun _ hfollow => by cases hfollow) hhere hnames h
  | succ budget ih =>
    refine settled_of_resolveBy (fun hdir hfollow => ?_) hhere hnames h
    rw [List.dropLast_concat] at hfollow
    exact ih (.directory (hdir.startOf _)) (fun _ => isName_of_mem_pathNames) hfollow

/-- **The canonical place of a rooted path is settled.** -/
theorem settled_of_canonical {cwd : Place} (hroot : Text.startsWith path "/" = true)
    (h : t.canonical cwd path = .ok p) : t.Settled p := by
  rw [canonical, startOf, if_pos hroot] at h
  exact settled_of_resolve (.directory (directory_root t)) (fun _ => isName_of_mem_pathNames) h

/-- A file that the system finds at a settled place is in a directory there. -/
theorem Settled.file_of_nodeAt {cwd : Place} {content : Bytes} {executable : Bool}
    (h : t.Settled p) (hfound : t.nodeAt cwd true p.text = .ok (place, .file content executable)) :
    ∃ parent name, p = parent ++ [name] ∧ t.Directory parent ∧ IsPlain name ∧
      t.node? p = some (.file content executable) := by
  cases h with
  | directory hp =>
    exfalso
    rcases List.eq_nil_or_concat p with rfl | ⟨parent, name, rfl⟩
    · have hwalk := walk_of_nodeAt hfound
      cases hwalk
    · rw [List.concat_eq_append] at hp hfound
      have hparent : t.Directory parent := by
        have hdropped := hp.dropLast
        rwa [List.dropLast_concat] at hdropped
      have hnode := hp.directory _ (List.prefix_refl _)
      have hend : ∀ target, t.node? (parent ++ [name]) ≠ some (.link target) := by
        intro target
        rw [hnode]
        exact fun h => by cases h
      obtain ⟨-, hsame⟩ := node_of_nodeAt hparent (hp.plain name (by simp)) (fun _ => hend) hfound
      rw [hnode] at hsame
      cases hsame
  | @file parent name _ _ hparent hname hnode =>
    obtain ⟨-, hsame⟩ := node_of_nodeAt hparent hname (fun _ => not_link_of_file hnode) hfound
    exact ⟨parent, name, rfl, hparent, hname, hsame⟩

/-! ## A file by its directory and its name -/

/-- What is found in a directory is found through it. -/
theorem stretch_parent {cwd parent : Place} (hparent : t.Directory parent) (hname : IsPlain name)
    (h : t.nodeAt cwd true (Place.text (parent ++ [name])) = .ok (place, node))
    (directory : Bool) (rest : List String) :
    t.stretch true directory [] (parent ++ rest) = t.stretch true directory parent rest := by
  have hnames : ∀ step ∈ parent ++ [name], IsName step :=
    fun step hstep => (hparent.plain_concat hname step hstep).isName
  obtain ⟨-, -, hwalk⟩ := (nodeAt_text_iff hnames).1 h
  rw [Place.endsWith_text hname.isName, walk] at hwalk
  rcases stretch_along true (by rwa [List.nil_append]) with hsame | hfail
  · exact hsame directory rest
  · obtain ⟨code, hcode⟩ := hfail false [name]
    rw [hcode] at hwalk
    cases hwalk

/-- The directory of what is found is found itself. -/
theorem nodeAt_parent {cwd parent : Place} (hparent : t.Directory parent) (hname : IsPlain name)
    (h : t.nodeAt cwd true (Place.text (parent ++ [name])) = .ok (place, node)) (other : Place) :
    t.nodeAt other true parent.text = .ok (parent, .directory) := by
  have habove : ∀ step ∈ parent, IsName step :=
    fun step hstep => (hparent.plain step hstep).isName
  obtain ⟨gap, htext⟩ := Place.toList_concat habove hname.isName
  obtain ⟨hnul, -, hlong, -⟩ := nodeAt_ok_iff.1 h
  rw [htext, List.contains_append, List.contains_append, Bool.or_eq_false_iff,
    Bool.or_eq_false_iff] at hnul
  rw [Text.Utf8.encode, htext, List.flatMap_append, List.flatMap_append, List.length_append,
    List.length_append] at hlong
  refine (nodeAt_text_iff habove).2 ⟨hnul.1.1, ?_, ?_⟩
  · rw [Text.Utf8.encode]
    omega
  · have hhere := stretch_parent hparent hname h (Text.endsWith parent.text "/") []
    rw [List.append_nil] at hhere
    rw [walk, hhere]
    rfl

/-- **A file is found in its directory by its name**, wherever its directory
is found from. -/
theorem nodeAt_of_concat {cwd parent : Place} {content : Bytes} {executable : Bool}
    (hparent : t.Directory parent) (hname : IsPlain name)
    (hfile : t.node? (parent ++ [name]) = some (.file content executable))
    (h : t.nodeAt cwd true (Place.text (parent ++ [name])) = .ok (place, node)) (other : Place) :
    t.nodeAt other true parent.text = .ok (parent, .directory) ∧
      t.nodeAt parent true name = .ok (parent ++ [name], .file content executable) := by
  have hnames : ∀ step ∈ parent ++ [name], IsName step :=
    fun step hstep => (hparent.plain_concat hname step hstep).isName
  have habove : ∀ step ∈ parent, IsName step :=
    fun step hstep => (hparent.plain step hstep).isName
  obtain ⟨gap, htext⟩ := Place.toList_concat habove hname.isName
  obtain ⟨hnul, hlong, hwalk⟩ := (nodeAt_text_iff hnames).1 h
  rw [htext, List.contains_append, List.contains_append, Bool.or_eq_false_iff,
    Bool.or_eq_false_iff] at hnul
  rw [Text.Utf8.encode, htext, List.flatMap_append, List.flatMap_append, List.length_append,
    List.length_append] at hlong
  rw [Place.endsWith_text hname.isName, walk, stretch_parent hparent hname h] at hwalk
  refine ⟨nodeAt_parent hparent hname h other, ?_⟩
  have hfound : t.stretch true false parent [name] =
      .found (parent ++ [name]) (.file content executable) := by
    rcases stretch_last hname (fun _ => not_link_of_file hfile) with
      ⟨code, hfail⟩ | hmissing | ⟨found, hfound, hnode⟩
    · rw [hfail] at hwalk
      cases hwalk
    · rw [hmissing] at hwalk
      cases hwalk
    · cases hfile.symm.trans hnode
      exact hfound
  refine nodeAt_ok_iff.2 ⟨hnul.2, ?_, ?_, ?_⟩
  · simpa using hname.isName.1
  · rw [Text.Utf8.encode]
    omega
  · rw [Place.endsWith_name hname.isName, startOf,
      if_neg (ne_true_of_eq_false (Place.startsWith_name hname.isName)),
      Place.pathNames_name hname.isName, walk, hfound]

/-! ## The file along the path of the user -/

/-- A file that was resolved is where its names lead. -/
theorem place_of_leads {budget : Nat} {names : List String} {content : Bytes} {executable : Bool}
    (hnames : ∀ name ∈ names, IsName name) (hresolve : t.resolve budget [] names = .ok p)
    (hfile : t.node? p = some (.file content executable))
    (hleads : t.Leads [] names place node) : place = p := by
  rw [← List.append_nil names] at hleads
  cases remains_of_resolve (directory_root t) hnames hresolve hleads with
  | ahead hdir _ =>
    have hnode := hdir.directory p (List.prefix_refl p)
    rw [hfile] at hnode
    cases hnode
  | done _ _ => rfl

/-- Names of which some dots are left out. -/
inductive Undots : List String → List String → Prop
  | nil : Undots [] []
  | keep {names others : List String} (name : String) :
      Undots names others → Undots (name :: names) (name :: others)
  | drop {names others : List String} : Undots names others → Undots ("." :: names) others

theorem Undots.append_left {names others : List String} (h : Undots names others)
    (front : List String) : Undots (front ++ names) (front ++ others) := by
  induction front with
  | nil => exact h
  | cons name front ih => exact .keep name ih

theorem undots_filter (names : List String) : Undots names (names.filter (· ≠ ".")) := by
  induction names with
  | nil => exact .nil
  | cons name names ih =>
    by_cases hdot : name = "."
    · rw [List.filter_cons_of_neg (by simpa using hdot), hdot]
      exact .drop ih
    · rw [List.filter_cons_of_pos (by simpa using hdot)]
      exact .keep name ih

theorem Undots.cons_cases {names others : List String} (h : Undots (name :: names) others) :
    (name = "." ∧ Undots names others) ∨
      ∃ rest, others = name :: rest ∧ Undots names rest := by
  cases h with
  | keep _ h => exact .inr ⟨_, rfl, h⟩
  | drop h => exact .inl ⟨rfl, h⟩

/-- Dots along a way can be left out. -/
theorem Leads.undots {names others : List String} (h : t.Leads here names place node)
    (hothers : Undots names others) : t.Leads here others place node := by
  induction h generalizing others with
  | arrived here =>
    cases hothers
    exact .arrived here
  | dot _ ih =>
    rcases hothers.cons_cases with ⟨-, hothers⟩ | ⟨rest, rfl, hrest⟩
    · exact ih hothers
    · exact .dot (ih hrest)
  | dots _ ih =>
    rcases hothers.cons_cases with ⟨hdot, -⟩ | ⟨rest, rfl, hrest⟩
    · exact absurd hdot (by decide)
    · exact .dots (ih hrest)
  | down hdot hdots hnode _ ih =>
    rcases hothers.cons_cases with ⟨hsame, -⟩ | ⟨rest, rfl, hrest⟩
    · exact absurd hsame hdot
    · exact .down hdot hdots hnode (ih hrest)
  | file hdot hdots hnode =>
    rcases hothers.cons_cases with ⟨hsame, -⟩ | ⟨rest, rfl, hrest⟩
    · exact absurd hsame hdot
    · cases hrest
      exact .file hdot hdots hnode
  | @link _ _ _ target _ _ hdot hdots hnode _ ih =>
    rcases hothers.cons_cases with ⟨hsame, -⟩ | ⟨rest, rfl, hrest⟩
    · exact absurd hsame hdot
    · exact .link hdot hdots hnode (ih (hrest.append_left (pathNames target)))

/-- A way from a directory is one from above it. -/
theorem Directory.leads {along rest : List String} (h : t.Directory (here ++ along))
    (hrest : t.Leads (here ++ along) rest place node) :
    t.Leads here (along ++ rest) place node := by
  induction along generalizing here with
  | nil =>
    rw [List.append_nil] at hrest
    exact hrest
  | cons name along ih =>
    have hplain := h.plain name (by simp)
    have hnode : t.node? (here ++ [name]) = some .directory :=
      h.directory _ ⟨along, by simp⟩
    rw [List.append_cons] at h hrest
    exact .down hplain.ne_dot hplain.ne_dots hnode (ih h hrest)

/-- Wherever double dots stand among the names, those before them lead to a
directory by their text, with no link on the way. -/
def Retraces (t : FileTree) (here : Place) (names : List String) : Prop :=
  ∀ before, before ++ [".."] <+: names → t.Directory (Place.along here before)

theorem retraces_of_plain {names : List String} (h : ".." ∉ names) : t.Retraces here names :=
  fun _ hbefore => absurd (hbefore.subset (by simp)) h

theorem Retraces.cons {rest : List String} {next : Place}
    (hstop : name = ".." → t.Directory here)
    (hnext : ∀ names, Place.along here (name :: names) = Place.along next names)
    (h : t.Retraces next rest) : t.Retraces here (name :: rest) := by
  intro before hbefore
  rcases before with _ | ⟨first, before⟩
  · rw [Place.along_nil]
    exact hstop (List.cons_prefix_cons.1 hbefore).1.symm
  · obtain ⟨rfl, hrest⟩ := List.cons_prefix_cons.1 hbefore
    rw [hnext]
    exact h before hrest

/-- The first double dots give a directory for every name before them. -/
theorem Retraces.directory {rest : List String} (h : t.Retraces here (name :: rest))
    (hname : IsPlain name) (hnames : ∀ other ∈ rest, IsName other) (hdots : ".." ∈ rest) :
    t.Directory (here ++ [name]) := by
  obtain ⟨front, back, rfl, hfirst⟩ := List.eq_append_cons_of_mem hdots
  have hfront := h (name :: front) ⟨back, by simp⟩
  rw [Place.along_plain hname, Place.along_of_plain hfirst fun other hother =>
    hnames other (List.mem_append_left _ hother)] at hfront
  exact hfront.of_prefix (List.prefix_append _ _)

theorem Retraces.tail {rest : List String} {next : Place} (h : t.Retraces here (name :: rest))
    (hnext : ∀ names, Place.along here (name :: names) = Place.along next names) :
    t.Retraces next rest := by
  intro before hbefore
  rw [← hnext]
  exact h (name :: before) (List.cons_prefix_cons.2 ⟨rfl, hbefore⟩)

/-- **A way leads where its names do by their text**, seen from the root, if
double dots only take back what directories led to. -/
theorem Leads.along {names : List String} (hhere : t.Directory here)
    (hnames : ∀ name ∈ names, IsName name) (hretraces : t.Retraces here names)
    (h : t.Leads here names place node) : t.Leads [] (Place.along here names) place node := by
  -- Up to the last double dots the way stays on directories; behind them links may be met.
  have hroot : t.Directory ([] ++ here) := hhere
  induction names generalizing here with
  | nil =>
    rw [Place.along_nil, ← List.append_nil here]
    exact hroot.leads h
  | cons name rest ih =>
    by_cases hdots : ".." ∈ name :: rest
    · rw [List.forall_mem_cons] at hnames
      rcases h.cons_cases with ⟨rfl, hrest⟩ | ⟨rfl, hrest⟩ | ⟨hdot, hdouble, hcases⟩
      · exact ih hhere hnames.2 (hretraces.tail (Place.along_dot here)) hrest hhere
      · have hplain : ".." ∉ here := fun hmem => (hhere.plain _ hmem).ne_dots rfl
        rw [Place.along_dots hplain]
        exact ih hhere.dropLast hnames.2 (hretraces.tail (Place.along_dots hplain)) hrest
          hhere.dropLast
      · have hname : IsPlain name := ⟨hnames.1, hdot, hdouble⟩
        have hnext := hretraces.directory hname hnames.2
          ((List.mem_cons.1 hdots).resolve_left (Ne.symm hdouble))
        have hnode := hnext.directory _ (List.prefix_refl _)
        rw [Place.along_plain hname]
        rcases hcases with ⟨-, hrest⟩ | ⟨content, executable, hfile, -⟩ | ⟨target, hlink, -⟩
        · exact ih hnext hnames.2 (hretraces.tail (Place.along_plain hname here)) hrest hnext
        · cases hnode.symm.trans hfile
        · cases hnode.symm.trans hlink
    · rw [Place.along_of_plain hdots hnames]
      exact hroot.leads (h.undots (undots_filter (name :: rest)))

end FileTree

end Disasm
