import Disasm.Proofs.NameWalk
import Disasm.Proofs.ProbeEnd
import Mathlib.Data.List.Induction
/-!
# Canonical entries — what a path of this machine is resolved to

Resolving a path of this machine always returns (`resolve_canonical`):
nothing, if the walk along the path is lost, and otherwise the entry of a
settled place, which is resolved to itself. The system takes no other way.
What it finds along a path is what the path resolves to
(`found_of_canonical`), and where it goes along a path to the end, the path
is resolved, as long as every place can be asked for by its text
(`canonical_of_nodeAt`).
-/

namespace Disasm

open Act

namespace FileTree

variable {t : FileTree} {cwd here p q place : Place} {name path target : String} {node : Node}
variable {names rest : List String}

/-! ## Settled places -/

/-- A settled place other than the root is a plain name in a directory. -/
theorem Settled.last {parent : Place} (h : t.Settled (parent ++ [name])) :
    t.Directory parent ∧ IsPlain name ∧
      ∀ target, t.node? (parent ++ [name]) ≠ some (.link target) := by
  generalize hp : parent ++ [name] = p at h
  cases h with
  | directory hdir =>
    subst hp
    have hnode := hdir.directory _ (List.prefix_refl _)
    refine ⟨hdir.of_prefix (List.prefix_append parent [name]), hdir.plain name (by simp), ?_⟩
    rw [hnode]
    exact fun _ hlink => by cases hlink
  | file hparent hname hnode =>
    obtain ⟨rfl, hlast⟩ := List.append_inj' hp rfl
    cases hlast
    exact ⟨hparent, hname, not_link_of_file hnode⟩

theorem Settled.plain (h : t.Settled p) : ∀ name ∈ p, IsPlain name := by
  rcases List.eq_nil_or_concat' p with rfl | ⟨parent, name, rfl⟩
  · simp
  · obtain ⟨hparent, hname, -⟩ := h.last
    exact hparent.plain_concat hname

/-- There is no link on the way to a settled place, nor at it. -/
theorem Settled.unlinked (h : t.Settled p) (hq : q <+: p) (target : String) :
    t.node? q ≠ some (.link target) := by
  rcases List.eq_nil_or_concat' p with rfl | ⟨parent, name, rfl⟩
  · rw [List.prefix_nil.1 hq]
    exact fun hlink => by cases hlink
  · obtain ⟨hparent, -, hend⟩ := h.last
    rcases List.prefix_concat_iff.1 hq with rfl | hq
    · exact hend target
    · rw [hparent.directory q hq]
      exact fun hlink => by cases hlink

/-- What a stretch finds at its end is no link, if links are followed, and so
it is found without following any. -/
theorem stretch_found {directory : Bool}
    (h : t.stretch true directory here names = .found place node) (follow : Bool) :
    t.stretch follow directory here names = .found place node := by
  induction names generalizing here with
  | nil => exact h
  | cons name rest ih =>
    rw [stretch] at h ⊢
    split at h
    · cases h
    rename_i hsearch
    rw [if_neg hsearch]
    split at h
    · cases h
    rename_i hlong
    rw [if_neg hlong]
    split at h
    · rename_i hdot
      rw [if_pos hdot]
      exact ih h
    rename_i hdot
    rw [if_neg hdot]
    split at h
    · rename_i hdots
      rw [if_pos hdots]
      exact ih h
    rename_i hdots
    rw [if_neg hdots]
    rcases hnode : t.node? (here ++ [name]) with _ | _ | ⟨content, executable⟩ | target
    · rw [hnode] at h
      exact h
    · rw [hnode] at h
      exact ih h
    · rw [hnode] at h
      exact h
    · rw [hnode] at h
      simp at h

/-- **What the system finds along the text of a settled place stands there**,
and is found from anywhere, with links followed or not. -/
theorem Settled.nodeAt (h : t.Settled p) (hfound : t.nodeAt cwd true p.text = .ok (place, node)) :
    place = p ∧ t.node? p = some node ∧
      ∀ other follow, t.nodeAt other follow p.text = .ok (p, node) := by
  have hnames : ∀ name ∈ p, IsName name := fun name hname => (h.plain name hname).isName
  obtain ⟨hnull, hlong, hwalk⟩ := (nodeAt_text_iff hnames).1 hfound
  rw [walk] at hwalk
  suffices hstretch : t.stretch true (Text.endsWith p.text "/") [] p = .found p node ∧
      place = p ∧ t.node? p = some node by
    refine ⟨hstretch.2.1, hstretch.2.2, fun other follow => ?_⟩
    refine (nodeAt_text_iff hnames).2 ⟨hnull, hlong, ?_⟩
    rw [walk, stretch_found hstretch.1 follow]
  rcases List.eq_nil_or_concat' p with rfl | ⟨parent, name, rfl⟩
  · cases hwalk
    exact ⟨rfl, rfl, rfl⟩
  · obtain ⟨hparent, hname, hend⟩ := h.last
    rw [Place.endsWith_text hname.isName, stretch_parent hparent hname hfound] at hwalk ⊢
    rcases stretch_last hname (fun _ => hend) with ⟨code, hfail⟩ | hmissing | ⟨found, hlast, hat⟩
    · rw [hfail] at hwalk
      cases hwalk
    · rw [hmissing] at hwalk
      cases hwalk
    · rw [hlast] at hwalk
      cases hwalk
      exact ⟨hlast, rfl, hat⟩

/-- A settled place that the system finds is resolved to itself. -/
theorem Settled.resolveBy_self (h : t.Settled p)
    (hfound : t.nodeAt cwd true p.text = .ok (place, node))
    (through : Place → String → Except Failure Place) : t.resolveBy through [] p = .ok p := by
  induction p using List.reverseRecOn generalizing place node with
  | nil => rfl
  | append_singleton parent name ih =>
    obtain ⟨-, hnode, hlook⟩ := h.nodeAt hfound
    obtain ⟨hparent, hname, hend⟩ := h.last
    have habove := ih (.directory hparent) (nodeAt_parent hparent hname hfound cwd)
    rw [resolveBy_append, habove]
    change t.resolveBy through parent [name] = _
    rw [resolveBy_cons hname.ne_dot hname.ne_dots, hlook]
    cases node with
    | directory => rfl
    | file content executable => rfl
    | link target => exact absurd hnode (hend target)

theorem Settled.canonical_text (h : t.Settled p)
    (hfound : t.nodeAt cwd true p.text = .ok (place, node)) (other : Place) :
    t.canonical other p.text = .ok p := by
  have hnames : ∀ name ∈ p, IsName name := fun name hname => (h.plain name hname).isName
  rw [canonical, startOf, if_pos (Place.startsWith_text p), Place.pathNames_text hnames]
  exact h.resolveBy_self hfound _

/-! ## The system's way -/

/-- **What the system finds along a rooted path is what the path resolves
to.** -/
theorem found_of_canonical (hroot : Text.startsWith path "/" = true)
    (hcanonical : t.canonical cwd path = .ok p)
    (hfound : t.nodeAt cwd true path = .ok (place, node)) :
    place = p ∧ t.node? p = some node := by
  have hleads := leads_of_walk (walk_of_nodeAt hfound)
  rw [canonical] at hcanonical
  rw [startOf, if_pos hroot] at hcanonical hleads
  rw [← List.append_nil (pathNames path)] at hleads
  have hnames : ∀ name ∈ pathNames path, IsName name := fun _ => isName_of_mem_pathNames
  cases remains_of_resolve (directory_root t) hnames hcanonical hleads with
  | ahead hdir hrest =>
    cases hrest
    exact ⟨rfl, hdir.directory p (List.prefix_refl p)⟩
  | done hparent hname => exact ⟨rfl, hleads.node_file⟩

/-- Every place of a tree can be asked for by its text. -/
def Addressable (t : FileTree) : Prop :=
  ∀ e ∈ t.nodes, Text.hasNull (Place.text e.1) = false ∧
    (Text.Utf8.encode (Place.text e.1)).length < maxPath

theorem Addressable.text (h : t.Addressable) (hnode : t.node? p = some node) :
    Text.hasNull p.text = false ∧ (Text.Utf8.encode p.text).length < maxPath := by
  by_cases hp : p = []
  · rw [hp]
    decide
  · rw [node?, if_neg (by simpa using hp)] at hnode
    obtain ⟨front, back, hnodes, -⟩ := List.lookup_eq_some_iff.1 hnode
    exact h (p, node) (by simp [hnodes])

/-- The system gets to a directory from the root without a link: what lies
behind it is found from there as it is from the root. -/
structure Reached (t : FileTree) (here : Place) : Prop where
  directory : t.Directory here
  along : ∀ follow directory rest,
    t.stretch follow directory [] (here ++ rest) = t.stretch follow directory here rest

theorem reached_root (t : FileTree) : t.Reached [] where
  directory := directory_root t
  along _ _ _ := rfl

theorem Reached.startOf (h : t.Reached here) (path : String) : t.Reached (startOf here path) := by
  rw [FileTree.startOf]
  split
  · exact reached_root t
  · exact h

theorem Reached.dropLast (h : t.Reached here) : t.Reached here.dropLast where
  directory := h.directory.dropLast
  along := by
    rcases List.eq_nil_or_concat' here with rfl | ⟨parent, name, rfl⟩
    · exact fun _ _ _ => rfl
    · rw [List.dropLast_concat]
      intro follow directory rest
      have hparent : t.Directory ([] ++ parent) :=
        h.directory.of_prefix (List.prefix_append parent [name])
      rcases stretch_along follow hparent with hsame | hfail
      · exact hsame directory rest
      · -- The way to the parent is a part of the way here, which does not fail.
        obtain ⟨code, hcode⟩ := hfail directory [name]
        have hhere := h.along follow directory []
        rw [List.append_nil, hcode] at hhere
        cases hhere

theorem Reached.concat (h : t.Reached here) (hsearch : t.unsearchable.contains here = false)
    (hshort : (Text.Utf8.encode name).length ≤ maxName) (hname : IsPlain name)
    (hnode : t.node? (here ++ [name]) = some .directory) : t.Reached (here ++ [name]) where
  directory := h.directory.concat hname hnode
  along follow directory rest := by
    rw [List.append_assoc, h.along, List.singleton_append, stretch,
      if_neg (ne_true_of_eq_false hsearch), if_neg (by omega), if_neg hname.ne_dot,
      if_neg hname.ne_dots, hnode]

/-- In a directory that it has got to, the system finds what stands there. -/
theorem Reached.nodeAt (h : t.Reached here) (hall : t.Addressable)
    (hsearch : t.unsearchable.contains here = false)
    (hshort : (Text.Utf8.encode name).length ≤ maxName) (hname : IsPlain name)
    (hnode : t.node? (here ++ [name]) = some node) {follow : Bool}
    (hend : follow = true → ∀ target, node ≠ .link target) (cwd : Place) :
    t.nodeAt cwd follow (Place.text (here ++ [name])) = .ok (here ++ [name], node) := by
  have hnames : ∀ other ∈ here ++ [name], IsName other :=
    fun other hother => (h.directory.plain_concat hname other hother).isName
  have hfound : t.stretch follow false here [name] = .found (here ++ [name]) node := by
    rw [stretch, if_neg (ne_true_of_eq_false hsearch), if_neg (by omega), if_neg hname.ne_dot,
      if_neg hname.ne_dots, hnode]
    cases node with
    | directory => rfl
    | file content executable => rfl
    | link target =>
      cases follow with
      | false => rfl
      | true => exact absurd rfl (hend rfl target)
  refine (nodeAt_text_iff hnames).2 ⟨(hall.text hnode).1, (hall.text hnode).2, ?_⟩
  rw [Place.endsWith_text hname.isName, walk, h.along, hfound]

/-- The system finds the directories that it has got to. -/
theorem Reached.nodeAt_self (h : t.Reached here) (hall : t.Addressable) (cwd : Place) :
    t.nodeAt cwd true here.text = .ok (here, .directory) := by
  have hnames : ∀ name ∈ here, IsName name :=
    fun name hname => (h.directory.plain name hname).isName
  have htext := hall.text (h.directory.directory here (List.prefix_refl here))
  have hhere := h.along true (Text.endsWith here.text "/") []
  rw [List.append_nil] at hhere
  refine (nodeAt_text_iff hnames).2 ⟨htext.1, htext.2, ?_⟩
  rw [walk, hhere]
  rfl

/-- The ways the system's walk can go on at a name. -/
theorem walk_cons_cases {budget : Nat} {directory : Bool} (hname : IsName name)
    (h : t.walk true budget directory here (name :: names) = .ok (.node place node)) :
    t.unsearchable.contains here = false ∧ (Text.Utf8.encode name).length ≤ maxName ∧
      ((name = "." ∧ t.walk true budget directory here names = .ok (.node place node)) ∨
        (name = ".." ∧ t.walk true budget directory here.dropLast names = .ok (.node place node)) ∨
        (IsPlain name ∧
          ((t.node? (here ++ [name]) = some .directory ∧
              t.walk true budget directory (here ++ [name]) names = .ok (.node place node)) ∨
            (∃ content executable, t.node? (here ++ [name]) = some (.file content executable) ∧
              names = [] ∧ place = here ++ [name] ∧ node = .file content executable) ∨
            ∃ target fewer further, t.node? (here ++ [name]) = some (.link target) ∧
              budget = fewer + 1 ∧ t.walk true fewer further (FileTree.startOf here target)
                (pathNames target ++ names) = .ok (.node place node)))) := by
  rw [walk, stretch] at h
  by_cases hsearch : t.unsearchable.contains here = true
  · rw [if_pos hsearch] at h
    cases h
  by_cases hlong : maxName < (Text.Utf8.encode name).length
  · rw [if_neg hsearch, if_pos hlong] at h
    cases h
  rw [if_neg hsearch, if_neg hlong] at h
  refine ⟨Bool.eq_false_iff.2 hsearch, by omega, ?_⟩
  by_cases hdot : name = "."
  · rw [if_pos hdot] at h
    exact .inl ⟨hdot, by rw [walk]; exact h⟩
  by_cases hdots : name = ".."
  · rw [if_neg hdot, if_pos hdots] at h
    exact .inr (.inl ⟨hdots, by rw [walk]; exact h⟩)
  rw [if_neg hdot, if_neg hdots] at h
  refine .inr (.inr ⟨⟨hname, hdot, hdots⟩, ?_⟩)
  rcases hnode : t.node? (here ++ [name]) with _ | _ | ⟨content, executable⟩ | target
  · rw [hnode] at h
    by_cases hlast : names.isEmpty = true
    · simp only [if_pos hlast] at h
      cases h
    · simp only [if_neg hlast] at h
      cases h
  · rw [hnode] at h
    exact .inl ⟨rfl, by rw [walk]; exact h⟩
  · rw [hnode] at h
    by_cases hlast : (names.isEmpty && !directory) = true
    · simp only [if_pos hlast] at h
      cases h
      rw [Bool.and_eq_true, List.isEmpty_iff] at hlast
      exact .inr (.inl ⟨content, executable, rfl, hlast.1, rfl, rfl⟩)
    · simp only [if_neg hlast] at h
      cases h
  · rw [hnode] at h
    simp only [Bool.not_true, Bool.and_false, Bool.false_and, Bool.false_eq_true, if_false] at h
    rcases budget with _ | fewer
    · cases h
    · by_cases hempty : target.isEmpty = true
      · simp only [if_pos hempty] at h
        cases h
      · simp only [if_neg hempty] at h
        exact .inr (.inr ⟨target, fewer, _, rfl, rfl, h⟩)

/-! ### Resolving what the system goes along -/

section Resolving

variable {depth : Nat} {found : Place}

theorem resolve_enter (hname : IsPlain name)
    (hlook : t.nodeAt [] false (Place.text (here ++ [name])) = .ok (found, node))
    (hplain : ∀ target, node ≠ .link target) :
    t.resolve depth here (name :: rest) = t.resolve depth (here ++ [name]) rest := by
  obtain ⟨through, hby⟩ := exists_resolveBy t depth
  rw [hby, resolveBy_cons hname.ne_dot hname.ne_dots, hlook]
  cases node with
  | directory => rfl
  | file content executable => rfl
  | link target => exact absurd rfl (hplain target)

theorem resolve_follow (hname : IsPlain name)
    (hlook : t.nodeAt [] false (Place.text (here ++ [name])) = .ok (found, .link target)) :
    t.resolve (depth + 1) here (name :: rest) =
      t.resolve depth (startOf here target) (pathNames target) >>=
        fun q => t.resolve (depth + 1) q rest := by
  rw [resolve, resolveBy_cons hname.ne_dot hname.ne_dots, hlook]
  change (t.resolve depth (startOf (here ++ [name]).dropLast target) (pathNames target) >>= _) = _
  rw [List.dropLast_concat]

end Resolving

/-- What is left of the system's walk once its beginning has been resolved:
it goes on from a directory, or it is at its end. -/
inductive Left (t : FileTree) (budget : Nat) : Place → List String → Place → Node → Prop
  | ahead {here place : Place} {rest : List String} {node : Node} {fewer : Nat}
      {directory : Bool} : t.Reached here → fewer ≤ budget →
      t.walk true fewer directory here rest = .ok (.node place node) →
      Left t budget here rest place node
  | done {place : Place} {node : Node} :
      (∀ cwd, t.nodeAt cwd true place.text = .ok (place, node)) →
      Left t budget place [] place node

theorem Left.mono {budget more : Nat} (h : t.Left budget q rest place node)
    (hmore : budget ≤ more) : t.Left more q rest place node := by
  cases h with
  | ahead hhere hfewer hwalk => exact .ahead hhere (by omega) hwalk
  | done hfound => exact .done hfound

/-- **The beginning of a way that the system goes along is resolved.** Links
are nested no deeper than the system follows them. -/
theorem resolve_of_walk (hall : t.Addressable) {budget depth : Nat} {directory : Bool}
    (hdepth : budget ≤ depth) (hhere : t.Reached here) (hnames : ∀ name ∈ names, IsName name)
    (h : t.walk true budget directory here (names ++ rest) = .ok (.node place node)) :
    ∃ q, t.resolve depth here names = .ok q ∧ t.Left budget q rest place node := by
  -- Behind a link the walk has fewer links left to follow, along the target and along the rest.
  induction budget using Nat.strongRecOn generalizing depth directory here names rest with
  | ind budget ihb =>
    obtain ⟨through, hby⟩ := exists_resolveBy t depth
    induction names generalizing here with
    | nil => exact ⟨here, by rw [hby]; rfl, .ahead hhere (Nat.le_refl _) h⟩
    | cons name names ih =>
      rw [List.forall_mem_cons] at hnames
      obtain ⟨hsearch, hshort, hways⟩ := walk_cons_cases hnames.1 h
      have hlook : ∀ {stands}, t.node? (here ++ [name]) = some stands → IsPlain name →
          t.nodeAt [] false (Place.text (here ++ [name])) = .ok (here ++ [name], stands) :=
        fun hnode hname => hhere.nodeAt hall hsearch hshort hname hnode Bool.noConfusion []
      rcases hways with ⟨hdot, hwalk⟩ | ⟨hdots, hwalk⟩ | ⟨hname, ⟨hnode, hwalk⟩ |
        ⟨content, executable, hnode, hend, rfl, rfl⟩ | ⟨target, fewer, further, hnode, rfl, hwalk⟩⟩
      · rw [hby, resolveBy, if_pos hdot, ← hby]
        exact ih hhere hnames.2 hwalk
      · rw [hby, resolveBy, hdots, if_neg (by decide), if_pos rfl, ← hby]
        exact ih hhere.dropLast hnames.2 hwalk
      · rw [resolve_enter hname (hlook hnode hname) fun _ => Node.noConfusion]
        exact ih (hhere.concat hsearch hshort hname hnode) hnames.2 hwalk
      · obtain ⟨rfl, rfl⟩ := List.append_eq_nil_iff.1 hend
        rw [resolve_enter hname (hlook hnode hname) fun _ => Node.noConfusion, hby]
        exact ⟨_, rfl, .done (hhere.nodeAt hall hsearch hshort hname hnode
          fun _ _ => Node.noConfusion)⟩
      · obtain ⟨depth, rfl⟩ : ∃ less, depth = less + 1 := ⟨depth - 1, by omega⟩
        obtain ⟨q, hq, hleft⟩ : ∃ q, t.resolve depth (startOf here target) (pathNames target) =
            .ok q ∧ t.Left fewer q (names ++ rest) place node :=
          ihb fewer (by omega) (by omega) (hhere.startOf target)
            (fun _ => isName_of_mem_pathNames) hwalk
        rw [resolve_follow hname (hlook hnode hname), hq]
        generalize hahead : names ++ rest = ahead at hleft
        cases hleft with
        | @ahead _ _ _ still _ hreached hfewer hwalk =>
          subst hahead
          have hdeep : still ≤ depth + 1 := by omega
          obtain ⟨last, hlast, hleft⟩ := ihb still (by omega) hdeep hreached hnames.2 hwalk
          exact ⟨last, hlast, hleft.mono (by omega)⟩
        | done hfound =>
          obtain ⟨rfl, rfl⟩ := List.append_eq_nil_iff.1 hahead
          exact ⟨_, rfl, .done hfound⟩

/-- **A path that the system goes along to the end is resolved**, and the
place is found again. -/
theorem canonical_of_nodeAt (hall : t.Addressable) (hroot : Text.startsWith path "/" = true)
    (h : t.nodeAt cwd true path = .ok (place, node)) :
    ∃ p found, t.canonical cwd path = .ok p ∧ t.nodeAt cwd true p.text = .ok found := by
  have hwalk := walk_of_nodeAt h
  rw [startOf, if_pos hroot, ← List.append_nil (pathNames path)] at hwalk
  have hdepth : maxLinks ≤ t.depthBound := by
    rw [depthBound]
    omega
  obtain ⟨p, hp, hleft⟩ := resolve_of_walk hall hdepth (reached_root t)
    (fun _ => isName_of_mem_pathNames) hwalk
  rw [canonical, startOf, if_pos hroot]
  cases hleft with
  | ahead hreached _ _ => exact ⟨p, _, hp, hreached.nodeAt_self hall cwd⟩
  | done hfound => exact ⟨_, _, hp, hfound cwd⟩

end FileTree

/-! ## Entries -/

/-- The size that a node is listed with: that of a file is its length. -/
def Node.size : Node → Nat
  | .file content _ => content.length
  | _ => 0

/-- An entry is that of a place. The path leads there from the root by plain
names, with no link on the way or at the end, and kind and size are those of
what stands there, which the system finds along the path. -/
structure Entry.IsOf (e : Entry) (m : Machine) (place : Place) (node : Node) : Prop where
  path : e.path = place.text
  plain : ∀ name ∈ place, IsPlain name
  unlinked : ∀ q, q <+: place → ∀ target, m.files.node? q ≠ some (.link target)
  stands : m.files.node? place = some node
  found : m.files.nodeAt m.here true e.path = .ok (place, node)
  isDirectory : e.isDirectory = decide (node = .directory)
  size : e.size = node.size

namespace Host

open FileTree Probe Text

variable {l : Location} {m : Machine} {e : Entry} {place : Place}

/-- **Resolving a rooted path always returns**: where it does not lead to an
entry the system says so. -/
theorem exec_resolve_rooted (hroot : startsWith l.path "/" = true) (hnull : hasNull l.path = false)
    (hlinks : m.files.HasPlainLinks) :
    (resolve .here l).exec m =
      (.ok (m.files.canonical m.here l.path >>= entryAt m).toOption, m) := by
  have hend : EndsPlain (m.files.canonical m.here l.path) := by
    rw [canonical, startOf, if_pos hroot]
    exact endsPlain_resolve hlinks _ rfl (any_hasNull_pathNames hnull)
  have hsystem : ∀ f, m.files.canonical m.here l.path >>= entryAt m = .error f →
      f.isSystem = true := by
    intro f hf
    rcases error_of_bind hf with hf | ⟨place, hplace, hf⟩
    · rw [hf] at hend
      cases hend with
      | reported hsystem => exact hsystem
    · rw [hplace] at hend
      cases hend with
      | found hfree =>
        exact isSystem_of_nodeAt ((Place.hasNull_text place).trans hfree) (nodeAt_of_entryAt hf)
  rw [exec_resolve_here, exec_resolveHere, canonical_ofString hroot]
  rcases hentry : m.files.canonical m.here l.path >>= entryAt m with f | e
  · exact if_pos (hsystem f hentry)
  · rfl

/-- An entry of a settled place is that of what stands there. -/
theorem isOf_of_entryAt (hsettled : m.files.Settled place) (h : entryAt m place = .ok e) :
    ∃ node, e.IsOf m place node := by
  rw [entryAt] at h
  rcases hfound : m.files.nodeAt m.here true place.text with f | ⟨found, node⟩
  · rw [hfound] at h
    cases h
  obtain ⟨rfl, hnode, -⟩ := hsettled.nodeAt hfound
  rw [hfound] at h
  have hunlinked : ∀ q, q <+: found → ∀ target, m.files.node? q ≠ some (.link target) :=
    fun q hq => hsettled.unlinked hq
  refine ⟨node, ?_⟩
  cases node with
  | directory =>
    cases h
    exact ⟨rfl, hsettled.plain, hunlinked, hnode, hfound, rfl, rfl⟩
  | file content executable =>
    cases h
    exact ⟨rfl, hsettled.plain, hunlinked, hnode, hfound, rfl, rfl⟩
  | link target => exact absurd hnode (hunlinked found (List.prefix_refl found) target)

/-- **Resolving a path of this machine.** It returns, and nothing if the walk
along the path is at a name that is not there or at a link that leads back
to itself. An entry is that of a place without links, which is resolved to
itself and is where the system gets along the path, if it does. And where
the system does, there is an entry, unless some place has too long a path. -/
theorem resolve_canonical (l : Location) (m : Machine) (hroot : startsWith l.path "/" = true)
    (hnull : hasNull l.path = false) (hlinks : m.files.HasPlainLinks) :
    ∃ r, (resolve .here l).exec m = (.ok r, m) ∧
      (∀ s, m.files.Walks ([], pathNames l.path) s →
        m.files.AtMissing s ∨ m.files.AtCycle s → r = none) ∧
      (∀ e, r = some e →
        (∃ place node, e.IsOf m place node ∧ ∀ found,
          m.files.nodeAt m.here true l.path = .ok found → found = (place, node)) ∧
        ∀ other : Location, other.path = e.path →
          (resolve .here other).exec m = (.ok (some e), m)) ∧
      (m.files.Addressable → ∀ found,
        m.files.nodeAt m.here true l.path = .ok found → r ≠ none) := by
  have hsettled : ∀ {place}, m.files.canonical m.here l.path = .ok place → m.files.Settled place :=
    fun hplace => settled_of_canonical hroot hplace
  have hplace : ∀ {e}, (m.files.canonical m.here l.path >>= entryAt m).toOption = some e →
      ∃ place, m.files.canonical m.here l.path = .ok place ∧ entryAt m place = .ok e :=
    fun hsome => ok_of_bind (ok_of_toOption hsome)
  refine ⟨_, exec_resolve_rooted hroot hnull hlinks, ?_, ?_, ?_⟩
  · intro s hs hlost
    rw [Option.eq_none_iff_forall_ne_some]
    intro e he
    obtain ⟨place, hcanonical, -⟩ := hplace he
    rw [canonical, startOf, if_pos hroot] at hcanonical
    have hends := walks_of_resolve (.directory (directory_root m.files))
      (fun _ => isName_of_mem_pathNames) hcanonical
    exact not_lost_of_ends hends hs hlost
  · intro e he
    obtain ⟨place, hcanonical, hentry⟩ := hplace he
    obtain ⟨node, hof⟩ := isOf_of_entryAt (hsettled hcanonical) hentry
    refine ⟨⟨place, node, hof, ?_⟩, ?_⟩
    · rintro ⟨found, stands⟩ hfound
      obtain ⟨rfl, hstands⟩ := found_of_canonical hroot hcanonical hfound
      exact Prod.ext rfl (Option.some.inj (hstands.symm.trans hof.stands))
    · intro other hother
      have hfound := hof.found
      rw [hof.path] at hother hfound
      have hagain := (hsettled hcanonical).canonical_text hfound m.here
      rw [exec_resolve_rooted (hother ▸ Place.startsWith_text place)
        (hother ▸ hasNull_of_nodeAt hfound) hlinks, hother, hagain]
      exact congrArg (fun entry => (Except.ok entry, m)) (congrArg Except.toOption hentry)
  · rintro hall ⟨found, stands⟩ hfound hnone
    obtain ⟨place, again, hcanonical, hagain⟩ := canonical_of_nodeAt hall hroot hfound
    rw [hcanonical] at hnone
    change (entryAt m place).toOption = none at hnone
    rw [entryAt, hagain] at hnone
    cases hnone

/-- A machine with a link through a link and back, and one that leads to
itself. -/
def tangled : Machine where
  cwd := "/"
  env := []
  files := {
    nodes := [(["d"], .directory), (["d", "e"], .directory), (["d", "f"], .file [1, 2] false),
      (["l"], .link "d/e"), (["k"], .link "/l/.././f"), (["o"], .link "o/x")] }

theorem hasPlainLinks_tangled : tangled.files.HasPlainLinks := by
  intro p target h
  simp only [tangled, List.mem_cons, Prod.mk.injEq, Node.link.injEq, reduceCtorEq, and_false,
    false_or, List.not_mem_nil, or_false] at h
  rcases h with ⟨-, rfl⟩ | ⟨-, rfl⟩ | ⟨-, rfl⟩
  · decide
  · decide
  · decide

/-- Double dots behind a link lead on from its target, and behind a link that
leads to itself nothing is resolved. -/
theorem resolve_canonical_tangled :
    tangled.files.HasPlainLinks ∧
      (∃ e, (resolve .here { path := "/k" }).exec tangled = (.ok (some e), tangled) ∧
        e.IsOf tangled ["d", "f"] (.file [1, 2] false)) ∧
      (resolve .here { path := "//o/../k" }).exec tangled = (.ok none, tangled) := by
  refine ⟨hasPlainLinks_tangled, ?_, ?_⟩
  · obtain ⟨r, hexec, -, hentry, hsome⟩ := resolve_canonical { path := "/k" } tangled (by decide)
      (by decide) hasPlainLinks_tangled
    have hall : tangled.files.Addressable := by
      unfold Addressable
      decide +kernel
    have hfound : tangled.files.nodeAt tangled.here true "/k" =
        .ok (["d", "f"], .file [1, 2] false) := ok_of_toOption (by decide +kernel)
    obtain ⟨e, rfl⟩ := Option.ne_none_iff_exists'.1 (hsome hall _ hfound)
    obtain ⟨⟨place, node, hof, hsame⟩, -⟩ := hentry e rfl
    cases hsame _ hfound
    exact ⟨e, hexec, hof⟩
  · obtain ⟨r, hexec, hlost, -⟩ := resolve_canonical { path := "//o/../k" } tangled (by decide)
      (by decide) hasPlainLinks_tangled
    have hback : tangled.files.Step ([], ["o"]) ([], ["o", "x"]) := by
      unfold FileTree.Step
      decide +kernel
    have hcycle : tangled.files.AtCycle ([], pathNames "//o/../k") :=
      ⟨"o", ["..", "k"], ["x"], by decide +kernel, .single hback⟩
    rw [hexec, hlost _ .refl (.inr hcycle)]

end Host

end Disasm
