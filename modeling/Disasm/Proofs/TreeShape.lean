import Disasm.Proofs.Canonical
import Disasm.Proofs.Standpoint
/-!
# The shape of a file tree — what writing to a file leaves alone

A file that is there can be written to without any path leading elsewhere
afterwards. Two trees are `Alike` if they differ at most in what their
files hold. Every walk along them ends at the same place, and logging,
which may write to files, turns a tree into one that is alike. A file that
is created stands where a walk had missed it, and the same walk then ends
at it.
-/

namespace Disasm

open Act

/-- Two things are the same, or made in the same way from two files that
differ in what they hold. -/
def SameButFile {α : Type} (make : Place → Node → α) (x y : α) : Prop :=
  x = y ∨ ∃ place old new executable,
    x = make place (.file old executable) ∧ y = make place (.file new executable)

namespace FileTree

/-- What is found in a list of nodes once those at a place were replaced. -/
theorem lookup_replaced (nodes : List (Place × Node)) (p q : Place) (node : Node) :
    (nodes.map fun e => if e.1 = p then (p, node) else e).lookup q =
      if q = p then (nodes.lookup p).map fun _ => node else nodes.lookup q := by
  induction nodes with
  | nil => simp
  | cons e nodes ih =>
    obtain ⟨place, old⟩ := e
    by_cases hplace : place = p
    · subst hplace
      by_cases hq : q = place
      · simp [hq]
      · have hne : (q == place) = false := beq_false_of_ne hq
        simp only [List.map_cons, if_true, List.lookup_cons, hne, ih, if_neg hq]
    · by_cases hq : q = p
      · subst hq
        have hne : (q == place) = false := beq_false_of_ne (Ne.symm hplace)
        simp only [List.map_cons, if_neg hplace, List.lookup_cons, hne, ih, if_true]
      · simp only [List.map_cons, if_neg hplace, List.lookup_cons, ih, if_neg hq]

/-- What stands in a tree after something was put there. -/
theorem node?_put (t : FileTree) {p : Place} (hp : p ≠ []) (node : Node) (q : Place) :
    (t.put p node).node? q = if q = p then some node else t.node? q := by
  have hlist : (t.put p node).nodes.lookup q = if q = p then some node else t.nodes.lookup q := by
    rw [put]
    split
    · rename_i hany
      obtain ⟨⟨place, old⟩, hmem, hplace⟩ := List.any_eq_true.1 hany
      obtain ⟨found, hfound⟩ : ∃ found, t.nodes.lookup p = some found := by
        rw [← Option.ne_none_iff_exists', ne_eq, List.lookup_eq_none_iff]
        intro hnone
        have hne := hnone _ hmem
        rw [of_decide_eq_true hplace] at hne
        simp at hne
      rw [lookup_replaced, hfound]
      rfl
    · rename_i hnone
      have hmissing : t.nodes.lookup p = none := by
        rw [List.lookup_eq_none_iff]
        intro e he
        simp only [List.any_eq_true, decide_eq_true_eq, not_exists, not_and] at hnone
        exact bne_iff_ne.2 (Ne.symm (hnone e he))
      rw [List.lookup_append]
      by_cases hq : q = p
      · rw [hq, hmissing]
        simp
      · have hne : (q == p) = false := beq_false_of_ne hq
        simp [List.lookup_cons, hne, hq]
  rw [node?, node?, hlist]
  by_cases hq : q = p
  · rw [if_pos hq, if_pos hq, hq, if_neg (by simpa using hp)]
  · rw [if_neg hq, if_neg hq]

/-- Two trees that differ at most in what their files hold. -/
structure Alike (t u : FileTree) : Prop where
  nodes : ∀ p, SameButFile (fun _ => some) (t.node? p) (u.node? p)
  unreadable : t.unreadable = u.unreadable
  unwritable : t.unwritable = u.unwritable
  unsearchable : t.unsearchable = u.unsearchable

namespace Alike

variable {t u : FileTree} {p : Place} {follow directory : Bool}

theorem refl (t : FileTree) : Alike t t :=
  ⟨fun _ => .inl rfl, rfl, rfl, rfl⟩

/-- Writing to a file that is there leaves the shape alone. -/
theorem put (h : Alike t u) {old : Bytes} {executable : Bool}
    (hfile : u.node? p = some (.file old executable)) (new : Bytes) :
    Alike t (u.put p (.file new executable)) := by
  -- The root is a directory, whatever the nodes are.
  have hp : p ≠ [] := by
    rintro rfl
    cases hfile
  have hlists : (u.put p (.file new executable)).unreadable = u.unreadable ∧
      (u.put p (.file new executable)).unwritable = u.unwritable ∧
      (u.put p (.file new executable)).unsearchable = u.unsearchable := by
    rw [FileTree.put]
    split
    · exact ⟨rfl, rfl, rfl⟩
    · exact ⟨rfl, rfl, rfl⟩
  refine ⟨fun q => ?_, h.unreadable.trans hlists.1.symm, h.unwritable.trans hlists.2.1.symm,
    h.unsearchable.trans hlists.2.2.symm⟩
  rw [node?_put u hp]
  split
  · rename_i hq
    subst hq
    rcases h.nodes q with hsame | ⟨_, first, second, other, ht, hu⟩
    · exact .inr ⟨q, old, new, executable, hsame.trans hfile, rfl⟩
    · rw [hfile] at hu
      cases hu
      exact .inr ⟨q, first, new, executable, ht, rfl⟩
  · exact h.nodes q

theorem stretch (h : Alike t u) (here : Place) (names : List String) :
    SameButFile .found (t.stretch follow directory here names)
      (u.stretch follow directory here names) := by
  induction names generalizing here with
  | nil => exact .inl rfl
  | cons name rest ih =>
    rw [FileTree.stretch, FileTree.stretch, h.unsearchable]
    split
    · exact .inl rfl
    split
    · exact .inl rfl
    split
    · exact ih here
    split
    · exact ih here.dropLast
    -- A file ends the walk here, whatever it holds; all else is the same in both trees.
    rcases h.nodes (here ++ [name]) with hsame | ⟨_, old, new, executable, ht, hu⟩
    · rw [hsame]
      rcases u.node? (here ++ [name]) with _ | node
      · exact .inl rfl
      · cases node with
        | directory => exact ih (here ++ [name])
        | file content executable => exact .inl rfl
        | link target => exact .inl rfl
    · rw [ht, hu]
      dsimp only
      split
      · exact .inr ⟨_, old, new, executable, rfl, rfl⟩
      · exact .inl rfl

theorem walk (h : Alike t u) (budget : Nat) (directory : Bool) (here : Place)
    (names : List String) :
    SameButFile (fun place node => .ok (.node place node))
      (t.walk follow budget directory here names) (u.walk follow budget directory here names) := by
  induction budget generalizing directory here names with
  | zero =>
    rw [FileTree.walk, FileTree.walk]
    rcases h.stretch here names with hsame | ⟨place, old, new, executable, ht, hu⟩
    · rw [hsame]
      exact .inl rfl
    · rw [ht, hu]
      exact .inr ⟨place, old, new, executable, rfl, rfl⟩
  | succ budget ih =>
    rw [FileTree.walk, FileTree.walk]
    rcases h.stretch here names with hsame | ⟨place, old, new, executable, ht, hu⟩
    · rw [hsame]
      rcases u.stretch follow directory here names with _ | _ | ⟨parent, target, rest⟩ | _
      · exact .inl rfl
      · exact .inl rfl
      · dsimp only
        split
        · exact .inl rfl
        · exact ih _ _ _
      · exact .inl rfl
    · rw [ht, hu]
      exact .inr ⟨place, old, new, executable, rfl, rfl⟩

/-- **A path leads to the same place in trees that are alike.** -/
theorem nodeAt (h : Alike t u) (cwd : Place) (path : String) :
    SameButFile (fun place node => .ok (place, node)) (t.nodeAt cwd follow path)
      (u.nodeAt cwd follow path) := by
  rw [FileTree.nodeAt, FileTree.nodeAt, seek, seek]
  split
  · exact .inl rfl
  rw [lookup, lookup]
  split
  · exact .inl rfl
  split
  · exact .inl rfl
  rcases h.walk maxLinks (Text.endsWith path "/") (startOf cwd path) (pathNames path) with
    hsame | ⟨place, old, new, executable, ht, hu⟩
  · rw [hsame]
    exact .inl rfl
  · rw [ht, hu]
    exact .inr ⟨place, old, new, executable, rfl, rfl⟩

/-- A file is found again in a tree that is alike. -/
theorem file_nodeAt (h : Alike t u) {cwd place : Place} {path : String} {content : Bytes}
    {executable : Bool} (hfile : t.nodeAt cwd true path = .ok (place, .file content executable)) :
    ∃ other, u.nodeAt cwd true path = .ok (place, .file other executable) := by
  rcases h.nodeAt cwd path with hsame | ⟨found, old, new, mode, ht, hu⟩
  · exact ⟨content, hsame.symm.trans hfile⟩
  · cases ht.symm.trans hfile
    exact ⟨new, hu⟩

end Alike

/-- A file that a path leads to stands at the end of it. -/
theorem node?_of_nodeAt {t : FileTree} {cwd place : Place} {path : String} {content : Bytes}
    {executable : Bool} (h : t.nodeAt cwd true path = .ok (place, .file content executable)) :
    t.node? place = some (.file content executable) :=
  (leads_of_walk (walk_of_nodeAt h)).node_file

/-- A path leads to a file as before after the file was written to. -/
theorem nodeAt_put {t : FileTree} {cwd place : Place} {path : String} {old : Bytes}
    {executable : Bool} (h : t.nodeAt cwd true path = .ok (place, .file old executable))
    (new : Bytes) :
    (t.put place (.file new executable)).nodeAt cwd true path =
      .ok (place, .file new executable) := by
  have hfile := node?_of_nodeAt h
  have hplace : place ≠ [] := by
    rintro rfl
    cases hfile
  obtain ⟨other, hother⟩ := ((Alike.refl t).put hfile new).file_nodeAt h
  have hnew := node?_of_nodeAt hother
  rw [node?_put _ hplace, if_pos rfl] at hnew
  cases hnew
  exact hother

/-- What is found is sought successfully. -/
theorem seek_of_nodeAt {t : FileTree} {cwd place : Place} {path : String} {node : Node}
    {follow : Bool} (h : t.nodeAt cwd follow path = .ok (place, node)) :
    t.seek cwd follow path = .ok (.node place node) := by
  obtain ⟨found, hseek, h⟩ := ok_of_bind h
  cases found with
  | node found stands =>
    cases h
    exact hseek
  | missing parent name => cases h

/-! ## A file that is new -/

section New

variable {t u : FileTree} {p parent place : Place} {name : String} {node : Node}
  {follow directory : Bool}

/-- Where a walk misses a name there is nothing. -/
theorem node?_of_missing_stretch {here : Place} {names : List String}
    (h : t.stretch follow directory here names = .missing parent name) :
    t.node? (parent ++ [name]) = none := by
  induction names generalizing here with
  | nil => cases h
  | cons first rest ih =>
    rw [stretch] at h
    split at h
    · cases h
    split at h
    · cases h
    split at h
    · exact ih h
    split at h
    · exact ih h
    split at h
    · rename_i hnone
      split at h
      · cases h
        exact hnone
      · cases h
    · exact ih h
    · split at h
      · cases h
      · cases h
    · split at h
      · cases h
      · cases h

/-- A walk that misses a name misses it at once, or behind a link. -/
theorem cases_of_missing {budget : Nat} {here : Place} {names : List String}
    (h : t.walk follow budget directory here names = .ok (.missing parent name)) :
    t.stretch follow directory here names = .missing parent name ∨
      ∃ fewer start target rest, budget = fewer + 1 ∧
        t.stretch follow directory here names = .link start target rest ∧
        target.isEmpty = false ∧
        t.walk follow fewer (directory || (rest.isEmpty && Text.endsWith target "/"))
          (startOf start target) (pathNames target ++ rest) = .ok (.missing parent name) := by
  rw [walk.eq_def] at h
  dsimp only at h
  rcases hstretch : t.stretch follow directory here names with _ | _ | ⟨start, target, rest⟩ | _
  · rw [hstretch] at h
    cases h
  · rw [hstretch] at h
    cases h
    exact .inl rfl
  · rw [hstretch] at h
    cases budget with
    | zero => cases h
    | succ fewer =>
      dsimp only at h
      split at h
      · cases h
      · rename_i htarget
        exact .inr ⟨fewer, start, target, rest, rfl, rfl, by simpa using htarget, h⟩
  · rw [hstretch] at h
    cases h

theorem node?_of_missing {budget : Nat} {here : Place} {names : List String}
    (h : t.walk follow budget directory here names = .ok (.missing parent name)) :
    t.node? (parent ++ [name]) = none := by
  induction budget generalizing directory here names with
  | zero =>
    rcases cases_of_missing h with hstretch | ⟨_, _, _, _, hbudget, -⟩
    · exact node?_of_missing_stretch hstretch
    · cases hbudget
  | succ budget ih =>
    rcases cases_of_missing h with hstretch | ⟨fewer, _, _, _, hbudget, -, -, hrest⟩
    · exact node?_of_missing_stretch hstretch
    · cases hbudget
      exact ih hrest

/-- A tree with one file more than another. -/
structure Gains (t u : FileTree) (p : Place) (node : Node) : Prop where
  before : t.node? p = none
  after : u.node? p = some node
  elsewhere : ∀ q, q ≠ p → u.node? q = t.node? q
  unsearchable : u.unsearchable = t.unsearchable

/-- A stretch of a walk that ended at the place of the file before it was
there ends at the file, or is stopped by it. -/
theorem Gains.stretch {content : Bytes} {executable : Bool}
    (h : Gains t u (parent ++ [name]) (.file content executable)) (follow directory : Bool)
    (here : Place) (names : List String) :
    u.stretch follow directory here names = t.stretch follow directory here names ∨
      t.stretch follow directory here names = .failed .noEntry ∨
      t.stretch follow directory here names = .missing parent name ∧
        (u.stretch follow directory here names =
            .found (parent ++ [name]) (.file content executable) ∨
          u.stretch follow directory here names = .failed .notDirectory) := by
  induction names generalizing here with
  | nil => exact .inl rfl
  | cons first rest ih =>
    rw [FileTree.stretch, FileTree.stretch, h.unsearchable]
    split
    · exact .inl rfl
    split
    · exact .inl rfl
    split
    · exact ih here
    split
    · exact ih here.dropLast
    by_cases hplace : here ++ [first] = parent ++ [name]
    · obtain ⟨rfl, hlast⟩ := List.append_inj' hplace rfl
      cases hlast
      rw [h.before, h.after]
      dsimp only
      by_cases hrest : rest.isEmpty = true
      · rw [if_pos hrest]
        refine .inr (.inr ⟨rfl, ?_⟩)
        split
        · exact .inl rfl
        · exact .inr rfl
      · rw [if_neg hrest]
        exact .inr (.inl rfl)
    · rw [h.elsewhere _ hplace]
      rcases t.node? (here ++ [first]) with _ | _ | _ | _
      · exact .inl rfl
      · exact ih (here ++ [first])
      · exact .inl rfl
      · exact .inl rfl

/-- A walk that missed the file before it was there ends at it, or insists
on a directory there. -/
theorem Gains.walk {content : Bytes} {executable : Bool}
    (h : Gains t u (parent ++ [name]) (.file content executable)) {budget : Nat} {here : Place}
    {names : List String}
    (hmissing : t.walk follow budget directory here names = .ok (.missing parent name)) :
    u.walk follow budget directory here names =
        .ok (.node (parent ++ [name]) (.file content executable)) ∨
      u.walk follow budget directory here names = .error .notDirectory := by
  induction budget using Nat.strongRecOn generalizing directory here names with
  | ind budget ih =>
    rw [walk.eq_def]
    dsimp only
    rcases cases_of_missing hmissing with
      hlast | ⟨fewer, start, target, rest, rfl, hlink, hfull, hrest⟩
    · rcases h.stretch follow directory here names with hsame | hnone | ⟨-, hu | hu⟩
      · -- The new tree has something where the old one missed it.
        rw [hlast] at hsame
        have hgone := node?_of_missing_stretch hsame
        rw [h.after] at hgone
        cases hgone
      · rw [hlast] at hnone
        cases hnone
      · rw [hu]
        exact .inl rfl
      · rw [hu]
        exact .inr rfl
    · rcases h.stretch follow directory here names with hsame | hnone | ⟨hlast, -⟩
      · rw [hsame, hlink]
        dsimp only
        rw [if_neg (by simp [hfull])]
        exact ih fewer (Nat.lt_succ_self _) hrest
      · rw [hlink] at hnone
        cases hnone
      · rw [hlink] at hlast
        cases hlast

/-- What is sought is what the walk along the path ends at. -/
theorem walk_of_seek {cwd : Place} {path : String} {found : Found}
    (h : t.seek cwd follow path = .ok found) :
    t.walk follow maxLinks (Text.endsWith path "/") (startOf cwd path) (pathNames path) =
      .ok found := by
  rw [seek, lookup] at h
  split at h
  · cases h
  split at h
  · cases h
  split at h
  · cases h
  rcases hwalk : t.walk follow maxLinks (Text.endsWith path "/") (startOf cwd path)
    (pathNames path) with code | other
  · rw [hwalk] at h
    cases h
  · rw [hwalk] at h
    cases h
    rfl

/-- A path that led nowhere leads to the file that was created for it, if it
leads anywhere. -/
theorem Gains.nodeAt {content : Bytes} {executable : Bool}
    (h : Gains t u (parent ++ [name]) (.file content executable)) {cwd : Place} {path : String}
    (hmissing : t.seek cwd follow path = .ok (.missing parent name))
    (hfound : u.nodeAt cwd follow path = .ok (place, node)) :
    place = parent ++ [name] ∧ node = .file content executable := by
  have hafter := walk_of_nodeAt hfound
  rcases h.walk (walk_of_seek hmissing) with hfile | hstopped
  · rw [hfile] at hafter
    cases hafter
    exact ⟨rfl, rfl⟩
  · rw [hstopped] at hafter
    cases hafter

theorem gains_put (hp : p ≠ []) (hnone : t.node? p = none) (first : Node) (node : Node) :
    Gains t ((t.put p first).put p node) p node := by
  have hlists : ∀ (u : FileTree) (n : Node), (u.put p n).unsearchable = u.unsearchable := by
    intro u n
    rw [put]
    split
    · rfl
    · rfl
  refine ⟨hnone, ?_, fun q hq => ?_, by rw [hlists, hlists]⟩
  · rw [node?_put _ hp, if_pos rfl]
  · rw [node?_put _ hp, if_neg hq, node?_put _ hp, if_neg hq]

end New

end FileTree

/-! ## What keeps the shape -/

namespace Machine

theorem exec_storeAt {m : Machine} {place : Place} {old : Bytes} {executable : Bool}
    (hfile : m.files.node? place = some (.file old executable)) (content : Bytes) :
    (storeAt place content).exec m =
      (.ok ⟨⟩, { m with files := m.files.put place (.file content executable) }) := by
  rw [storeAt, exec_modify, hfile]

theorem alike_writeTo (t : FileTree) (r : Log.Record) (k : Sink) :
    (writeTo r k).Preserves fun m => t.Alike m.files := by
  intro m hm
  cases k with
  | console colored => exact hm
  | file place =>
    rw [writeTo, exec_bind_ok (exec_get m)]
    split
    · rename_i content executable hfile
      rw [exec_storeAt hfile]
      exact hm.put hfile _
    · exact hm

theorem alike_deliver (t : FileTree) (r : Log.Record) :
    (deliver r).Preserves fun m => t.Alike m.files :=
  preserves_deliver_of (fun _ _ hm => hm) fun k => alike_writeTo t r k

/-- **Logging leaves the shape of the tree alone.** -/
theorem alike_log (t : FileTree) (level : Int) (component message : String) :
    (log level component message).Preserves fun m => t.Alike m.files :=
  Preserves.bind (fun _ hm => hm) fun _ => alike_deliver t _

end Machine

end Disasm
