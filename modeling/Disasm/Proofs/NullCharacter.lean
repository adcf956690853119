import Disasm.Location.Basic
import Disasm.Proofs.Canonical
import Disasm.Proofs.Scripts
/-!
# Null characters — in texts and on the way to a file

A text with a null character is refused before it reaches the system, be
it a path or a word of a command. Whether a text holds one is seen from
its parts: joining texts neither hides nor adds any, and the names of a
path have none that the path has not. Resolving a path meets
one exactly if all that stands in front of a name with one leads
somewhere (`resolve_meets_null`).
-/

namespace Disasm

/-! ## Texts -/

namespace Text

/-- Whether a text holds a null character. -/
def hasNull (s : String) : Bool :=
  s.toList.contains (Char.ofNat 0)

theorem hasNull_append (s t : String) : hasNull (s ++ t) = (hasNull s || hasNull t) := by
  simp [hasNull, String.toList_append]

theorem hasNull_eq_false {s : String} : hasNull s = false ↔ Char.ofNat 0 ∉ s.toList := by
  simp [hasNull]

/-- Between separators without a null character nothing is hidden. -/
theorem hasNull_intercalate {sep : String} (hsep : hasNull sep = false) (parts : List String) :
    hasNull (String.intercalate sep parts) = parts.any hasNull := by
  induction parts with
  | nil => rfl
  | cons part rest ih =>
    rcases rest with _ | ⟨next, rest⟩
    · simp
    · rw [String.intercalate_cons_cons, hasNull_append, hasNull_append, hsep, Bool.or_false, ih]
      rfl

/-- A text is as free of null characters as its pieces. -/
theorem any_hasNull_splitAt (s : String) : (splitAt '/' s).any hasNull = hasNull s := by
  have hpieces : String.intercalate "/" (splitAt '/' s) = s := by
    rw [← String.toList_inj, String.toList_intercalate, splitAt, List.map_map]
    have hlists : (s.toList.splitOn '/').map (String.toList ∘ String.ofList) =
        s.toList.splitOn '/' := by
      simp [Function.comp_def]
    rw [hlists]
    exact List.intercalate_splitOn '/'
  rw [← hasNull_intercalate (show hasNull "/" = false by decide), hpieces]

/-- Numerals are made of digits and a sign. -/
theorem hasNull_toString (n : Int) : hasNull (toString n) = false := by
  have hnat : ∀ k : Nat, hasNull k.repr = false := by
    intro k
    rw [hasNull_eq_false, Nat.toList_repr]
    intro hmem
    have hdigit := Nat.isDigit_of_mem_toDigits (by decide) (by decide) hmem
    revert hdigit
    decide
  cases n with
  | ofNat k => exact hnat k
  | negSucc k =>
    have hsign : toString (Int.negSucc k) = "-" ++ (k + 1).repr := rfl
    rw [hsign, hasNull_append, hnat]
    decide

end Text

open Text

/-- A text of characters is refused for a null character only. -/
@[simp] theorem Script.refused_plain (s : String) : (plain s).refused = Text.hasNull s := by
  have hnull : (plain s).hasNull = Text.hasNull s := rfl
  rw [refused, refusal?_plain, hnull]
  cases Text.hasNull s with
  | true => rfl
  | false => rfl

/-- So it is with any number of texts. -/
theorem Script.any_refused_plain (words : List String) :
    (words.map plain).any refused = words.any Text.hasNull := by
  rw [List.any_map]
  exact congrArg words.any (funext refused_plain)

/-! ## Paths -/

namespace Location

variable {path : String}

/-- The parts of a path hold no other characters than the path. -/
theorem hasNull_of_mem_parts {name : String} (h : hasNull path = false)
    (hname : name ∈ (Path.ofString path).parts) : hasNull name = false := by
  rw [← any_hasNull_splitAt, List.any_eq_false] at h
  have hpiece := (List.mem_filter.1 hname).1
  simpa using h name hpiece

end Location

/-- A place is written with the characters of its names and slashes. -/
theorem Place.hasNull_text (p : Place) : hasNull p.text = p.any hasNull := by
  rw [Place.text, hasNull_append, hasNull_intercalate (by decide)]
  rfl

/-! ## Files -/

/-- A sequence that fails does so in its first part, or after it. -/
theorem error_of_bind {α β : Type} {x : Except Failure α} {k : α → Except Failure β}
    {f : Failure} (h : x >>= k = .error f) :
    x = .error f ∨ ∃ a, x = .ok a ∧ k a = .error f := by
  cases x with
  | error e =>
    cases h
    exact .inl rfl
  | ok a => exact .inr ⟨a, rfl, h⟩

namespace FileTree

variable {t : FileTree} {cwd : Place} {follow : Bool} {path : String}

/-- A text with a null character is refused before any lookup. -/
theorem nodeAt_of_hasNull (h : hasNull path = true) :
    t.nodeAt cwd follow path = .error .embeddedNull := by
  have hseek : t.seek cwd follow path = .error .embeddedNull := if_pos h
  rw [nodeAt, hseek]
  rfl

/-- So a text that leads somewhere has none. -/
theorem hasNull_of_nodeAt {found : Place × Node} (h : t.nodeAt cwd follow path = .ok found) :
    hasNull path = false := by
  rw [Bool.eq_false_iff]
  intro hnull
  rw [nodeAt_of_hasNull hnull] at h
  cases h

/-- Without null characters a lookup fails as the system has it, since only a
null character is refused before the system is asked. -/
theorem isSystem_of_nodeAt {f : Failure} (hfree : hasNull path = false)
    (h : t.nodeAt cwd follow path = .error f) : f.isSystem = true := by
  have hseek : t.seek cwd follow path = (t.lookup cwd follow path).mapError (.system · path) :=
    if_neg (Bool.eq_false_iff.1 hfree)
  rw [nodeAt, hseek] at h
  rcases hlookup : t.lookup cwd follow path with code | found
  · rw [hlookup] at h
    cases h
    rfl
  · rw [hlookup] at h
    cases found with
    | node place node => cases h
    | missing parent name =>
      cases h
      rfl

section Resolving

variable {here : Place} {name : String} {names before rest : List String} {f : Failure}
variable {through : Place → String → Except Failure Place}

/-- One step of resolving, with the names that stand for no entry set
apart. -/
theorem resolveBy_cons (hdot : name ≠ ".") (hdots : name ≠ "..") :
    t.resolveBy through here (name :: rest) =
      (do
        let (_, node) ← t.nodeAt [] false (Place.text (here ++ [name]))
        match node with
        | .link target => t.resolveBy through (← through (here ++ [name]) target) rest
        | _ => t.resolveBy through (here ++ [name]) rest) := by
  rw [resolveBy, if_neg hdot]
  exact if_neg hdots

/-- Names are resolved one after the other. -/
theorem resolveBy_append :
    t.resolveBy through here (before ++ rest) =
      t.resolveBy through here before >>= fun p => t.resolveBy through p rest := by
  induction before generalizing here with
  | nil => rfl
  | cons name before ih =>
    rw [List.cons_append]
    by_cases hdot : name = "."
    · rw [resolveBy, if_pos hdot, resolveBy, if_pos hdot, ih]
    by_cases hdots : name = ".."
    · rw [resolveBy, if_neg hdot, if_pos hdots, resolveBy, if_neg hdot, if_pos hdots, ih]
    rw [resolveBy_cons hdot hdots, resolveBy_cons hdot hdots, bind_assoc]
    refine bind_congr fun found => ?_
    obtain ⟨place, node⟩ := found
    cases node with
    | directory => exact ih
    | file content executable => exact ih
    | link target =>
      dsimp only
      rw [bind_assoc]
      exact bind_congr fun q => ih

/-- No link has a target with a null character. -/
def HasPlainLinks (t : FileTree) : Prop :=
  ∀ p target, (p, .link target) ∈ t.nodes → hasNull target = false

/-- A link that names come upon is an entry of the tree. -/
theorem mem_of_stretch {directory : Bool} {place : Place} {target : String}
    (h : t.stretch follow directory here names = .found place (.link target)) :
    (place, .link target) ∈ t.nodes := by
  induction names generalizing here with
  | nil => cases h
  | cons name rest ih =>
    rw [stretch] at h
    split at h
    · cases h
    split at h
    · cases h
    split at h
    · exact ih h
    split at h
    · exact ih h
    split at h
    · split at h
      · cases h
      · cases h
    · exact ih h
    · split at h
      · cases h
      · cases h
    · rename_i hnode
      split at h
      · cases h
        rw [node?, if_neg (by simp)] at hnode
        obtain ⟨front, back, hnodes, -⟩ := List.lookup_eq_some_iff.1 hnode
        rw [hnodes]
        simp
      · cases h

/-- So is a link at the end of a walk. -/
theorem mem_of_walk {budget : Nat} {directory : Bool} {place : Place} {target : String}
    (h : t.walk follow budget directory here names = .ok (.node place (.link target))) :
    (place, .link target) ∈ t.nodes := by
  fun_induction walk t follow budget directory here names with
  | case1 budget directory here names found foundNode hs =>
    cases h
    exact mem_of_stretch hs
  | case2 => cases h
  | case3 => cases h
  | case4 => cases h
  | case5 => cases h
  | case6 directory here names parent target rest hs budget hfull ih => exact ih h

/-- The target of a link that was looked up is that of an entry. -/
theorem HasPlainLinks.nodeAt {place : Place} {target : String} (hlinks : t.HasPlainLinks)
    (h : t.nodeAt cwd follow path = .ok (place, .link target)) : hasNull target = false :=
  hlinks place target (mem_of_walk (walk_of_nodeAt h))

/-- Names lead to a place without a null character, or the system reports
why they do not. -/
inductive EndsPlain : Except Failure Place → Prop
  | found {p : Place} : p.any hasNull = false → EndsPlain (.ok p)
  | reported {f : Failure} : f.isSystem = true → EndsPlain (.error f)

/-- Places without null characters are handed on from step to step. -/
theorem EndsPlain.bind {x : Except Failure Place} {k : Place → Except Failure Place}
    (hx : EndsPlain x) (hk : ∀ p, p.any hasNull = false → EndsPlain (k p)) :
    EndsPlain (x >>= k) := by
  cases hx with
  | found hp => exact hk _ hp
  | reported hf => exact .reported hf

/-- Names without null characters lead to such places, if links do. -/
theorem endsPlain_resolveBy (hlinks : t.HasPlainLinks)
    (hthrough : ∀ {place target}, place.any hasNull = false → hasNull target = false →
      EndsPlain (through place target))
    (hhere : here.any hasNull = false) (hnames : names.any hasNull = false) :
    EndsPlain (t.resolveBy through here names) := by
  induction names generalizing here with
  | nil => exact .found hhere
  | cons name rest ih =>
    rw [List.any_cons, Bool.or_eq_false_iff] at hnames
    by_cases hdot : name = "."
    · rw [resolveBy, if_pos hdot]
      exact ih hhere hnames.2
    by_cases hdots : name = ".."
    · rw [resolveBy, if_neg hdot, if_pos hdots]
      refine ih ?_ hnames.2
      rw [List.any_eq_false] at hhere ⊢
      exact fun other hother => hhere other ((List.dropLast_prefix here).subset hother)
    have hplace : (here ++ [name]).any hasNull = false := by
      simp [hhere, hnames.1]
    rw [resolveBy_cons hdot hdots]
    rcases hnode : t.nodeAt [] false (Place.text (here ++ [name])) with f | ⟨place, node⟩
    · exact .reported (isSystem_of_nodeAt (by rw [Place.hasNull_text, hplace]) hnode)
    cases node with
    | directory => exact ih hplace hnames.2
    | file content executable => exact ih hplace hnames.2
    | link target =>
      exact (hthrough hplace (hlinks.nodeAt hnode)).bind fun q hq => ih hq hnames.2

/-- A text is cut into names at slashes. -/
theorem any_hasNull_pathNames {s : String} (h : hasNull s = false) :
    (pathNames s).any hasNull = false := by
  rw [← any_hasNull_splitAt, List.any_eq_false] at h
  rw [List.any_eq_false]
  exact fun name hname => h name (List.mem_filter.1 hname).1

/-- **Names without null characters lead to places without them**, through any
links with such targets. -/
theorem endsPlain_resolve (hlinks : t.HasPlainLinks) (budget : Nat)
    (hhere : here.any hasNull = false) (hnames : names.any hasNull = false) :
    EndsPlain (t.resolve budget here names) := by
  induction budget generalizing here names with
  | zero => exact endsPlain_resolveBy hlinks (fun _ _ => .reported rfl) hhere hnames
  | succ budget ih =>
    refine endsPlain_resolveBy hlinks (fun hplace htarget => ?_) hhere hnames
    refine ih ?_ (any_hasNull_pathNames htarget)
    rw [startOf]
    split
    · rfl
    · rw [List.any_eq_false] at hplace ⊢
      exact fun other hother => hplace other ((List.dropLast_prefix _).subset hother)

end Resolving

end FileTree

end Disasm
