import Disasm.Proofs.JsonIntegers
import Disasm.Proofs.JsonReading
/-!
# Members of an object — the last value of a name is its value

The reader keeps one member for each name: where a name comes again, the
later value takes the place of the earlier one. `entriesOf` reads the same
texts and keeps every member as it stands. An object that was read is what
`gather` makes of them (`read_object_iff`), its names are all different, and
looking a name up gives the last value that stands in the text for it.
-/

namespace Disasm.Json

/-! ## Members as they stand in the text -/

/-- The member in front of a text, and what follows it after blanks. -/
def entry (fuel depth : Nat) : List Char → Except ReadFault ((Script × Json) × List Char)
  | '"' :: rest => do
    let (name, rest) ← string rest
    match skipBlanks rest with
    | ':' :: rest => do
      let (v, rest) ← value fuel depth (skipBlanks rest)
      return ((name, v), skipBlanks rest)
    | _ => .error .malformed
  | _ => .error .malformed

/-- The members of an object after its bracket, up to the closing one, as
they stand in the text. -/
def entries : (fuel depth : Nat) → List Char →
    Except ReadFault (List (Script × Json) × List Char)
  | 0, _, _ => .error .malformed
  | fuel + 1, depth, cs => do
    let (e, rest) ← entry fuel depth cs
    match rest with
    | '\x7d' :: rest => return ([e], rest)
    | ',' :: rest =>
      let (es, rest) ← entries fuel depth (skipBlanks rest)
      return (e :: es, rest)
    | _ => .error .malformed

/-- The members of an object in front of a text. -/
def opened (fuel depth : Nat) : List Char → Except ReadFault (List (Script × Json) × List Char)
  | '\x7b' :: rest =>
    if depth = 0 then .error (.tooDeep false)
    else if (skipBlanks rest).head? = some '\x7d' then .ok ([], (skipBlanks rest).tail)
    else entries fuel (depth - 1) (skipBlanks rest)
  | _ => .error .malformed

/-- The members of the object that a text holds, as they stand there. -/
def entriesOf (s : String) (depth : Nat) : Except ReadFault (List (Script × Json)) := do
  let cs := s.toList
  let (es, rest) ← opened (2 * cs.length + 1) depth (skipBlanks cs)
  if (skipBlanks rest).isEmpty then return es else .error .malformed

/-- Members put into an object one after another. -/
def gather (held es : List (Script × Json)) : List (Script × Json) :=
  es.foldl (fun held (name, v) => setMember held name v) held

/-! ## The reader gathers them -/

/-- The reader puts one member after another into the object it holds. -/
theorem members_succ (fuel depth : Nat) (held : List (Script × Json)) (cs : List Char) :
    members (fuel + 1) depth held cs = (do
      let (e, rest) ← entry fuel depth cs
      match rest with
      | '\x7d' :: rest => return (setMember held e.1 e.2, rest)
      | ',' :: rest => members fuel depth (setMember held e.1 e.2) (skipBlanks rest)
      | _ => .error .malformed) := by
  rw [members.eq_def]
  dsimp only
  split
  · rename_i literal
    rw [entry]
    rcases string literal with f | ⟨name, after⟩
    · rfl
    dsimp only [bind, Except.bind]
    rcases skipBlanks after with _ | ⟨c, colon⟩
    · rfl
    by_cases hc : c = ':'
    · subst hc
      simp only
      rcases value fuel depth (skipBlanks colon) with f | ⟨v, further⟩
      · rfl
      · rfl
    · simp [hc]
  · rename_i hquote
    rw [entry]
    · rfl
    · exact hquote

/-- **The reader gathers the members that stand in the text**, into those it
holds already. -/
theorem members_eq_gather (fuel depth : Nat) (held : List (Script × Json)) (cs : List Char) :
    members fuel depth held cs =
      (entries fuel depth cs).map fun (es, rest) => (gather held es, rest) := by
  induction fuel generalizing held cs with
  | zero =>
    rw [members.eq_def, entries.eq_def]
    rfl
  | succ fuel ih =>
    rw [members_succ, entries]
    rcases entry fuel depth cs with f | ⟨e, rest⟩
    · rfl
    dsimp only [bind, Except.bind]
    split
    · rfl
    · rename_i tail
      -- What comes next goes into the object that holds this member.
      rw [ih]
      rcases entries fuel depth (skipBlanks tail) with f | ⟨es, last⟩
      · rfl
      · rfl
    · rfl

theorem exists_num_of_number {negative : Bool} {cs rest : List Char} {v : Json}
    (h : number negative cs = .ok (v, rest)) : ∃ n, v = .num n := by
  rw [number] at h
  dsimp only at h
  split at h
  · cases h
  split at h
  · split at h
    · cases h
    · cases h
      exact ⟨_, rfl⟩
  · cases h
    exact ⟨_, rfl⟩

theorem fields?_of_atom {cs rest : List Char} {v : Json} (h : atom cs = .ok (v, rest)) :
    v.fields? = none := by
  have hwords : ∀ w ∈ words, w.2.fields? = none := by
    simp [words, fields?]
  obtain ⟨text, hmem⟩ | ⟨negative, ds, hnumber⟩ := cases_atom h
  · exact hwords _ hmem
  · obtain ⟨n, rfl⟩ := exists_num_of_number hnumber
    rfl

theorem fields?_ofScript (s : Script) : (ofScript s).fields? = none := by
  cases s with
  | plain s => rfl
  | broken b => rfl

theorem fields?_object (members : List (Script × Json)) :
    (object members).fields? = some (named members) := by
  rw [object]
  split
  · rfl
  · rfl

/-- After the bracket of an object the reader gives what its members are
gathered to. -/
theorem value_brace (fuel depth : Nat) (inner : List Char) :
    value (fuel + 1) depth ('\x7b' :: inner) =
      (opened fuel depth ('\x7b' :: inner)).map fun (es, rest) =>
        (object (gather [] es), rest) := by
  rw [value, opened]
  split
  · rfl
  split
  · rename_i hclose
    rw [hclose]
    rfl
  · rename_i hclose
    have hopen : ¬(skipBlanks inner).head? = some '\x7d' := by
      rw [List.head?_eq_some_iff]
      rintro ⟨tail, htail⟩
      exact hclose tail htail
    rw [if_neg hopen, members_eq_gather]
    rcases entries fuel (depth - 1) (skipBlanks inner) with f | ⟨es, after⟩
    · rfl
    · rfl

/-- Only a value with that bracket is an object. -/
theorem brace_of_value {fuel depth : Nat} {cs rest : List Char} {v : Json}
    (h : value (fuel + 1) depth cs = .ok (v, rest)) (hv : v.fields?.isSome) :
    ∃ inner, cs = '\x7b' :: inner := by
  rw [value.eq_def] at h
  dsimp only at h
  split at h
  · obtain ⟨⟨s, after⟩, -, h⟩ := ok_of_bind h
    cases h
    rw [fields?_ofScript] at hv
    cases hv
  · split at h
    · cases h
    split at h
    · cases h
      cases hv
    · obtain ⟨⟨vs, after⟩, -, h⟩ := ok_of_bind h
      cases h
      cases hv
  · exact ⟨_, rfl⟩
  · rw [fields?_of_atom h] at hv
    cases hv

/-- A value is an object if it begins with the bracket of one, and then it
holds the members that follow. -/
theorem value_object_iff {fuel depth : Nat} {cs rest : List Char} {v : Json} :
    value (fuel + 1) depth cs = .ok (v, rest) ∧ v.fields?.isSome ↔
      ∃ es, opened fuel depth cs = .ok (es, rest) ∧ object (gather [] es) = v := by
  constructor
  · rintro ⟨h, hv⟩
    obtain ⟨inner, rfl⟩ := brace_of_value h hv
    rw [value_brace] at h
    rcases hopened : opened fuel depth ('\x7b' :: inner) with f | ⟨es, after⟩
    · rw [hopened] at h
      cases h
    · rw [hopened] at h
      cases h
      exact ⟨es, rfl, rfl⟩
  · rintro ⟨es, hopened, rfl⟩
    obtain ⟨inner, rfl⟩ : ∃ inner, cs = '\x7b' :: inner := by
      unfold opened at hopened
      split at hopened
      · exact ⟨_, rfl⟩
      · cases hopened
    rw [value_brace, hopened, fields?_object]
    exact ⟨rfl, rfl⟩

/-- **An object is read of a text that holds members, and it is what they
are gathered to.** -/
theorem read_object_iff {s : String} {depth : Nat} {v : Json} :
    read s depth = .ok v ∧ v.fields?.isSome ↔
      ∃ es, entriesOf s depth = .ok es ∧ object (gather [] es) = v := by
  constructor
  · rintro ⟨h, hobject⟩
    obtain ⟨⟨v, rest⟩, hv, h⟩ := ok_of_bind h
    dsimp only at h
    split at h
    · rename_i hblank
      cases h
      obtain ⟨es, hopened, hgather⟩ := value_object_iff.1 ⟨hv, hobject⟩
      refine ⟨es, ?_, hgather⟩
      simp only [entriesOf, hopened, bind, Except.bind, if_pos hblank]
      rfl
    · cases h
  · rintro ⟨es, hes, hgather⟩
    obtain ⟨⟨_, rest⟩, hopened, h⟩ := ok_of_bind hes
    dsimp only at h
    split at h
    · rename_i hblank
      cases h
      obtain ⟨hv, hobject⟩ := value_object_iff.2 ⟨es, hopened, hgather⟩
      refine ⟨?_, hobject⟩
      simp only [read, hv, bind, Except.bind, if_pos hblank]
      rfl
    · cases h

/-! ## Names -/

theorem lookup_setMember (held : List (Script × Json)) (name : Script) (v : Json)
    (other : Script) :
    (setMember held name v).lookup other = if other = name then some v else held.lookup other := by
  induction held with
  | nil => grind [setMember]
  | cons first held ih => grind [setMember]

/-- **In an object a name has the last value that stands in the text for
it.** -/
theorem lookup_gather (held es : List (Script × Json)) (name : Script) :
    (gather held es).lookup name = (es.reverse.lookup name).or (held.lookup name) := by
  induction es generalizing held with
  | nil => rfl
  | cons e es ih =>
    have hstep : gather held (e :: es) = gather (setMember held e.1 e.2) es := rfl
    rw [hstep, ih, lookup_setMember, List.reverse_cons, List.lookup_append]
    grind

theorem names_setMember {held : List (Script × Json)} {name : Script}
    (h : name ∈ held.map Prod.fst) (v : Json) :
    (setMember held name v).map Prod.fst = held.map Prod.fst := by
  induction held with
  | nil => cases h
  | cons first held ih => grind [setMember]

theorem nodup_setMember {held : List (Script × Json)} (h : (held.map Prod.fst).Nodup)
    (name : Script) (v : Json) : ((setMember held name v).map Prod.fst).Nodup := by
  by_cases hname : name ∈ held.map Prod.fst
  · rw [names_setMember hname]
    exact h
  · rw [setMember_new hname, List.map_append, List.map_singleton]
    refine List.nodup_append.2 ⟨h, List.pairwise_singleton _ _, ?_⟩
    intro n hn last hlast heq
    rw [heq, List.mem_singleton.1 hlast] at hn
    exact hname hn

theorem nodup_gather {held : List (Script × Json)} (h : (held.map Prod.fst).Nodup)
    (es : List (Script × Json)) : ((gather held es).map Prod.fst).Nodup := by
  induction es generalizing held with
  | nil => exact h
  | cons e es ih => exact ih (nodup_setMember h e.1 e.2)

/-- A text of characters is looked up among the names that are such texts. -/
theorem lookup_named (members : List (Script × Json)) (name : String) :
    (named members).lookup name = members.lookup (.plain name) := by
  induction members with
  | nil => rfl
  | cons e rest ih =>
    obtain ⟨other, v⟩ := e
    cases other with
    | plain s =>
      have hsame : (Script.plain name == Script.plain s) = (name == s) := by
        rw [Bool.eq_iff_iff, beq_iff_eq, beq_iff_eq, Script.plain.injEq]
      have hcons : named ((.plain s, v) :: rest) = (s, v) :: named rest := rfl
      rw [hcons, List.lookup_cons, List.lookup_cons, hsame, ih]
    | broken b =>
      have hother : (Script.plain name == Script.broken b) = false :=
        beq_false_of_ne fun h => by cases h
      have hcons : named ((.broken b, v) :: rest) = named rest := rfl
      rw [hcons, List.lookup_cons, hother, ih]

theorem nodup_named {members : List (Script × Json)} (h : (members.map Prod.fst).Nodup) :
    ((named members).map Prod.fst).Nodup := by
  have hnames :
      (((named members).map Prod.fst).map Script.plain).Sublist (members.map Prod.fst) := by
    clear h
    induction members with
    | nil => exact .slnil
    | cons e rest ih =>
      obtain ⟨other, v⟩ := e
      cases other with
      | plain s => exact ih.cons_cons _
      | broken b => exact ih.cons _
  exact (hnames.nodup h).of_map _

end Disasm.Json
