import Disasm.Proofs.Canonical
import Disasm.Proofs.JsonLiteral
/-!
# Integers in JSON — what was read can be written

The reader turns down integers of too many digits, wherever they stand in
a value, and the printer must not be given one. It also joins the halves of
a surrogate pair, so that it gives no text that would not be read back. So
`Fits` holds of all that the reader gives: of a number by the count of its
digits, of a text by the marks it is made of, and of lists and objects by
induction on the fuel, for the three readers at once.
-/

namespace Disasm.Json

/-! ## Numbers -/

/-- A digit is worth less than ten. -/
theorem digit_lt {d : Char} (h : d.isDigit = true) : d.toNat - '0'.toNat < 10 := by
  have hrange := toNat_of_isDigit h
  have hzero : '0'.toNat = 0x30 := rfl
  omega

/-- Digits write a number below the power of ten that has one digit more. -/
theorem ofDigitChars_lt {ds : List Char} (h : ∀ d ∈ ds, d.isDigit = true) :
    Nat.ofDigitChars 10 ds 0 < 10 ^ ds.length := by
  have hfrom : ∀ n, Nat.ofDigitChars 10 ds n < (n + 1) * 10 ^ ds.length := by
    induction ds with
    | nil => intro n; simp
    | cons d ds ih =>
      intro n
      have hd := digit_lt (h d List.mem_cons_self)
      calc Nat.ofDigitChars 10 (d :: ds) n
          < (10 * n + (d.toNat - '0'.toNat) + 1) * 10 ^ ds.length :=
            ih (fun e he => h e (List.mem_cons_of_mem _ he)) _
        _ ≤ ((n + 1) * 10) * 10 ^ ds.length := Nat.mul_le_mul_right _ (by omega)
        _ = (n + 1) * 10 ^ (d :: ds).length := by
            rw [List.length_cons, Nat.pow_succ', Nat.mul_assoc]
  simpa using hfrom 0

/-- The integer part of a number is made of digits. -/
theorem isDigit_of_mem_whole (cs : List Char) : ∀ d ∈ (whole cs).1, d.isDigit = true := by
  intro d hd
  unfold whole at hd
  split at hd
  · rw [List.mem_singleton.1 hd]
    rfl
  · exact List.all_eq_true.1 List.all_takeWhile d hd

/-- A value without integers that are too long to be written, and without
texts that would be read as others. -/
inductive Fits : Json → Prop
  | null : Fits .null
  | bool (b : Bool) : Fits (.bool b)
  | int {n : Int} : InRange n → Fits (.int n)
  | float (x : Binary64) : Fits (.float x)
  | str (s : String) : Fits (.str s)
  | arr {items : List Json} : (∀ v ∈ items, Fits v) → Fits (.arr items)
  | obj {members : List (String × Json)} : (∀ e ∈ members, Fits e.2) → Fits (.obj members)
  | stray {b : Broken} : Unpaired b.points → Fits (.stray b)
  | odd {members : List (Script × Json)} : (∀ e ∈ members, Fits e.2) → Fits (.odd members)

/-- **A number that was read fits**: more digits than can be written are refused
when they are read. -/
theorem fits_number {negative : Bool} {cs rest : List Char} {v : Json}
    (h : number negative cs = .ok (v, rest)) : Fits v := by
  rw [number] at h
  dsimp only at h
  split at h
  · cases h
  split at h
  · split at h
    · cases h
    · rename_i hlength
      cases h
      have hlt := ofDigitChars_lt (isDigit_of_mem_whole cs)
      have hsize : (Text.Numeral.signed negative (Nat.ofDigitChars 10 (whole cs).1 0)).natAbs =
          Nat.ofDigitChars 10 (whole cs).1 0 := by
        cases negative
        · rfl
        · exact Int.natAbs_neg _
      refine .int ?_
      rw [InRange, hsize]
      exact Nat.lt_of_lt_of_le hlt (Nat.pow_le_pow_right (by decide) (by omega))
  · cases h
    exact .float _

/-- An atom is a word of the grammar or a number. -/
theorem cases_atom {cs rest : List Char} {v : Json} (h : atom cs = .ok (v, rest)) :
    (∃ text, (text, v) ∈ words) ∨ ∃ negative ds, number negative ds = .ok (v, rest) := by
  unfold atom at h
  split at h
  · rename_i found hword
    cases h
    obtain ⟨⟨text, u⟩, hmem, hfound⟩ := List.exists_of_findSome?_eq_some hword
    dsimp only at hfound
    split at hfound
    · cases hfound
      exact .inl ⟨text, hmem⟩
    · cases hfound
  · split at h
    · exact .inr ⟨_, _, h⟩
    · exact .inr ⟨_, _, h⟩

/-- An atom fits: the words of the grammar hold no integer. -/
theorem fits_atom {cs rest : List Char} {v : Json} (h : atom cs = .ok (v, rest)) : Fits v := by
  have hwords : ∀ w ∈ words, Fits w.2 := by
    simp only [words, List.forall_mem_cons]
    exact ⟨.null, .bool _, .bool _, .float _, .float _, .float _, fun w hw => by cases hw⟩
  obtain ⟨text, hmem⟩ | ⟨negative, ds, hnumber⟩ := cases_atom h
  · exact hwords _ hmem
  · exact fits_number hnumber

/-! ## Lists and objects -/

/-- A text fits if no two of its surrogates make a pair. -/
theorem fits_ofScript {s : Script} (h : Unpaired s.points) : Fits (.ofScript s) := by
  cases s with
  | plain s => exact .str s
  | broken b => exact .stray h

/-- Members make an object that fits if their values do. -/
theorem fits_object {members : List (Script × Json)} (h : ∀ e ∈ members, Fits e.2) :
    Fits (object members) := by
  rw [object]
  split
  · refine .obj fun e he => ?_
    obtain ⟨⟨name, v⟩, hmem, hname⟩ := List.mem_filterMap.1 he
    obtain ⟨t, -, rfl⟩ := Option.map_eq_some_iff.1 hname
    exact h _ hmem
  · exact .odd h

/-- Setting a member brings in no value but the new one. -/
theorem mem_setMember {held : List (Script × Json)} {name : Script} {v : Json}
    {e : Script × Json} (h : e ∈ setMember held name v) : e = (name, v) ∨ e ∈ held := by
  induction held with
  | nil => exact .inl (List.mem_singleton.1 h)
  | cons first held ih =>
    rw [setMember] at h
    split at h
    · rename_i hname
      rcases List.mem_cons.1 h with rfl | hrest
      · exact .inl (by rw [hname])
      · exact .inr (List.mem_cons_of_mem _ hrest)
    · rcases List.mem_cons.1 h with rfl | hrest
      · exact .inr List.mem_cons_self
      · exact (ih hrest).imp_right (List.mem_cons_of_mem _)

/-- With some fuel, all three readers give what fits. -/
def FitsAt (fuel : Nat) : Prop :=
  (∀ depth cs v rest, value fuel depth cs = .ok (v, rest) → Fits v) ∧
  (∀ depth cs vs rest, items fuel depth cs = .ok (vs, rest) → ∀ v ∈ vs, Fits v) ∧
  ∀ depth held cs ms rest, (∀ e ∈ held, Fits e.2) → members fuel depth held cs = .ok (ms, rest) →
    ∀ e ∈ ms, Fits e.2

/-- A value is a text, a list, an object or an atom, and the parts of a list and
of an object are read with less fuel. -/
theorem FitsAt.value {fuel : Nat} (ih : FitsAt fuel) {depth : Nat} {cs rest : List Char} {v : Json}
    (h : value (fuel + 1) depth cs = .ok (v, rest)) : Fits v := by
  rw [Json.value.eq_def] at h
  dsimp only at h
  split at h
  · obtain ⟨⟨s, after⟩, hs, h⟩ := ok_of_bind h
    cases h
    exact fits_ofScript (unpaired_of_string hs)
  · split at h
    · cases h
    split at h
    · cases h
      exact .arr fun v hv => by cases hv
    · obtain ⟨⟨vs, after⟩, hvs, h⟩ := ok_of_bind h
      cases h
      exact .arr (ih.2.1 _ _ _ _ hvs)
  · split at h
    · cases h
    split at h
    · cases h
      exact .obj fun e he => by cases he
    · obtain ⟨⟨ms, after⟩, hms, h⟩ := ok_of_bind h
      cases h
      exact fits_object (ih.2.2 _ _ _ _ _ (fun e he => by cases he) hms)
  · exact fits_atom h

/-- The rest of a list is read with less fuel too. -/
theorem FitsAt.items {fuel : Nat} (ih : FitsAt fuel) {depth : Nat} {cs rest : List Char}
    {vs : List Json} (h : items (fuel + 1) depth cs = .ok (vs, rest)) : ∀ v ∈ vs, Fits v := by
  rw [Json.items.eq_def] at h
  dsimp only at h
  obtain ⟨⟨v, after⟩, hv, h⟩ := ok_of_bind h
  have hfits := ih.1 _ _ _ _ hv
  dsimp only at h
  split at h
  · cases h
    exact List.forall_mem_singleton.2 hfits
  · obtain ⟨⟨others, further⟩, hothers, h⟩ := ok_of_bind h
    cases h
    exact List.forall_mem_cons.2 ⟨hfits, ih.2.1 _ _ _ _ hothers⟩
  · cases h

/-- So is the rest of an object; the members that were read before it fit
already. -/
theorem FitsAt.members {fuel : Nat} (ih : FitsAt fuel) {depth : Nat}
    {held ms : List (Script × Json)} {cs rest : List Char} (hheld : ∀ e ∈ held, Fits e.2)
    (h : members (fuel + 1) depth held cs = .ok (ms, rest)) : ∀ e ∈ ms, Fits e.2 := by
  rw [Json.members.eq_def] at h
  dsimp only at h
  split at h
  · obtain ⟨⟨name, after⟩, -, h⟩ := ok_of_bind h
    dsimp only at h
    split at h
    · obtain ⟨⟨v, further⟩, hv, h⟩ := ok_of_bind h
      have hnext : ∀ e ∈ setMember held name v, Fits e.2 := by
        intro e he
        rcases mem_setMember he with rfl | he
        · exact ih.1 _ _ _ _ hv
        · exact hheld e he
      dsimp only at h
      split at h
      · cases h
        exact hnext
      · exact ih.2.2 _ _ _ _ _ hnext h
      · cases h
    · cases h
  · cases h

/-- All three hold for any fuel, by induction on it. -/
theorem fitsAt (fuel : Nat) : FitsAt fuel := by
  induction fuel with
  | zero =>
    refine ⟨fun _ _ _ _ h => ?_, fun _ _ _ _ h => ?_, fun _ _ _ _ _ _ h => ?_⟩
    · rw [value.eq_def] at h
      cases h
    · rw [items.eq_def] at h
      cases h
    · rw [members.eq_def] at h
      cases h
  | succ fuel ih =>
    exact ⟨fun _ _ _ _ h => ih.value h, fun _ _ _ _ h => ih.items h,
      fun _ _ _ _ _ hheld h => ih.members hheld h⟩

/-- **The integers of a value that was read can be written.** -/
theorem fits_of_read {s : String} {depth : Nat} {v : Json} (h : read s depth = .ok v) :
    Fits v := by
  obtain ⟨⟨u, rest⟩, hu, h⟩ := ok_of_bind h
  dsimp only at h
  split at h
  · cases h
    exact (fitsAt _).1 _ _ _ _ hu
  · cases h

end Disasm.Json
