import Disasm.Text.Case
import Disasm.Text.Cut
import Mathlib.Tactic.Common
/-!
# Letter case within ASCII

Two lower-case mappings meet in the program: the full one, and the one of
the ASCII letters. On ASCII they agree. Any other character stays outside
ASCII under the full mapping, but for two: the Kelvin sign becomes a `k`,
and the dotted capital i becomes an `i` with a dot above it. So a text
that holds no `k` and does not end with an `i` occurs in the one lower
case of a text exactly if it occurs in the other (`occurs_lower`).
-/

namespace Disasm.Text

/-- What the full mapping can make of a character. -/
inductive Lowered (c : Char) : List Char → Prop
  | ascii : c.toNat < 0x80 → Lowered c [c.toLower]
  /-- A character outside ASCII stays there, or is the Kelvin sign. -/
  | wide {d : Char} : 0x80 ≤ c.toNat → 0x80 ≤ d.toNat ∨ d = 'k' → Lowered c [d]
  | dotted : c.toNat = 0x130 → Lowered c ['i', Char.ofNat 0x307]

theorem toLower_wide {c : Char} (h : 0x80 ≤ c.toNat) : c.toLower = c := by
  refine dif_neg fun hupper => ?_
  have hz : c.toNat ≤ 0x5A := hupper.2
  omega

theorem lowerChar_ascii {c : Char} (h : c.toNat < 0x80) : lowerChar c = [c.toLower] := by
  have hall : ∀ n < 0x80, lowerChar (Char.ofNat n) = [(Char.ofNat n).toLower] := by
    decide +kernel
  have hc := hall c.toNat h
  rwa [Char.ofNat_toNat] at hc

theorem toNat_ofNat {n : Nat} (h : n.isValidChar) : (Char.ofNat n).toNat = n := by
  rw [Char.ofNat, dif_pos h]
  rfl

/-- The code points of a row whose lower case is outside ASCII: all of them,
or none but the Kelvin sign's. -/
def CaseRow.IsWide (row : CaseRow) : Prop :=
  (0x80 ≤ row.first + row.shift ∧ row.last + row.shift < 0xD800) ∨
    (0xDFFF < row.first + row.shift ∧ row.last + row.shift < 0x110000) ∨
    (row.first = row.last ∧ row.first + row.shift = 'k'.toNat)

instance (row : CaseRow) : Decidable row.IsWide :=
  inferInstanceAs (Decidable (_ ∨ _ ∨ _))

theorem isWide_of_mem {row : CaseRow} (hrow : row ∈ caseRows) (h : 0x80 ≤ row.last) :
    row.IsWide := by
  have hall : ∀ row ∈ caseRows, 0x80 ≤ row.last → row.IsWide := by
    decide +kernel
  exact hall row hrow h

theorem lowerChar_wide {c : Char} (h : 0x80 ≤ c.toNat) (hdotted : c.toNat ≠ 0x130) :
    ∃ d, lowerChar c = [d] ∧ (0x80 ≤ d.toNat ∨ d = 'k') := by
  rw [lowerChar, if_neg hdotted]
  rcases hfind : caseRow? c with _ | row
  · exact ⟨c, rfl, .inl h⟩
  · have hmem := List.mem_of_find?_eq_some hfind
    have hin := List.find?_some hfind
    simp only [Bool.and_eq_true, decide_eq_true_eq] at hin
    refine ⟨_, rfl, ?_⟩
    rcases isWide_of_mem hmem (by omega) with hlow | hhigh | hkelvin
    · rw [toNat_ofNat (.inl (by omega))]
      omega
    · rw [toNat_ofNat (.inr (by omega))]
      omega
    · right
      have hcode : (c.toNat + row.shift).toNat = 'k'.toNat := by omega
      rw [hcode, Char.ofNat_toNat]

/-- **What the full mapping makes of a character**, wherever it stands. -/
theorem lowerFrom_cons (before : List Char) (c : Char) (rest : List Char) :
    ∃ piece, Lowered c piece ∧
      lowerFrom before (c :: rest) = piece ++ lowerFrom (c :: before) rest := by
  by_cases hsigma : c.toNat = 0x3A3
  · -- Which sigma it becomes depends on the word; both are outside ASCII.
    refine ⟨_, .wide (by omega) (.inl ?_), by rw [lowerFrom, if_pos hsigma]⟩
    split
    · decide
    · decide
  · rw [lowerFrom, if_neg hsigma]
    refine ⟨_, ?_, rfl⟩
    by_cases hascii : c.toNat < 0x80
    · rw [lowerChar_ascii hascii]
      exact .ascii hascii
    by_cases hdotted : c.toNat = 0x130
    · rw [lowerChar, if_pos hdotted]
      exact .dotted hdotted
    · obtain ⟨d, hd, hwide⟩ := lowerChar_wide (by omega) hdotted
      rw [hd]
      exact .wide (by omega) hwide

/-! ## Occurrences -/

/-- Text that both lower cases hold in the same places. -/
structure IsSteady (needle : List Char) : Prop where
  ascii : ∀ c ∈ needle, c.toNat < 0x80 ∧ c ≠ 'k'
  last : needle.getLast? ≠ some 'i'

theorem IsSteady.tail {a : Char} {needle : List Char} (h : IsSteady (a :: needle)) :
    IsSteady needle where
  ascii c hc := h.ascii c (List.mem_cons_of_mem a hc)
  last := by
    intro hlast
    refine h.last ?_
    rw [List.getLast?_cons, hlast]
    rfl

/-- A character that is not of ASCII, or is a `k`, begins no steady text. -/
theorem IsSteady.ne_wide {a d : Char} {needle : List Char} (h : IsSteady (a :: needle))
    (hd : 0x80 ≤ d.toNat ∨ d = 'k') : (a == d) = false := by
  have ha := h.ascii a List.mem_cons_self
  rw [beq_eq_false_iff_ne]
  rintro rfl
  rcases hd with hd | hd
  · omega
  · exact ha.2 hd

/-- No steady text begins with an `i` that has a dot above it. -/
theorem IsSteady.not_dotted {a : Char} {needle : List Char} (h : IsSteady (a :: needle))
    (cs : List Char) : (a :: needle).isPrefixOf ('i' :: Char.ofNat 0x307 :: cs) = false := by
  rcases needle with _ | ⟨b, needle⟩
  · have ha : a ≠ 'i' := fun ha => h.last (congrArg some ha)
    rw [List.isPrefixOf_cons_cons, beq_false_of_ne ha, Bool.false_and]
  · have hb : (b == Char.ofNat 0x307) = false := h.tail.ne_wide (.inl (by decide))
    rw [List.isPrefixOf_cons_cons, List.isPrefixOf_cons_cons, hb, Bool.false_and, Bool.and_false]

/-- A steady text stands in front of both lower cases or of neither. -/
theorem IsSteady.isPrefixOf_lowerFrom {needle : List Char} (h : IsSteady needle)
    (before cs : List Char) :
    needle.isPrefixOf (lowerFrom before cs) = needle.isPrefixOf (cs.map Char.toLower) := by
  induction cs generalizing needle before with
  | nil => rfl
  | cons c rest ih =>
    rcases needle with _ | ⟨a, needle⟩
    · rfl
    obtain ⟨piece, hpiece, hlower⟩ := lowerFrom_cons before c rest
    rw [hlower, List.map_cons]
    cases hpiece with
    | ascii =>
      rw [List.singleton_append, List.isPrefixOf_cons_cons, List.isPrefixOf_cons_cons,
        ih h.tail]
    | @wide d hc hd =>
      rw [List.singleton_append, List.isPrefixOf_cons_cons, List.isPrefixOf_cons_cons,
        toLower_wide hc, h.ne_wide hd, h.ne_wide (.inl hc), Bool.false_and, Bool.false_and]
    | dotted hc =>
      have hwide : 0x80 ≤ c.toNat := by omega
      have hnot := h.not_dotted (lowerFrom (c :: before) rest)
      rw [List.cons_append, List.singleton_append, hnot, List.isPrefixOf_cons_cons,
        toLower_wide hwide, h.ne_wide (.inl hwide), Bool.false_and]

/-- **A steady text occurs in both lower cases or in neither.** -/
theorem IsSteady.occursChars_lowerFrom {a : Char} {needle : List Char}
    (h : IsSteady (a :: needle)) (before cs : List Char) :
    occursChars (a :: needle) (lowerFrom before cs) =
      occursChars (a :: needle) (cs.map Char.toLower) := by
  induction cs generalizing before with
  | nil => rfl
  | cons c rest ih =>
    have hfront := h.isPrefixOf_lowerFrom before (c :: rest)
    obtain ⟨piece, hpiece, hlower⟩ := lowerFrom_cons before c rest
    rw [hlower] at hfront ⊢
    rw [List.map_cons] at hfront ⊢
    rw [occursChars, ← hfront]
    cases hpiece with
    | ascii =>
      rw [List.singleton_append, occursChars, ih]
    | wide hc hd =>
      rw [List.singleton_append, occursChars, ih]
    | dotted hc =>
      -- The dot is one character more, at which nothing steady begins.
      have hdot : (a :: needle).isPrefixOf
          (Char.ofNat 0x307 :: lowerFrom (c :: before) rest) = false := by
        rw [List.isPrefixOf_cons_cons, h.ne_wide (.inl (by decide)), Bool.false_and]
      rw [List.cons_append, List.singleton_append, occursChars, occursChars, hdot,
        Bool.false_or, ih]

theorem IsSteady.occurs_lower {needle : String} (h : IsSteady needle.toList)
    (hne : needle.toList ≠ []) (s : String) :
    occurs needle (lower s) = occurs needle (lowerAscii s) := by
  obtain ⟨a, rest, hcons⟩ := List.exists_cons_of_ne_nil hne
  rw [hcons] at h
  rw [occurs, occurs, lower, lowerAscii, String.toList_ofList, String.toList_ofList, hcons]
  exact h.occursChars_lowerFrom [] s.toList

end Disasm.Text
