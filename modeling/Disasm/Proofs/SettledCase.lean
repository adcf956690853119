import Disasm.Proofs.LetterCase
/-!
# Settled case — what a lower-case text is made of

A lower-case text holds what lowering leaves alone and what it makes of
other characters (`IsProduct`). The products lie in no row of letters that
have a lower case: rows and the lower cases of rows keep clear of each
other. So every character of a lower-case text is its own lower case
(`isLow_of_mem_lowerFrom`), and lowering such a text again leaves it as it
is. A character that is no product can only have been there
before, such as the marks that separate the parts of a remote text.
-/

namespace Disasm.Text

variable {c d : Char} {row other : CaseRow} {before cs : List Char}

/-- A character that lowering leaves alone, wherever it stands. -/
structure IsLow (c : Char) : Prop where
  ne_sigma : c.toNat ≠ 0x3A3
  ne_dotted : c.toNat ≠ 0x130
  no_row : caseRow? c = none

instance (c : Char) : Decidable (IsLow c) :=
  decidable_of_iff (c.toNat ≠ 0x3A3 ∧ c.toNat ≠ 0x130 ∧ caseRow? c = none)
    ⟨fun h => ⟨h.1, h.2.1, h.2.2⟩, fun h => ⟨h.1, h.2, h.3⟩⟩

theorem lowerFrom_cons_of_isLow (h : IsLow c) (before rest : List Char) :
    lowerFrom before (c :: rest) = c :: lowerFrom (c :: before) rest := by
  rw [lowerFrom, if_neg h.ne_sigma, lowerChar, if_neg h.ne_dotted, h.no_row]
  rfl

theorem lowerFrom_eq_self (h : ∀ c ∈ cs, IsLow c) : lowerFrom before cs = cs := by
  induction cs generalizing before with
  | nil => rfl
  | cons c cs ih =>
    rw [List.forall_mem_cons] at h
    rw [lowerFrom_cons_of_isLow h.1, ih h.2]

/-! ## What lowering makes -/

/-- The code points that are made out of order: an i and the dot above it, and
the two small sigmas. -/
def oddProducts : List Nat := [0x69, 0x307, 0x3C2, 0x3C3]

/-- A character that lowering makes of another. -/
inductive IsProduct (d : Char) : Prop
  | row {row : CaseRow} {n : Nat} : row ∈ caseRows → row.first ≤ n → n ≤ row.last →
      (n - row.first) % row.step = 0 → (d.toNat : Int) = n + row.shift → IsProduct d
  | odd : d.toNat ∈ oddProducts → IsProduct d

/-- The lower case of a row are code points of characters. -/
theorem valid_of_mem (hrow : row ∈ caseRows) :
    0 ≤ row.first + row.shift ∧ (row.last + row.shift < 0xD800 ∨
      (0xDFFF < row.first + row.shift ∧ row.last + row.shift < 0x110000)) := by
  have hall : ∀ row ∈ caseRows, 0 ≤ row.first + row.shift ∧ (row.last + row.shift < 0xD800 ∨
      (0xDFFF < row.first + row.shift ∧ row.last + row.shift < 0x110000)) := by
    decide +kernel
  exact hall row hrow

theorem toNat_lower_of_mem (hrow : row ∈ caseRows) {n : Nat} (hfirst : row.first ≤ n)
    (hlast : n ≤ row.last) : ((Char.ofNat (n + row.shift).toNat).toNat : Int) = n + row.shift := by
  obtain ⟨hpos, hvalid⟩ := valid_of_mem hrow
  have hchar : (n + row.shift).toNat.isValidChar := by
    rcases hvalid with hlow | hhigh
    · exact .inl (by omega)
    · exact .inr (by omega)
  rw [toNat_ofNat hchar]
  omega

/-- What lowering makes of one character between others. -/
def lowerAt (before : List Char) (c : Char) (rest : List Char) : List Char :=
  if c.toNat = 0x3A3 then
    [Char.ofNat (if meetsCased before && !meetsCased rest then 0x3C2 else 0x3C3)]
  else lowerChar c

theorem lowerFrom_eq (before : List Char) (c : Char) (rest : List Char) :
    lowerFrom before (c :: rest) = lowerAt before c rest ++ lowerFrom (c :: before) rest := rfl

theorem lowerAt_ne_nil (before : List Char) (c : Char) (rest : List Char) :
    lowerAt before c rest ≠ [] := by
  obtain ⟨piece, hpiece, hlower⟩ := lowerFrom_cons before c rest
  rw [lowerFrom_eq, List.append_cancel_right_eq] at hlower
  rw [hlower]
  cases hpiece with
  | ascii => exact List.cons_ne_nil _ _
  | wide => exact List.cons_ne_nil _ _
  | dotted => exact List.cons_ne_nil _ _

/-- It is made of products, or is the character itself if that is left
alone. -/
theorem product_or_eq {rest : List Char} (h : d ∈ lowerAt before c rest) :
    IsProduct d ∨ (d = c ∧ IsLow c) := by
  rw [lowerAt] at h
  by_cases hsigma : c.toNat = 0x3A3
  · rw [if_pos hsigma, List.mem_singleton] at h
    left
    rw [h]
    split
    · exact .odd (by decide)
    · exact .odd (by decide)
  rw [if_neg hsigma, lowerChar] at h
  by_cases hdotted : c.toNat = 0x130
  · rw [if_pos hdotted, List.mem_cons, List.mem_singleton] at h
    left
    rcases h with rfl | rfl
    · exact .odd (by decide)
    · exact .odd (by decide)
  rw [if_neg hdotted] at h
  rcases hrow : caseRow? c with _ | row
  · rw [hrow, List.mem_singleton] at h
    exact .inr ⟨h, hsigma, hdotted, hrow⟩
  · rw [hrow, List.mem_singleton] at h
    have hmem := List.mem_of_find?_eq_some hrow
    have hin := List.find?_some hrow
    simp only [Bool.and_eq_true, decide_eq_true_eq, beq_iff_eq] at hin
    obtain ⟨⟨hfirst, hlast⟩, hstep⟩ := hin
    exact .inl (.row hmem hfirst hlast hstep (h ▸ toNat_lower_of_mem hmem hfirst hlast))

/-- **What stands in a lower-case text**: products, and what was there before
and is left alone. -/
theorem product_or_mem (h : d ∈ lowerFrom before cs) : IsProduct d ∨ (d ∈ cs ∧ IsLow d) := by
  induction cs generalizing before with
  | nil => cases h
  | cons c cs ih =>
    rw [lowerFrom_eq, List.mem_append] at h
    rcases h with h | h
    · refine (product_or_eq h).imp_right ?_
      rintro ⟨rfl, hlow⟩
      exact ⟨List.mem_cons_self, hlow⟩
    · exact (ih h).imp_right fun hmem => ⟨List.mem_cons_of_mem c hmem.1, hmem.2⟩

/-- Whether the lower case of one row keeps clear of another row: they do not
meet, or take turns. -/
def CaseRow.clears (row other : CaseRow) : Bool :=
  let low := (row.first + row.shift).toNat
  let high := (row.last + row.shift).toNat
  Nat.blt high other.first || Nat.blt other.last low ||
    (other.step == 2 && (row.step == 2 || row.first == row.last) && (low + other.first) % 2 == 1)

theorem clears_of_mem (hrow : row ∈ caseRows) (hother : other ∈ caseRows) :
    row.clears other = true := by
  have hall : (caseRows.all fun row => caseRows.all row.clears) = true := by
    decide +kernel
  exact List.all_eq_true.1 (List.all_eq_true.1 hall row hrow) other hother

/-- No product lies in a row. -/
theorem no_row_of_product (h : IsProduct d) : caseRow? d = none := by
  rw [caseRow?, List.find?_eq_none]
  intro other hother hin
  simp only [Bool.and_eq_true, decide_eq_true_eq, beq_iff_eq] at hin
  cases h with
  | @row row n hrow hfirst hlast hstep hd =>
    have hpos := (valid_of_mem hrow).1
    have hclear := clears_of_mem hrow hother
    simp only [CaseRow.clears, Bool.or_eq_true, Bool.and_eq_true, Nat.blt_eq, beq_iff_eq] at hclear
    rcases hclear with (hbehind | hfront) | ⟨⟨hother2, hpaced⟩, hturn⟩
    · omega
    · omega
    · -- Of every two neighbours one is in the row and the other is a product.
      rw [hother2] at hin
      rcases hpaced with hrow2 | hsingle
      · rw [hrow2] at hstep
        omega
      · omega
  | odd hd =>
    have hall : ∀ n ∈ oddProducts, ∀ other ∈ caseRows, ¬(other.first ≤ n ∧ n ≤ other.last) := by
      decide +kernel
    exact hall d.toNat hd other hother hin.1

/-- A code point that no lower case is near. -/
def IsAside (n : Nat) : Prop :=
  (∀ row ∈ caseRows, (n : Int) < row.first + row.shift ∨ row.last + row.shift < n) ∧
    n ∉ oddProducts

instance (n : Nat) : Decidable (IsAside n) :=
  inferInstanceAs (Decidable (_ ∧ _))

theorem not_product_of_isAside (h : IsAside d.toNat) : ¬IsProduct d := by
  intro hproduct
  cases hproduct with
  | @row row n hrow hfirst hlast hstep hd =>
    rcases h.1 row hrow with hbelow | habove
    · omega
    · omega
  | odd hd => exact h.2 hd

/-- **A lower-case text is made of characters that lowering leaves alone.** -/
theorem isLow_of_mem_lowerFrom (h : d ∈ lowerFrom before cs) : IsLow d := by
  rcases product_or_mem h with hproduct | ⟨-, hlow⟩
  · refine ⟨fun hsigma => ?_, fun hdotted => ?_, no_row_of_product hproduct⟩
    · have hd : d = Char.ofNat 0x3A3 := by
        rw [← hsigma, Char.ofNat_toNat]
      have hrow : caseRow? (Char.ofNat 0x3A3) ≠ none := by
        rw [caseRow?, ne_eq, List.find?_eq_none]
        decide +kernel
      exact hrow (hd ▸ no_row_of_product hproduct)
    · exact not_product_of_isAside (hdotted ▸ (by decide +kernel : IsAside 0x130)) hproduct
  · exact hlow

/-! ## Marks -/

/-- What is no lower case of another character was there before. -/
theorem mem_of_mem_lowerFrom (hd : IsAside d.toNat) (h : d ∈ lowerFrom before cs) : d ∈ cs :=
  ((product_or_mem h).resolve_left (not_product_of_isAside hd)).1

theorem mem_lowerFrom_of_mem (hd : IsLow d) (h : d ∈ cs) : d ∈ lowerFrom before cs := by
  induction cs generalizing before with
  | nil => cases h
  | cons c cs ih =>
    rcases List.mem_cons.1 h with rfl | h
    · rw [lowerFrom_cons_of_isLow hd]
      exact List.mem_cons_self
    · rw [lowerFrom, List.mem_append]
      exact .inr (ih h)

/-- A character that is its own lower case and that of no other. -/
structure IsMark (d : Char) : Prop where
  low : IsLow d
  aside : IsAside d.toNat

instance (d : Char) : Decidable (IsMark d) :=
  decidable_of_iff (IsLow d ∧ IsAside d.toNat) ⟨fun h => ⟨h.1, h.2⟩, fun h => ⟨h.1, h.2⟩⟩

theorem IsMark.mem_lowerFrom_iff (hd : IsMark d) (before cs : List Char) :
    d ∈ lowerFrom before cs ↔ d ∈ cs :=
  ⟨mem_of_mem_lowerFrom hd.aside, mem_lowerFrom_of_mem hd.low⟩

theorem lowerFrom_ne_nil (before : List Char) (h : cs ≠ []) : lowerFrom before cs ≠ [] := by
  obtain ⟨c, rest, rfl⟩ := List.exists_cons_of_ne_nil h
  rw [lowerFrom_eq]
  exact List.append_ne_nil_of_left_ne_nil (lowerAt_ne_nil before c rest) _

/-- A text begins with a mark exactly if its lower case does. -/
theorem IsMark.head?_lowerFrom (hd : IsMark d) (before cs : List Char) :
    (lowerFrom before cs).head? = some d ↔ cs.head? = some d := by
  rcases cs with _ | ⟨c, rest⟩
  · exact Iff.rfl
  constructor
  · intro hhead
    have hfirst : d ∈ lowerAt before c rest := by
      obtain ⟨e, piece, hpiece⟩ := List.exists_cons_of_ne_nil (lowerAt_ne_nil before c rest)
      rw [lowerFrom_eq, hpiece] at hhead
      cases hhead
      rw [hpiece]
      exact List.mem_cons_self
    rcases product_or_eq hfirst with hproduct | ⟨rfl, -⟩
    · exact absurd hproduct (not_product_of_isAside hd.aside)
    · rfl
  · intro hhead
    cases hhead
    rw [lowerFrom_cons_of_isLow hd.low]
    rfl

/-- A start within ASCII is lowered on its own. -/
theorem lowerFrom_append (before : List Char) {front : List Char}
    (h : ∀ c ∈ front, c.toNat < 0x80) (cs : List Char) :
    lowerFrom before (front ++ cs) =
      front.map Char.toLower ++ lowerFrom (front.reverse ++ before) cs := by
  induction front generalizing before with
  | nil => rfl
  | cons c front ih =>
    rw [List.forall_mem_cons] at h
    have hsigma : ¬c.toNat = 0x3A3 := by omega
    rw [List.cons_append, lowerFrom, if_neg hsigma, lowerChar_ascii h.1, ih _ h.2,
      List.reverse_cons, List.append_assoc]
    rfl

end Disasm.Text
