import Disasm.Json.Printer
import Disasm.Json.Reader
import Disasm.Proofs.Scripts
import Mathlib.Algebra.Group.Nat.Defs
import Mathlib.Data.List.Chain
import Mathlib.Tactic.Common
/-!
# JSON literals — texts and integers are read back

A character of a text is written as itself, by a letter, or by one or two
UTF-16 units; whichever it is, the reader takes the same character off
the front and goes on behind it. A lone surrogate is written by its unit and
read back as long as it is alone: two halves of a pair, one after the other,
would be read as a character, but no text that was read has them. An
integer is written in decimal digits, and is read back as long as it has
no more of them than the reader takes and nothing that carries on a number
comes after it.
-/

namespace Disasm.Json

/-! ## String literals -/

theorem nibble?_digitChar : ∀ d < 16, Text.Percent.nibble? (Nat.digitChar d) = some d := by
  decide

/-- The escape of a UTF-16 unit has its four hexadecimal digits. -/
theorem unitEscape_eq {n : Nat} (h : n < 0x10000) :
    unitEscape n = ['\\', 'u', Nat.digitChar (n / 4096), Nat.digitChar (n / 256 % 16),
      Nat.digitChar (n / 16 % 16), Nat.digitChar (n % 16)] := by
  rw [unitEscape, Text.Numeral.toList_hexNat_four h]

/-- A unit is read off its escape. -/
theorem marks_unitEscape {n : Nat} (h : n < 0x10000) (rest : List Char) :
    marks (unitEscape n ++ rest) =
      (marks rest).map fun found => (.unit n :: found.1, found.2) := by
  have hunit : unit? (Nat.digitChar (n / 4096)) (Nat.digitChar (n / 256 % 16))
      (Nat.digitChar (n / 16 % 16)) (Nat.digitChar (n % 16)) = some n := by
    have hvalue : ((n / 4096 * 16 + n / 256 % 16) * 16 + n / 16 % 16) * 16 + n % 16 = n := by
      omega
    rw [unit?, nibble?_digitChar _ (by omega), nibble?_digitChar _ (by omega),
      nibble?_digitChar _ (by omega), nibble?_digitChar _ (by omega)]
    exact congrArg some hvalue
  rw [unitEscape_eq h]
  simp only [List.cons_append, List.nil_append]
  rw [marks, hunit]

theorem toNat_lt (c : Char) : c.toNat < 0x110000 := by
  rcases c.valid with h | ⟨-, h⟩
  · exact Nat.lt_trans h (by decide)
  · exact h

/-- What a unit of a character stands for. -/
theorem unitPoint_toNat (c : Char) : unitPoint c.toNat = .char c := by
  have hscalar : c.toNat < 0xD800 ∨ 0xDFFF < c.toNat := by
    rcases c.valid with h | ⟨h, -⟩
    · exact .inl h
    · exact .inr h
  rw [unitPoint, dif_neg (by omega), Char.ofNat_toNat]

theorem unitPoint_unit (s : Surrogate) : unitPoint s.unit = .lone s :=
  dif_pos ⟨s.lower, s.upper⟩

/-- Whether two points are the halves of a surrogate pair. -/
def joins : Point → Point → Bool
  | .lone s, .lone t => isHigh s.unit && isLow t.unit
  | _, _ => false

/-- Points among which no two neighbours are the halves of a pair. -/
def Unpaired (ps : List Point) : Prop :=
  ps.IsChain fun p q => joins p q = false

theorem joins_char_left (c : Char) (q : Point) : joins (.char c) q = false := by
  cases q with
  | char d => rfl
  | lone t => rfl

theorem joins_char_right (p : Point) (c : Char) : joins p (.char c) = false := by
  cases p with
  | char d => rfl
  | lone t => rfl

theorem joins_unitPoint (n m : Nat) :
    joins (unitPoint n) (unitPoint m) = (isHigh n && isLow m) := by
  rw [unitPoint]
  split
  · rw [unitPoint]
    split
    · rfl
    · rename_i hm
      have hlow : isLow m = false := by
        simp only [isLow, Bool.and_eq_false_iff, decide_eq_false_iff_not]
        omega
      rw [hlow, Bool.and_false, joins_char_right]
  · rename_i hn
    have hhigh : isHigh n = false := by
      simp only [isHigh, Bool.and_eq_false_iff, decide_eq_false_iff_not]
      omega
    rw [hhigh, Bool.false_and, joins_char_left]

/-- The ways a point can stand in a string literal, and the marks it is read
as. -/
inductive Written : Point → List Char → List Mark → Prop
  | short {c letter : Char} : escaped? letter = some c → letter ≠ 'u' →
      Written (.char c) ['\\', letter] [.char c]
  | plain {c : Char} : c ≠ '"' → c ≠ '\\' → 0x20 ≤ c.toNat → c.toNat ≤ 0x7E →
      Written (.char c) [c] [.char c]
  | unit {p : Point} {n : Nat} : n < 0x10000 → unitPoint n = p →
      Written p (unitEscape n) [.unit n]
  | pair {c : Char} {n : Nat} : c.toNat = 0x10000 + n →
      Written (.char c) (unitEscape (0xD800 + n / 0x400) ++ unitEscape (0xDC00 + n % 0x400))
        [.unit (0xD800 + n / 0x400), .unit (0xDC00 + n % 0x400)]

theorem written_escape (c : Char) : ∃ ms, Written (.char c) (escape c) ms := by
  rw [escape]
  split
  · rename_i hc
    rcases hc with rfl | rfl
    · exact ⟨_, .short rfl (by decide)⟩
    · exact ⟨_, .short rfl (by decide)⟩
  rename_i hquoted
  split
  · rename_i hc
    exact ⟨_, .short (hc ▸ rfl) (by decide)⟩
  split
  · rename_i hc
    exact ⟨_, .short (hc ▸ rfl) (by decide)⟩
  split
  · rename_i hc
    exact ⟨_, .short (hc ▸ rfl) (by decide)⟩
  split
  · rename_i hc
    have hfeed : c = Char.ofNat 0x0C := by rw [← hc, Char.ofNat_toNat]
    exact ⟨_, .short (hfeed ▸ rfl) (by decide)⟩
  split
  · rename_i hc
    have hback : c = Char.ofNat 0x08 := by rw [← hc, Char.ofNat_toNat]
    exact ⟨_, .short (hback ▸ rfl) (by decide)⟩
  split
  · rename_i hplain
    exact ⟨_, .plain (fun hc => hquoted (.inl hc)) (fun hc => hquoted (.inr hc)) hplain.1 hplain.2⟩
  split
  · rename_i hsmall
    exact ⟨_, .unit hsmall (unitPoint_toNat c)⟩
  · exact ⟨_, .pair (by omega)⟩

/-- Every point is written in one of these ways. -/
theorem written_escapePoint (p : Point) : ∃ ms, Written p (escapePoint p) ms := by
  cases p with
  | char c => exact written_escape c
  | lone s =>
    have hupper := s.upper
    exact ⟨_, .unit (by omega) (unitPoint_unit s)⟩

variable {p : Point} {cs : List Char} {ms : List Mark}

theorem Written.marks (h : Written p cs ms) (rest : List Char) :
    marks (cs ++ rest) = (Json.marks rest).map fun found => (ms ++ found.1, found.2) := by
  cases h with
  | short hletter hu =>
    rw [List.cons_append, List.singleton_append, Json.marks, hletter]
    · rfl
    · exact fun _ _ _ _ _ h _ => hu h
  | plain hquote hslash hlow _ =>
    rw [List.singleton_append, Json.marks, if_neg (by omega)]
    · rfl
    · exact hquote
    · exact fun _ _ _ _ _ h _ => hslash h
    · exact fun _ _ h _ => hslash h
  | unit hsmall _ => exact marks_unitEscape hsmall rest
  | @pair c n hn =>
    have hbound := toNat_lt c
    rw [List.append_assoc, marks_unitEscape (by omega), marks_unitEscape (by omega)]
    rcases Json.marks rest with f | ⟨tail, rest⟩
    · rfl
    · rfl

/-- What a unit begins is itself or a character. -/
theorem head?_unmark_unit (m : Nat) (tail : List Mark) :
    (unmark (.unit m :: tail)).head? = some (unitPoint m) ∨
      isHigh m = true ∧ ∃ c, (unmark (.unit m :: tail)).head? = some (.char c) := by
  rcases tail with _ | ⟨d | k, tail⟩
  · exact .inl rfl
  · exact .inl rfl
  · rw [unmark]
    split
    · rename_i hpair
      exact .inr ⟨(Bool.and_eq_true_iff.1 hpair).1, _, rfl⟩
    · exact .inl rfl

/-- A unit that is no half of a pair with what comes next stands for itself. -/
theorem unmark_unit (n : Nat) {tail : List Mark}
    (h : ∀ q ∈ (unmark tail).head?, joins (unitPoint n) q = false) :
    unmark (.unit n :: tail) = unitPoint n :: unmark tail := by
  rcases tail with _ | ⟨d | m, tail⟩
  · rfl
  · rfl
  · have hpair : (isHigh n && isLow m) = false := by
      rcases head?_unmark_unit m tail with hnext | ⟨hhigh, -⟩
      · rw [← joins_unitPoint]
        exact h _ hnext
      · have hlow : isLow m = false := by
          simp only [isHigh, Bool.and_eq_true, decide_eq_true_eq] at hhigh
          simp only [isLow, Bool.and_eq_false_iff, decide_eq_false_iff_not]
          omega
        rw [hlow, Bool.and_false]
    rw [unmark, hpair]
    rfl

/-- A point is recovered from its marks, if it is no half of a pair with what
comes after it. -/
theorem Written.unmark (h : Written p cs ms) {tail : List Mark}
    (hnext : ∀ q ∈ (Json.unmark tail).head?, joins p q = false) :
    Json.unmark (ms ++ tail) = p :: Json.unmark tail := by
  cases h with
  | short hletter hu => rfl
  | plain hquote hslash hlow hhigh => rfl
  | unit hsmall hp =>
    subst hp
    exact unmark_unit _ hnext
  | @pair c n hn =>
    have hbound := toNat_lt c
    have hhigh : isHigh (0xD800 + n / 0x400) = true := by
      simp only [isHigh, Bool.and_eq_true, decide_eq_true_eq]
      omega
    have hlow : isLow (0xDC00 + n % 0x400) = true := by
      simp only [isLow, Bool.and_eq_true, decide_eq_true_eq]
      omega
    have hchar : pairChar (0xD800 + n / 0x400) (0xDC00 + n % 0x400) = c := by
      have hvalue : 0x10000 + (0xD800 + n / 0x400 - 0xD800) * 0x400 +
          (0xDC00 + n % 0x400 - 0xDC00) = c.toNat := by omega
      rw [pairChar, hvalue, Char.ofNat_toNat]
    rw [List.cons_append, List.singleton_append, Json.unmark, hhigh, hlow, hchar]
    rfl

/-- **A string literal is read back**, up to its closing quote. -/
theorem string_literal (s : Script) (hs : Unpaired s.points) (rest : List Char) :
    string (s.points.flatMap escapePoint ++ '"' :: rest) = .ok (s, rest) := by
  have hmarks : ∀ ps : List Point, Unpaired ps → ∃ ms,
      Json.marks (ps.flatMap escapePoint ++ '"' :: rest) = .ok (ms, rest) ∧
        Json.unmark ms = ps := by
    intro ps hps
    -- By induction on the points: the marks of the rest begin with no half that the first lacks.
    induction ps with
    | nil => exact ⟨[], rfl, rfl⟩
    | cons p ps ih =>
      rw [Unpaired, List.isChain_cons] at hps
      obtain ⟨ms, hms, hpoints⟩ := ih hps.2
      obtain ⟨first, hfirst⟩ := written_escapePoint p
      refine ⟨first ++ ms, ?_, ?_⟩
      · rw [List.flatMap_cons, List.append_assoc, hfirst.marks, hms]
        rfl
      · rw [hfirst.unmark (by rw [hpoints]; exact hps.1), hpoints]
  obtain ⟨ms, hms, hpoints⟩ := hmarks s.points hs
  rw [string, hms]
  change Except.ok (Script.ofPoints (Json.unmark ms), rest) = _
  rw [hpoints, Script.ofPoints_points]

/-- What marks stand for has no halves of a pair side by side. -/
theorem unpaired_unmark (ms : List Mark) : Unpaired (unmark ms) := by
  fun_induction unmark ms with
  | case1 => exact List.IsChain.nil
  | case2 c rest ih => exact List.isChain_cons.2 ⟨fun q _ => joins_char_left c q, ih⟩
  | case3 n m rest hpair ih => exact List.isChain_cons.2 ⟨fun q _ => joins_char_left _ q, ih⟩
  | case4 n m rest hpair ih =>
    refine List.isChain_cons.2 ⟨fun q hq => ?_, ih⟩
    rcases head?_unmark_unit m rest with hnext | ⟨-, c, hnext⟩
    · rw [hnext] at hq
      cases hq
      rw [joins_unitPoint]
      exact Bool.eq_false_iff.2 hpair
    · rw [hnext] at hq
      cases hq
      exact joins_char_right _ c
  | case5 n rest hrest ih =>
    refine List.isChain_cons.2 ⟨fun q hq => ?_, ih⟩
    -- What comes next is not a unit, so there is nothing or a character.
    rcases rest with _ | ⟨d | m, rest⟩
    · cases hq
    · cases hq
      exact joins_char_right _ d
    · exact absurd rfl (hrest m rest)

/-- **A text that is read has no halves of a pair side by side.** -/
theorem unpaired_of_string {cs rest : List Char} {s : Script} (h : string cs = .ok (s, rest)) :
    Unpaired s.points := by
  rw [string] at h
  rcases hmarks : marks cs with f | ⟨ms, tail⟩
  · rw [hmarks] at h
    cases h
  · rw [hmarks] at h
    cases h
    rw [Script.points_ofPoints]
    exact unpaired_unmark ms

/-- A text of characters has no surrogates. -/
theorem unpaired_plain (s : String) : Unpaired (Script.plain s).points := by
  rw [Unpaired, Script.points, List.isChain_map]
  exact (List.pairwise_of_forall fun c d => joins_char_left c _).isChain

/-! ## Integers -/

/-- A text that does not carry on a number in front of it. -/
def EndsNumber (rest : List Char) : Prop :=
  ∀ c ∈ rest.head?, c.isDigit = false ∧ c ≠ '.' ∧ c ≠ 'e' ∧ c ≠ 'E'

theorem endsNumber_cons {c : Char} (h : c.isDigit = false ∧ c ≠ '.' ∧ c ≠ 'e' ∧ c ≠ 'E')
    (rest : List Char) : EndsNumber (c :: rest) := by
  intro d hd
  cases hd
  exact h

theorem toNat_of_isDigit {c : Char} (h : c.isDigit = true) : 0x30 ≤ c.toNat ∧ c.toNat ≤ 0x39 := by
  rw [Char.isDigit, Bool.and_eq_true, decide_eq_true_eq, decide_eq_true_eq] at h
  exact h

/-- Only zero is written with a zero in front. -/
theorem head?_toDigits {n : Nat} (h : 0 < n) : (Nat.toDigits 10 n).head? ≠ some '0' := by
  induction n using Nat.strongRecOn with
  | ind n ih =>
    rcases Nat.lt_or_ge n 10 with hn | hn
    · have hall : ∀ k < 10, 0 < k → Nat.digitChar k ≠ '0' := by decide
      rw [Nat.toDigits_of_lt_base hn]
      simpa using hall n hn h
    · have hfront := ih (n / 10) (by omega) (by omega)
      obtain ⟨d, ds, hds⟩ :=
        List.exists_cons_of_ne_nil (Nat.toDigits_ne_nil (n := n / 10) (b := 10))
      rw [hds] at hfront
      rw [Nat.toDigits_of_base_le (by decide) hn, hds]
      exact hfront

theorem spanDigits_append {ds rest : List Char} (hds : ∀ d ∈ ds, d.isDigit = true)
    (hrest : EndsNumber rest) : spanDigits (ds ++ rest) = (ds, rest) := by
  have htake : rest.takeWhile Char.isDigit = [] := by
    rcases rest with _ | ⟨c, rest⟩
    · rfl
    · exact List.takeWhile_cons_of_neg (by simp [(hrest c rfl).1])
  have hdrop : rest.dropWhile Char.isDigit = rest := by
    rcases rest with _ | ⟨c, rest⟩
    · rfl
    · exact List.dropWhile_cons_of_neg (by simp [(hrest c rfl).1])
  rw [spanDigits, List.takeWhile_append_of_pos hds, List.dropWhile_append_of_pos hds, htake, hdrop,
    List.append_nil]

theorem whole_toDigits (n : Nat) {rest : List Char} (hrest : EndsNumber rest) :
    whole (Nat.toDigits 10 n ++ rest) = (Nat.toDigits 10 n, rest) := by
  have hdigits : ∀ d ∈ Nat.toDigits 10 n, d.isDigit = true :=
    fun d hd => Nat.isDigit_of_mem_toDigits (by decide) (by decide) hd
  have hspan := spanDigits_append hdigits hrest
  rcases Nat.eq_zero_or_pos n with rfl | hn
  · rfl
  · have hhead := head?_toDigits hn
    obtain ⟨d, ds, hds⟩ := List.exists_cons_of_ne_nil (Nat.toDigits_ne_nil (n := n) (b := 10))
    rw [hds, List.head?_cons] at hhead
    rw [hds] at hspan ⊢
    rw [List.cons_append, whole]
    · exact hspan
    · exact fun _ h => hhead (congrArg some (List.cons.inj h).1)

theorem fraction_of_endsNumber {rest : List Char} (h : EndsNumber rest) :
    fraction rest = ([], rest) := by
  unfold fraction
  split
  · exact absurd rfl (h '.' rfl).2.1
  · rfl

theorem exponent_of_endsNumber {rest : List Char} (h : EndsNumber rest) :
    exponent rest = (none, rest) := by
  unfold exponent
  split
  · rename_i c tail
    rw [if_neg (by simpa using (h c rfl).2.2)]
  · rfl

/-- The most that the digits of an integer may write. -/
def InRange (n : Int) : Prop :=
  n.natAbs < 10 ^ Text.Numeral.maxDigits

theorem number_toDigits (negative : Bool) {n : Nat} (hn : n < 10 ^ Text.Numeral.maxDigits)
    {rest : List Char} (hrest : EndsNumber rest) :
    number negative (Nat.toDigits 10 n ++ rest) =
      .ok (.int (Text.Numeral.signed negative n), rest) := by
  have hlength : (Nat.toDigits 10 n).length ≤ Text.Numeral.maxDigits :=
    (Nat.length_toDigits_le_iff (by decide) (by decide)).2 hn
  have hfull : (Nat.toDigits 10 n).isEmpty = false := by
    simp
  rw [number, whole_toDigits n hrest]
  dsimp only
  rw [hfull, fraction_of_endsNumber hrest]
  dsimp only
  rw [exponent_of_endsNumber hrest]
  dsimp only
  rw [Nat.ofDigitChars_toDigits (by decide) (by decide), if_neg Bool.false_ne_true,
    if_pos (by rfl), if_neg (by omega)]

/-- A text that begins with none of the words. -/
theorem word?_eq_none {cs : List Char} (h : ∀ w ∈ words, ¬w.1.toList <+: cs) :
    word? cs = none := by
  rw [word?, List.findSome?_eq_none_iff]
  rintro ⟨w, v⟩ hw
  exact if_neg fun hprefix => h _ hw (List.isPrefixOf_iff_prefix.1 hprefix)

/-- No word begins with a digit, or with a sign and a digit. -/
theorem word?_digits {d : Char} (hd : d.isDigit = true) (cs : List Char) :
    word? (d :: cs) = none ∧ word? ('-' :: d :: cs) = none := by
  have hwords : ∀ w ∈ words, (w.1.toList.head?.any fun c => !c.isDigit) = true ∧
      (w.1.toList.head? ≠ some '-' ∨ (w.1.toList.tail.head?.any fun c => !c.isDigit) = true) := by
    decide
  constructor
  · refine word?_eq_none fun w hw hprefix => ?_
    have hfirst := (hwords w hw).1
    rcases hlist : w.1.toList with _ | ⟨c, tail⟩
    · simp [hlist] at hfirst
    · rw [hlist, List.cons_prefix_cons] at hprefix
      simp [hlist, hprefix.1, hd] at hfirst
  · refine word?_eq_none fun w hw hprefix => ?_
    have hfirst := hwords w hw
    rcases hlist : w.1.toList with _ | ⟨c, _ | ⟨c', tail⟩⟩
    · simp [hlist] at hfirst
    · simp [hlist] at hfirst
      rw [hlist, List.cons_prefix_cons] at hprefix
      exact hfirst.2 hprefix.1
    · rw [hlist, List.cons_prefix_cons, List.cons_prefix_cons] at hprefix
      simp [hlist, hprefix.1, hprefix.2.1, hd] at hfirst

theorem toList_ofNat (k : Nat) : (toString (Int.ofNat k)).toList = Nat.toDigits 10 k :=
  Nat.toList_repr

theorem toList_negSucc (k : Nat) :
    (toString (Int.negSucc k)).toList = '-' :: Nat.toDigits 10 (k + 1) := by
  have hsign : toString (Int.negSucc k) = "-" ++ (k + 1).repr := rfl
  rw [hsign, String.toList_append, Nat.toList_repr]
  rfl

/-- **An integer is read back.** -/
theorem atom_toString {n : Int} (hn : InRange n) {rest : List Char} (hrest : EndsNumber rest) :
    atom ((toString n).toList ++ rest) = .ok (.int n, rest) := by
  cases n with
  | ofNat k =>
    have hnumber := number_toDigits false (n := k) hn hrest
    obtain ⟨d, ds, hds⟩ := List.exists_cons_of_ne_nil (Nat.toDigits_ne_nil (n := k) (b := 10))
    have hd : d.isDigit = true :=
      Nat.isDigit_of_mem_toDigits (by decide) (by decide) (hds ▸ List.mem_cons_self)
    rw [toList_ofNat]
    rw [hds, List.cons_append] at hnumber ⊢
    rw [atom, (word?_digits hd _).1]
    · exact hnumber
    · rintro tail h
      rw [(List.cons.inj h).1] at hd
      cases hd
  | negSucc k =>
    have hnumber := number_toDigits true (n := k + 1) hn hrest
    obtain ⟨d, ds, hds⟩ := List.exists_cons_of_ne_nil (Nat.toDigits_ne_nil (n := k + 1) (b := 10))
    have hd : d.isDigit = true :=
      Nat.isDigit_of_mem_toDigits (by decide) (by decide) (hds ▸ List.mem_cons_self)
    rw [hds, List.cons_append] at hnumber
    rw [toList_negSucc, hds, List.cons_append, List.cons_append, atom, (word?_digits hd _).2]
    exact hnumber

end Disasm.Json
