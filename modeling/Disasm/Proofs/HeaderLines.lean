import Disasm.Listing.Index
import Disasm.Proofs.SymbolTable
import Mathlib.Data.List.TakeWhile
import Mathlib.Data.Nat.Digits.Defs
/-!
# Header lines — what the index of a listing is made from

A line is a header if it is, as a whole, one or more hexadecimal digits, a
blank, and a name between `<` and `>:`. The index of a text is read off its
header lines and nothing else: it holds the names they announce, each with
the address and the number of its last header, in the order of their first
ones (`index_of_headers`). What the lines of a text are is said by `Cut`,
apart from how they are found.
-/

namespace Disasm

namespace Text

/-! ## Lines -/

/-- The characters that end a line. -/
def lineEnds : List Char :=
  [0x0A, 0x0B, 0x0C, 0x0D, 0x1C, 0x1D, 0x1E, 0x85, 0x2028, 0x2029].map Char.ofNat

/-- What ends a line, in front of a rest: one of the characters, or a
carriage return with the line feed behind it. These two are never ends of
their own. -/
def IsEnding (ending rest : List Char) : Prop :=
  ending = ['\r', '\n'] ∨
    ∃ c ∈ lineEnds, ending = [c] ∧ ¬(c = '\r' ∧ rest.head? = some '\n')

/-- A text is cut into lines: each is free of line ends and has one behind
it, except that the last may have none if it is not empty. -/
inductive Cut : List Char → List (List Char) → Prop
  | nothing : Cut [] []
  | last {line : List Char} : line ≠ [] → (∀ c ∈ line, c ∉ lineEnds) → Cut line [line]
  | line {line ending rest : List Char} {lines : List (List Char)} :
      (∀ c ∈ line, c ∉ lineEnds) → IsEnding ending rest → Cut rest lines →
      Cut (line ++ ending ++ rest) (line :: lines)

theorem isLineEnd_iff (c : Char) : isLineEnd c = true ↔ c ∈ lineEnds := by
  have hof : ∀ n ∈ [0x0A, 0x0B, 0x0C, 0x0D, 0x1C, 0x1D, 0x1E, 0x85, 0x2028, 0x2029],
      (Char.ofNat n).toNat = n := by
    decide
  rw [lineEnds, List.mem_map]
  constructor
  · intro h
    refine ⟨c.toNat, ?_, Char.ofNat_toNat c⟩
    simp only [isLineEnd, Bool.or_eq_true, Bool.and_eq_true, decide_eq_true_eq, beq_iff_eq] at h
    simp only [List.mem_cons, List.not_mem_nil, or_false]
    omega
  · rintro ⟨n, hn, rfl⟩
    rw [isLineEnd, hof n hn]
    revert n
    decide

/-- What is held of the open line goes in front of it. -/
theorem cut_linesFrom (held cs : List Char) (hheld : ∀ c ∈ held, c ∉ lineEnds) :
    Cut (held.reverse ++ cs) (linesFrom held cs) := by
  have hreverse : ∀ line : List Char, (∀ c ∈ line, c ∉ lineEnds) →
      ∀ c ∈ line.reverse, c ∉ lineEnds :=
    fun line hline c hc => hline c (List.mem_reverse.1 hc)
  fun_induction linesFrom held cs with
  | case1 held hempty =>
    rw [List.isEmpty_iff.1 hempty]
    exact .nothing
  | case2 held hopen =>
    rw [List.append_nil]
    exact .last (by simpa using hopen) (hreverse held hheld)
  | case3 held rest ih =>
    have hcut := Cut.line (hreverse held hheld) (.inl rfl) (ih (by simp))
    rwa [List.append_assoc] at hcut
  | case4 held c rest hpair hend ih =>
    -- A carriage return in front of a line feed was taken in the case before.
    have hending : IsEnding [c] rest := by
      refine .inr ⟨c, (isLineEnd_iff c).1 hend, rfl, ?_⟩
      rintro ⟨hc, hhead⟩
      obtain ⟨tail, rfl⟩ := List.head?_eq_some_iff.1 hhead
      exact hpair tail hc rfl
    have hcut := Cut.line (hreverse held hheld) hending (ih (by simp))
    rwa [List.append_assoc] at hcut
  | case5 held c rest hpair hplain ih =>
    have hc : c ∉ lineEnds := fun h => hplain ((isLineEnd_iff c).2 h)
    have hmore := ih (by simpa using ⟨hc, hheld⟩)
    rwa [List.reverse_cons, List.append_assoc] at hmore

/-- **The lines of a text are what it is cut into.** -/
theorem cut_lines (s : String) : Cut s.toList ((lines s).map String.toList) := by
  have hback : (lines s).map String.toList = linesFrom [] s.toList := by
    rw [lines, List.map_map]
    exact List.map_id'' (fun _ => String.toList_ofList) _
  rw [hback]
  exact cut_linesFrom [] s.toList (by simp)

end Text

namespace Listing

/-! ## Headers -/

/-- The value of a hexadecimal digit of either case: its place among them. -/
def digitValue (c : Char) : Nat :=
  "0123456789abcdef".toList.idxOf c.toLower

/-- The number that hexadecimal digits write. -/
def valueOf (digits : List Char) : Nat :=
  Nat.ofDigits 16 (digits.reverse.map digitValue)

/-- A line is the header of a name, with an address written by some digits. -/
structure Header (line : String) (digits : List Char) (name : String) : Prop where
  whole : line.toList = digits ++ ' ' :: '<' :: (name.toList ++ ['>', ':'])
  someDigits : digits ≠ []
  digits : ∀ c ∈ digits, ('0' ≤ c ∧ c ≤ '9') ∨ ('a' ≤ c ∧ c ≤ 'f') ∨ ('A' ≤ c ∧ c ≤ 'F')
  someName : name ≠ ""
  name : ∀ c ∈ name.toList, ('A' ≤ c ∧ c ≤ 'Z') ∨ ('a' ≤ c ∧ c ≤ 'z') ∨ ('0' ≤ c ∧ c ≤ '9') ∨
    c = '_' ∨ c = ':' ∨ c = '.'

theorem isHex_iff (c : Char) : isHex c = true ↔
    ('0' ≤ c ∧ c ≤ '9') ∨ ('a' ≤ c ∧ c ≤ 'f') ∨ ('A' ≤ c ∧ c ≤ 'F') := by
  rw [isHex, Text.Percent.nibble?]
  split
  · simp [*]
  split
  · simp [*]
  split
  · simp [*]
  · simp [*]

theorem isNameChar_iff (c : Char) : isNameChar c = true ↔
    ('A' ≤ c ∧ c ≤ 'Z') ∨ ('a' ≤ c ∧ c ≤ 'z') ∨ ('0' ≤ c ∧ c ≤ '9') ∨
      c = '_' ∨ c = ':' ∨ c = '.' := by
  have hupper : c.isUpper = true ↔ 'A' ≤ c ∧ c ≤ 'Z' := decide_eq_true_iff
  have hlower : c.isLower = true ↔ 'a' ≤ c ∧ c ≤ 'z' := by
    change (decide (c.val ≥ 'a'.val) && decide (c.val ≤ 'z'.val)) = true ↔ _
    simp [Char.le_def]
  have halpha : c.isAlpha = (c.isUpper || c.isLower) := rfl
  have hdigit : c.isDigit = true ↔ '0' ≤ c ∧ c ≤ '9' := by
    simp [Char.isDigit, Char.le_def]
  simp only [isNameChar, Char.isAlphanum, halpha, Bool.or_eq_true, decide_eq_true_eq, hupper,
    hlower, hdigit, or_assoc]

/-- The value of a digit is the one it is read as. -/
theorem digitValue_eq {c : Char} (h : isHex c = true) :
    digitValue c = (Text.Percent.nibble? c).getD 0 := by
  have hall : ∀ n < 0x80, isHex (Char.ofNat n) = true →
      digitValue (Char.ofNat n) = (Text.Percent.nibble? (Char.ofNat n)).getD 0 := by
    decide +kernel
  have hascii : c.toNat < 0x80 := by
    have hle : ∀ d : Char, c ≤ d → c.toNat ≤ d.toNat := fun d hd => UInt32.le_iff_toNat_le.1 hd
    rcases (isHex_iff c).1 h with ⟨-, h⟩ | ⟨-, h⟩ | ⟨-, h⟩
    · exact lt_of_le_of_lt (hle _ h) (by decide)
    · exact lt_of_le_of_lt (hle _ h) (by decide)
    · exact lt_of_le_of_lt (hle _ h) (by decide)
  have hc := hall c.toNat hascii
  rw [Char.ofNat_toNat] at hc
  exact hc h

/-- **Digits are read as the number they write.** -/
theorem hexValue_eq {digits : List Char} (h : ∀ c ∈ digits, isHex c = true) :
    hexValue digits = valueOf digits := by
  induction digits using List.reverseRecOn with
  | nil => rfl
  | append_singleton digits c ih =>
    rw [List.forall_mem_append] at h
    have hc : digitValue c = (Text.Percent.nibble? c).getD 0 := digitValue_eq (h.2 c (by simp))
    have hstep : valueOf (digits ++ [c]) = digitValue c + 16 * valueOf digits := by
      rw [valueOf, List.reverse_append, List.reverse_singleton, List.singleton_append,
        List.map_cons, Nat.ofDigits_cons]
      rfl
    rw [hstep, ← ih h.1, hc, hexValue, List.foldl_append, List.foldl_cons, List.foldl_nil]
    rw [← hexValue]
    omega

/-- The characters of a kind in front and the rest are what a list was put
together from, if the rest does not begin with one of the kind. -/
theorem takeWhile_append {p : Char → Bool} {front rest : List Char} {c : Char}
    (hfront : ∀ c ∈ front, p c = true) (hc : p c = false) :
    (front ++ c :: rest).takeWhile p = front := by
  rw [List.takeWhile_append_of_pos hfront, List.takeWhile_cons_of_neg (by simp [hc]),
    List.append_nil]

theorem append_drop_takeWhile (p : Char → Bool) (cs : List Char) :
    cs.takeWhile p ++ cs.drop (cs.takeWhile p).length = cs := by
  have htake : cs.takeWhile p = cs.take (cs.takeWhile p).length :=
    List.prefix_iff_eq_take.1 (List.takeWhile_prefix p)
  nth_rewrite 1 [htake]
  exact List.take_append_drop _ cs

/-- **A line gives an address and a name just in case it is a header.** -/
theorem header?_eq_some_iff (line : String) (address : Nat) (name : String) :
    header? line.toList = some (address, name) ↔
      ∃ digits, Header line digits name ∧ address = valueOf digits := by
  constructor
  · intro h
    have hline := append_drop_takeWhile isHex line.toList
    have hhex : ∀ c ∈ line.toList.takeWhile isHex, isHex c = true :=
      fun c hc => List.mem_takeWhile_imp hc
    rw [header?] at h
    split at h
    · rename_i rest hrest
      have hname := append_drop_takeWhile isNameChar rest
      obtain ⟨hwhole, hgiven⟩ := Option.ite_none_right_eq_some.1 h
      simp only [Bool.and_eq_true, Bool.not_eq_true', List.isEmpty_eq_false_iff,
        decide_eq_true_eq] at hwhole
      obtain ⟨⟨hdigits, hsome⟩, hend⟩ := hwhole
      cases hgiven
      refine ⟨line.toList.takeWhile isHex, ⟨?_, hdigits, fun c hc => (isHex_iff c).1 (hhex c hc),
        ?_, fun c hc => ?_⟩, hexValue_eq hhex⟩
      · rw [String.toList_ofList, ← hend, hname, ← hrest, hline]
      · rwa [Ne, String.ofList_eq_empty_iff]
      · rw [String.toList_ofList] at hc
        exact (isNameChar_iff c).1 (List.mem_takeWhile_imp hc)
    · exact absurd h (by simp)
  · rintro ⟨digits, hheader, rfl⟩
    have hhex : ∀ c ∈ digits, isHex c = true := fun c hc => (isHex_iff c).2 (hheader.digits c hc)
    have hname : ∀ c ∈ name.toList, isNameChar c = true :=
      fun c hc => (isNameChar_iff c).2 (hheader.name c hc)
    have hsome : name.toList ≠ [] := by
      rw [Ne, String.toList_eq_nil_iff]
      exact hheader.someName
    have hdigits : line.toList.takeWhile isHex = digits := by
      rw [hheader.whole]
      exact takeWhile_append hhex (by decide)
    have hrest : line.toList.drop digits.length = ' ' :: '<' :: (name.toList ++ ['>', ':']) := by
      rw [hheader.whole, List.drop_left]
    have hwhole : (name.toList ++ ['>', ':']).takeWhile isNameChar = name.toList :=
      takeWhile_append hname (by decide)
    rw [header?, hdigits, hrest]
    simp [hwhole, hheader.someDigits, hsome, hexValue_eq hhex]

/-! ## Announcements -/

/-- The line of a number in a text is the header of a name, with an address
written by some digits. -/
def Announces (text : String) (i : Nat) (digits : List Char) (name : String) : Prop :=
  ∃ line, (Text.lines text)[i]? = some line ∧ Header line digits name

/-- What a numbered line announces. -/
def announcement? (entry : String × Nat) : Option Symbol :=
  (header? entry.1.toList).map fun (address, name) => ⟨name, address, entry.2⟩

/-- What the lines of a text announce, in their order. -/
def announced (text : String) : List Symbol :=
  (Text.lines text).zipIdx.filterMap announcement?

theorem index_eq (text : String) : index text = SymbolTable.addAll (announced text) := by
  have hadd : ∀ (entries : List (String × Nat)) (t : SymbolTable),
      entries.foldl addLine t = (entries.filterMap announcement?).foldl SymbolTable.add t := by
    intro entries
    induction entries with
    | nil => exact fun _ => rfl
    | cons entry rest ih =>
      intro t
      rw [List.foldl_cons, ih, addLine, List.filterMap_cons, announcement?]
      rcases header? entry.1.toList with _ | ⟨address, name⟩
      · rfl
      · rfl
  exact hadd _ _

theorem announcement?_eq_some_iff {entry : String × Nat} {s : Symbol} :
    announcement? entry = some s ↔ ∃ digits, Header entry.1 digits s.name ∧
      s.address = valueOf digits ∧ s.line = entry.2 := by
  obtain ⟨name, address, line⟩ := s
  rw [announcement?, Option.map_eq_some_iff]
  constructor
  · rintro ⟨⟨value, n⟩, hheader, hs⟩
    obtain ⟨digits, hdigits, rfl⟩ := (header?_eq_some_iff _ _ _).1 hheader
    cases hs
    exact ⟨digits, hdigits, rfl, rfl⟩
  · rintro ⟨digits, hdigits, rfl, rfl⟩
    exact ⟨(valueOf digits, name), (header?_eq_some_iff _ _ _).2 ⟨digits, hdigits, rfl⟩, rfl⟩

/-- What is announced is what the header lines say. -/
theorem mem_announced {text : String} {s : Symbol} : s ∈ announced text ↔
    ∃ i digits, Announces text i digits s.name ∧ s.address = valueOf digits ∧ s.line = i := by
  rw [announced, List.mem_filterMap]
  constructor
  · rintro ⟨⟨line, i⟩, hline, hs⟩
    obtain ⟨digits, hdigits, haddress, hnumber⟩ := announcement?_eq_some_iff.1 hs
    exact ⟨i, digits, ⟨line, List.mem_zipIdx_iff_getElem?.1 hline, hdigits⟩, haddress, hnumber⟩
  · rintro ⟨i, digits, ⟨line, hline, hdigits⟩, haddress, hnumber⟩
    exact ⟨(line, i), List.mem_zipIdx_iff_getElem?.2 hline,
      announcement?_eq_some_iff.2 ⟨digits, hdigits, haddress, hnumber⟩⟩

/-- Announcements stand in the order of their lines. -/
theorem pairwise_announced (text : String) : (announced text).Pairwise (·.line < ·.line) := by
  have hlines : (Text.lines text).zipIdx.Pairwise (fun x y => x.2 < y.2) := by
    refine List.Pairwise.of_map Prod.snd (fun _ _ h => h) ?_
    rw [List.zipIdx_map_snd]
    exact List.pairwise_lt_range'
  refine List.Pairwise.filterMap announcement? ?_ hlines
  intro x y hxy s hs t ht
  obtain ⟨-, -, -, hx⟩ := announcement?_eq_some_iff.1 hs
  obtain ⟨-, -, -, hy⟩ := announcement?_eq_some_iff.1 ht
  rw [hx, hy]
  exact_mod_cast hxy

theorem line_lt_of_after {text : String} {before after : List Symbol} {s t : Symbol}
    (happ : announced text = before ++ s :: after) (ht : t ∈ after) : s.line < t.line := by
  have hpairs := pairwise_announced text
  rw [happ, List.pairwise_append, List.pairwise_cons] at hpairs
  exact hpairs.2.1.1 t ht

/-- The last line that announces a name is the one the index goes by. -/
theorem find?_index {text : String} {i : Nat} {digits : List Char} {name : String}
    (h : Announces text i digits name)
    (hlast : ∀ j other, Announces text j other name → j ≤ i) :
    (index text).find? name = some ⟨name, valueOf digits, i⟩ := by
  rw [index_eq, SymbolTable.find?_addAll]
  obtain ⟨before, after, happ⟩ := List.append_of_mem (mem_announced.2 ⟨i, digits, h, rfl, rfl⟩ :
    (⟨name, valueOf digits, i⟩ : Symbol) ∈ announced text)
  have hlater : ∀ s ∈ after, s.name ≠ name := by
    rintro s hs rfl
    have hlt : (i : Int) < s.line := line_lt_of_after happ hs
    have hmem : s ∈ announced text := by simp [happ, hs]
    obtain ⟨j, other, hannounces, -, hj⟩ := mem_announced.1 hmem
    have hle := hlast j other hannounces
    omega
  have hnone : after.reverse.find? (·.name = name) = none :=
    List.find?_eq_none.2 fun s hs => by simpa using hlater s (List.mem_reverse.1 hs)
  rw [happ, List.reverse_append, List.reverse_cons, List.append_assoc, List.find?_append, hnone]
  simp

/-- Of the names of an index the one that is announced first stands first. -/
theorem pairwise_index (text : String) : (index text).names.Pairwise fun a b =>
    ∃ i digits, Announces text i digits a ∧ ∀ j other, Announces text j other b → i < j := by
  rw [index_eq]
  refine (SymbolTable.pairwise_addAll _).imp ?_
  rintro a b ⟨before, s, after, happ, rfl, hne, hb⟩
  have hs : s ∈ announced text := by simp [happ]
  obtain ⟨i, digits, hannounces, -, hi⟩ := mem_announced.1 hs
  refine ⟨i, digits, hannounces, fun j other hj => ?_⟩
  -- What announces the other name is behind this line: not before it, and not in it.
  have ht : (⟨b, valueOf other, j⟩ : Symbol) ∈ before ++ s :: after := by
    rw [← happ]
    exact mem_announced.2 ⟨j, other, hj, rfl, rfl⟩
  rcases List.mem_append.1 ht with ht | ht
  · exact absurd (List.mem_map_of_mem ht) hb
  · rcases List.mem_cons.1 ht with rfl | ht
    · exact absurd rfl hne
    · have hlt : s.line < (j : Int) := line_lt_of_after happ ht
      omega

/-- Texts with the same headers at the same lines have the same index. -/
theorem index_congr {text other : String}
    (h : ∀ i digits name, Announces other i digits name ↔ Announces text i digits name) :
    index other = index text := by
  have hmem : ∀ s, s ∈ announced other ↔ s ∈ announced text := by
    intro s
    simp only [mem_announced, h]
  have hsame : announced other = announced text :=
    (pairwise_announced other).eq_of_mem_iff (pairwise_announced text) hmem
  rw [index_eq, index_eq, hsame]

/-- **The index of a text is read off its header lines.** A name is in it if
and only if a line, as a whole, is a header of the name. The last such line
gives the address and the number, the first one the place among the names,
and a text that differs in other lines has the same index. -/
theorem index_of_headers (text : String) :
    Text.Cut text.toList ((Text.lines text).map String.toList) ∧
    (∀ name, name ∈ (index text).names ↔ ∃ i digits, Announces text i digits name) ∧
    (∀ i digits name, Announces text i digits name →
      (∀ j other, Announces text j other name → j ≤ i) →
      (index text).address? name = some (valueOf digits : Int) ∧
        (index text).line? name = some (i : Int)) ∧
    (index text).names.Pairwise (fun a b =>
      ∃ i digits, Announces text i digits a ∧ ∀ j other, Announces text j other b → i < j) ∧
    ∀ other, (∀ i digits name, Announces other i digits name ↔ Announces text i digits name) →
      index other = index text := by
  refine ⟨Text.cut_lines text, fun name => ?_, fun i digits name h hlast => ?_,
    pairwise_index text, fun other => index_congr⟩
  · rw [index_eq, SymbolTable.mem_names_addAll, List.mem_map]
    constructor
    · rintro ⟨s, hs, rfl⟩
      obtain ⟨i, digits, h, -, -⟩ := mem_announced.1 hs
      exact ⟨i, digits, h⟩
    · rintro ⟨i, digits, h⟩
      exact ⟨⟨name, valueOf digits, i⟩, mem_announced.2 ⟨i, digits, h, rfl, rfl⟩, rfl⟩
  · have hfound := find?_index h hlast
    rw [SymbolTable.address?, SymbolTable.line?, hfound]
    exact ⟨rfl, rfl⟩

/-- An indented line, one with more behind it and one with a sign in the name
are passed over. -/
example : (index "1f <b>:\n 0 <c>:\n00 <a>:\r\n20 <d>: x\n21 <e+1>:\nA0 <b>:").symbols =
    [⟨"b", 160, 5⟩, ⟨"a", 0, 2⟩] := by
  decide +kernel

end Listing

end Disasm
