import Disasm.Text.Utf8
import Mathlib.Tactic.Common
/-!
# UTF-8 — a text comes back

A reader of bytes cuts them into sequences by what their first bytes
announce, and takes no sequence that is longer than it need be, a
surrogate or past the last plane. What is written for a character is none
of these (`piece_encodeChar`), so that every text is read back from its
bytes, by a reader that replaces what it cannot read
(`decodeLenient_encode`) and by one that refuses it
(`decodeStrict_encode`).
-/

namespace Disasm.Text.Utf8

theorem toNat_ofNat_byte {n : Nat} (h : n < 256) : (UInt8.ofNat n).toNat = n :=
  UInt8.toNat_ofNat_of_lt h

/-- A byte that may stand there is taken onto the value. -/
theorem continued_cons {value taken more lo hi n : Nat} {rest : Bytes} (hbyte : n < 256)
    (hlo : lo ≤ n) (hhi : n ≤ hi) :
    continued value taken (more + 1) lo hi (UInt8.ofNat n :: rest) =
      continued (value * 64 + n % 64) (taken + 1) more 0x80 0xBF rest := by
  rw [continued, toNat_ofNat_byte hbyte, if_pos ⟨hlo, hhi⟩]

/-- A first byte that announces more is read with what follows it. -/
theorem piece_lead {n more lo hi : Nat} {rest : Bytes} (hbyte : n < 256) (hhigh : 0x80 ≤ n)
    (hlead : lead? n = some (more, lo, hi)) :
    piece (UInt8.ofNat n) rest = continued (leadBits n more) 1 more lo hi rest := by
  rw [piece, toNat_ofNat_byte hbyte, if_neg (by omega), hlead]

/-! ## The bytes of one character -/

section Character

variable {c : Char} {k : Nat}

theorem scalar_ofNat {n : Nat} (h : n = c.toNat) : Piece.scalar (Char.ofNat n) k = .scalar c k := by
  rw [h, Char.ofNat_toNat]

/-- A character of two bytes. -/
theorem piece_two (rest : Bytes) (hmore : 0x7F < c.toNat) (hless : c.toNat ≤ 0x7FF) :
    piece (UInt8.ofNat (c.toNat / 64 % 32 + 0xC0))
      (UInt8.ofNat (c.toNat % 64 + 0x80) :: rest) = .scalar c 2 := by
  have hlead : lead? (c.toNat / 64 % 32 + 0xC0) = some (1, 0x80, 0xBF) := by
    rw [lead?, if_neg (by omega), if_pos (by omega)]
  rw [piece_lead (by omega) (by omega) hlead, continued_cons (by omega) (by omega) (by omega),
    continued]
  refine scalar_ofNat ?_
  change (c.toNat / 64 % 32 + 0xC0) % 32 * 64 + (c.toNat % 64 + 0x80) % 64 = c.toNat
  omega

/-- A character of three bytes. The bounds of the second byte depend on the
first: too small a value and a surrogate are kept out. -/
theorem piece_three (rest : Bytes) (hmore : 0x7FF < c.toNat) (hless : c.toNat ≤ 0xFFFF)
    (hvalid : c.toNat < 0xD800 ∨ 0xDFFF < c.toNat) :
    piece (UInt8.ofNat (c.toNat / 4096 % 16 + 0xE0))
      (UInt8.ofNat (c.toNat / 64 % 64 + 0x80) :: UInt8.ofNat (c.toNat % 64 + 0x80) :: rest) =
      .scalar c 3 := by
  obtain ⟨lo, hi, hlead, hlo, hhi⟩ : ∃ lo hi,
      lead? (c.toNat / 4096 % 16 + 0xE0) = some (2, lo, hi) ∧
        lo ≤ c.toNat / 64 % 64 + 0x80 ∧ c.toNat / 64 % 64 + 0x80 ≤ hi := by
    rw [lead?, if_neg (by omega), if_neg (by omega)]
    split
    · exact ⟨_, _, rfl, by omega, by omega⟩
    split
    · exact ⟨_, _, rfl, by omega, by omega⟩
    · rw [if_pos (by omega)]
      exact ⟨_, _, rfl, by omega, by omega⟩
  rw [piece_lead (by omega) (by omega) hlead, continued_cons (by omega) hlo hhi,
    continued_cons (by omega) (by omega) (by omega), continued]
  refine scalar_ofNat ?_
  change ((c.toNat / 4096 % 16 + 0xE0) % 16 * 64 + (c.toNat / 64 % 64 + 0x80) % 64) * 64 +
    (c.toNat % 64 + 0x80) % 64 = c.toNat
  omega

/-- A character of four bytes. Here the bounds keep out what is too small
and what is past the last plane. -/
theorem piece_four (rest : Bytes) (hmore : 0xFFFF < c.toNat) (hless : c.toNat < 0x110000) :
    piece (UInt8.ofNat (c.toNat / 262144 % 8 + 0xF0))
      (UInt8.ofNat (c.toNat / 4096 % 64 + 0x80) :: UInt8.ofNat (c.toNat / 64 % 64 + 0x80) ::
        UInt8.ofNat (c.toNat % 64 + 0x80) :: rest) = .scalar c 4 := by
  obtain ⟨lo, hi, hlead, hlo, hhi⟩ : ∃ lo hi,
      lead? (c.toNat / 262144 % 8 + 0xF0) = some (3, lo, hi) ∧
        lo ≤ c.toNat / 4096 % 64 + 0x80 ∧ c.toNat / 4096 % 64 + 0x80 ≤ hi := by
    rw [lead?, if_neg (by omega), if_neg (by omega), if_neg (by omega), if_neg (by omega),
      if_neg (by omega)]
    split
    · exact ⟨_, _, rfl, by omega, by omega⟩
    split
    · exact ⟨_, _, rfl, by omega, by omega⟩
    · rw [if_pos (by omega)]
      exact ⟨_, _, rfl, by omega, by omega⟩
  rw [piece_lead (by omega) (by omega) hlead, continued_cons (by omega) hlo hhi,
    continued_cons (by omega) (by omega) (by omega),
    continued_cons (by omega) (by omega) (by omega), continued]
  refine scalar_ofNat ?_
  change (((c.toNat / 262144 % 8 + 0xF0) % 8 * 64 + (c.toNat / 4096 % 64 + 0x80) % 64) * 64 +
    (c.toNat / 64 % 64 + 0x80) % 64) * 64 + (c.toNat % 64 + 0x80) % 64 = c.toNat
  omega

/-- **What is written for a character is read as that character**, whatever
follows it. -/
theorem piece_encodeChar (c : Char) (rest : Bytes) :
    ∃ b bs, String.utf8EncodeChar c = b :: bs ∧
      piece b (bs ++ rest) = .scalar c (bs.length + 1) := by
  have hvalid : c.toNat < 0xD800 ∨ (0xDFFF < c.toNat ∧ c.toNat < 0x110000) := c.valid
  have hval : c.val.toNat = c.toNat := rfl
  rw [String.utf8EncodeChar, hval]
  by_cases hone : c.toNat ≤ 0x7F
  · refine ⟨_, _, if_pos hone, ?_⟩
    rw [piece, toNat_ofNat_byte (by omega), if_pos (by omega)]
    exact scalar_ofNat rfl
  by_cases htwo : c.toNat ≤ 0x7FF
  · exact ⟨_, _, (if_neg hone).trans (if_pos htwo), piece_two rest (by omega) htwo⟩
  by_cases hthree : c.toNat ≤ 0xFFFF
  · refine ⟨_, _, (if_neg hone).trans ((if_neg htwo).trans (if_pos hthree)), ?_⟩
    exact piece_three rest (by omega) hthree (by omega)
  · refine ⟨_, _, (if_neg hone).trans ((if_neg htwo).trans (if_neg hthree)), ?_⟩
    exact piece_four rest (by omega) (by omega)

end Character

/-! ## The bytes of a text -/

/-- The bytes of a piece that has been read are passed over. -/
theorem piecesFrom_append (bs rest : Bytes) :
    piecesFrom bs.length (bs ++ rest) = piecesFrom 0 rest := by
  induction bs with
  | nil => rfl
  | cons b bs ih => exact ih

/-- The bytes of a text are cut into its characters. -/
theorem pieces_encode (cs : List Char) :
    pieces (cs.flatMap String.utf8EncodeChar) =
      cs.map fun c => .scalar c (String.utf8EncodeChar c).length := by
  induction cs with
  | nil => rfl
  | cons c cs ih =>
    obtain ⟨b, bs, hbytes, hpiece⟩ := piece_encodeChar c (cs.flatMap String.utf8EncodeChar)
    have hnext := piecesFrom_append bs (cs.flatMap String.utf8EncodeChar)
    rw [List.map_cons, ← ih, List.flatMap_cons, hbytes, List.cons_append, pieces, piecesFrom,
      hpiece]
    simp only [Piece.length, Nat.add_sub_cancel, hnext, List.length_cons, pieces]

/-- **A text is read back from its bytes.** -/
theorem decodeLenient_encode (s : String) : decodeLenient (encode s) = s := by
  have hchars : (Piece.lenient ∘ fun c => .scalar c (String.utf8EncodeChar c).length) = id := rfl
  rw [decodeLenient, encode, pieces_encode, List.map_map, hchars, List.map_id, String.ofList_toList]

/-- **And so it is by a reader that takes nothing else.** -/
theorem decodeStrict_encode (s : String) : decodeStrict (encode s) = .ok s := by
  have hscalars : ∀ (cs : List Char) (offset : Nat),
      scalars offset (cs.map fun c => .scalar c (String.utf8EncodeChar c).length) = .ok cs := by
    intro cs
    induction cs with
    | nil => exact fun _ => rfl
    | cons c cs ih =>
      intro offset
      rw [List.map_cons, scalars, ih]
      rfl
  rw [decodeStrict, encode, pieces_encode, hscalars]
  exact congrArg Except.ok String.ofList_toList

end Disasm.Text.Utf8
