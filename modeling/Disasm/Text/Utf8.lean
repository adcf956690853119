/-!
# UTF-8 — bytes and text

Text leaves the program as UTF-8 and comes back from files and child
processes as arbitrary bytes. `pieces` cuts a byte string into scalar
values and ill-formed runs; the lenient reading puts one replacement
character for each run, the strict reading stops at the first one.
A run is the longest start of a well-formed sequence that the bytes
offer, so a broken sequence never swallows a byte that could begin the
next one.
-/

namespace Disasm

/-- The content of a file or of a stream. -/
abbrev Bytes := List UInt8

namespace Text.Utf8

/-- The UTF-8 bytes of a text. -/
def encode (s : String) : Bytes :=
  s.toList.flatMap String.utf8EncodeChar

/-- Why a run of bytes is not UTF-8. -/
inductive Fault where
  /-- No sequence starts with this byte. -/
  | start
  /-- A later byte of the sequence is not one that may stand there. -/
  | continuation
  /-- The bytes end inside the sequence. -/
  | truncated
  deriving Repr, DecidableEq

/-- A cut of a byte string: a scalar value of `length` bytes, or an
ill-formed run of that many. -/
inductive Piece where
  | scalar (c : Char) (length : Nat)
  | broken (fault : Fault) (length : Nat)
  deriving Repr, DecidableEq

/-- The number of bytes a piece stands for. -/
def Piece.length : Piece → Nat
  | .scalar _ n => n
  | .broken _ n => n

/-- What a lead byte announces: how many bytes follow, and the bounds of
the first of them. The bounds keep out overlong forms, surrogates and
values past the last plane. -/
def lead? (b : Nat) : Option (Nat × Nat × Nat) :=
  if b < 0xC2 then none
  else if b < 0xE0 then some (1, 0x80, 0xBF)
  else if b = 0xE0 then some (2, 0xA0, 0xBF)
  else if b = 0xED then some (2, 0x80, 0x9F)
  else if b < 0xF0 then some (2, 0x80, 0xBF)
  else if b = 0xF0 then some (3, 0x90, 0xBF)
  else if b < 0xF4 then some (3, 0x80, 0xBF)
  else if b = 0xF4 then some (3, 0x80, 0x8F)
  else none

/-- Takes `more` continuation bytes, the first of them between `lo` and
`hi`, onto the value read so far; `taken` bytes are behind. -/
def continued (value taken : Nat) : (more lo hi : Nat) → Bytes → Piece
  | 0, _, _, _ => .scalar (Char.ofNat value) taken
  | _ + 1, _, _, [] => .broken .truncated taken
  | more + 1, lo, hi, b :: rest =>
    if lo ≤ b.toNat ∧ b.toNat ≤ hi then
      continued (value * 64 + b.toNat % 64) (taken + 1) more 0x80 0xBF rest
    else .broken .continuation taken

/-- The payload bits of a lead byte that announces `more` bytes. -/
def leadBits (b more : Nat) : Nat :=
  b % Nat.pow 2 (6 - more)

/-- The piece at the front of `b :: rest`. -/
def piece (b : UInt8) (rest : Bytes) : Piece :=
  if b.toNat < 0x80 then .scalar (Char.ofNat b.toNat) 1
  else match lead? b.toNat with
    | none => .broken .start 1
    | some (more, lo, hi) => continued (leadBits b.toNat more) 1 more lo hi rest

/-- The bytes of `piece` are dropped before the next one is read: `skip`
counts those still to pass. -/
def piecesFrom : (skip : Nat) → Bytes → List Piece
  | _, [] => []
  | skip + 1, _ :: rest => piecesFrom skip rest
  | 0, b :: rest =>
    let p := piece b rest
    p :: piecesFrom (p.length - 1) rest

/-- A byte string as scalar values and ill-formed runs. -/
def pieces (bs : Bytes) : List Piece :=
  piecesFrom 0 bs

/-- The character that stands for an ill-formed run. -/
def replacement : Char := Char.ofNat 0xFFFD

/-- A piece as the lenient reading shows it. -/
def Piece.lenient : Piece → Char
  | .scalar c _ => c
  | .broken _ _ => replacement

/-- Reads any bytes as text, one replacement character for each
ill-formed run. -/
def decodeLenient (bs : Bytes) : String :=
  String.ofList ((pieces bs).map Piece.lenient)

/-- Where a strict reading stopped. -/
structure Undecodable where
  fault : Fault
  /-- Offset of the run. -/
  offset : Nat
  /-- Number of bytes in the run. -/
  length : Nat
  /-- The byte at `offset`. -/
  byte : UInt8
  deriving Repr, DecidableEq

/-- The wording of a fault. -/
def Fault.reason : Fault → String
  | .start => "invalid start byte"
  | .continuation => "invalid continuation byte"
  | .truncated => "unexpected end of data"

/-- The characters of the pieces, or the offset and the size of the first
ill-formed run. -/
def scalars : (offset : Nat) → List Piece → Except (Fault × Nat × Nat) (List Char)
  | _, [] => .ok []
  | offset, .scalar c n :: rest => (scalars (offset + n) rest).map (c :: ·)
  | offset, .broken f n :: _ => .error (f, offset, n)

/-- Reads well-formed UTF-8 only. -/
def decodeStrict (bs : Bytes) : Except Undecodable String :=
  match scalars 0 (pieces bs) with
  | .ok cs => .ok (String.ofList cs)
  | .error (f, offset, n) => .error ⟨f, offset, n, bs.getD offset 0⟩

end Text.Utf8

end Disasm
