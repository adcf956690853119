import Disasm.Machine.Basic
/-!
# Sniffing — does a file look binary?

A file looks binary if a null byte stands among its first bytes. Those
bytes are at hand, come from a reader that is asked for them, or are read
from a file; a limit that is not positive asks for none.
-/

namespace Disasm.Sniff

/-- How many bytes are searched by default. -/
def defaultLimit : Int := 1024

/-- Where the bytes come from. -/
inductive Source where
  | bytes (content : Bytes)
  /-- A reader of a content; one without a content yields nothing. -/
  | reader (content : Option Bytes)
  | file (path : String)
  deriving Repr

/-- The bytes to search, and the sizes that a reader was asked for. -/
structure Sample where
  bytes : Bytes
  asked : List Int := []
  deriving Repr, DecidableEq

/-- Takes the first bytes of a source. -/
def Source.sample (s : Source) (limit : Int) : Act Machine Sample :=
  if limit ≤ 0 then pure ⟨[], []⟩
  else match s with
    | .bytes content => pure ⟨content.take limit.toNat, []⟩
    | .reader content => pure ⟨(content.getD []).take limit.toNat, [limit]⟩
    | .file path => return ⟨← Machine.readStart path limit, []⟩

/-- The offset of the first null byte. -/
def nulOffset? (bs : Bytes) : Option Nat :=
  bs.findIdx? (· = 0)

/-- The offset of the first null byte among the first `limit` bytes of a
source, and the sizes that a reader was asked for. -/
def firstNul (s : Source) (limit : Int) : Act Machine (Option Nat × List Int) := do
  let sample ← s.sample limit
  return (nulOffset? sample.bytes, sample.asked)

/-- Whether a source looks binary. -/
def isBinary (s : Source) (limit : Int) : Act Machine (Bool × List Int) := do
  let (offset, asked) ← firstNul s limit
  return (offset.isSome, asked)

end Disasm.Sniff
