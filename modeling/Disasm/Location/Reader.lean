import Disasm.Location.Address
import Disasm.Location.Basic
import Disasm.Path.Absolute
import Disasm.Text.Case
/-!
# Reading locations

A text that starts with `ssh://` or `sftp://`, in any letter case, is a
remote location; any other text is a path on this machine, made absolute.
A remote text is an authority, which names user, host and port, and a
percent-encoded path; query and fragment are dropped. Of several faults
the first in this order is reported: the brackets of the authority, the
characters of the authority, the missing host, the port.
-/

namespace Disasm.Location

/-- The schemes of remote locations. -/
def schemes : List String := ["ssh", "sftp"]

/-- Cuts a remote text into its scheme and what follows the slashes. -/
def cutScheme? (raw : String) : Option (String × List Char) :=
  schemes.findSome? fun scheme =>
    let head := (scheme ++ "://").toList
    if head.isPrefixOf (raw.toList.map Char.toLower) then some (scheme, raw.toList.drop head.length)
    else none

/-- A text without tabs and line breaks, which a URL ignores. -/
def dropBreaks (cs : List Char) : List Char :=
  cs.filter fun c => c ≠ '\t' && c ≠ '\n' && c ≠ '\r'

/-- Whether a character ends the authority. -/
def endsAuthority (c : Char) : Bool :=
  c = '/' || c = '?' || c = '#'

/-- The authority of a URL, and the rest. -/
def cutAuthority (cs : List Char) : List Char × List Char :=
  (cs.takeWhile (!endsAuthority ·), cs.dropWhile (!endsAuthority ·))

/-- The path of a URL, given what follows the authority. -/
def urlPath (cs : List Char) : List Char :=
  (cs.takeWhile (· ≠ '#')).takeWhile (· ≠ '?')

/-- The characters whose compatibility form holds a delimiter of URLs. -/
def unstableChars : List Nat :=
  [0x2047, 0x2048, 0x2049, 0x2100, 0x2101, 0x2105, 0x2106, 0x2A74, 0xFE13, 0xFE16, 0xFE55, 0xFE56,
   0xFE5F, 0xFE6B, 0xFF03, 0xFF0F, 0xFF1A, 0xFF1F, 0xFF20]

/-- The user information of an authority, if there is any, and the host with
its port. -/
def cutUser (authority : List Char) : Option (List Char) × List Char :=
  match Text.cutLast? '@' authority with
  | some (info, rest) => (some info, rest)
  | none => (none, authority)

/-- The host of an authority and the text of its port. A bracketed host
holds colons of its own. -/
def cutPort (hostport : List Char) : List Char × List Char :=
  if hostport.contains '[' then
    let (host, rest) := Text.cutFirst ']' (Text.cutFirst '[' hostport).2
    (host, (Text.cutFirst ':' rest).2)
  else Text.cutFirst ':' hostport

/-- Checks a bracketed host. -/
def checkBracketed (host : List Char) : Except Failure Unit :=
  if host.head? = some 'v' then
    if Address.isFuture host then .ok () else .error (.url .futureAddress)
  else if Address.isFour host then .error (.url .bracketedFour)
  else if Address.isSix host then .ok ()
  else .error (.url (.notAnAddress (String.ofList host)))

/-- Checks the brackets of an authority: both or neither, nothing in front
of them, nothing but a port behind them. That is the rule of release 3.11.12
of the URL library, and of the builds of earlier releases that took it over
as a fix; the others check only what stands between the brackets. -/
def checkBrackets (authority : List Char) : Except Failure Unit :=
  let opens := authority.contains '['
  let closes := authority.contains ']'
  if opens ≠ closes then .error (.url .brackets)
  else if !opens then .ok ()
  else
    let hostport := (cutUser authority).2
    if hostport.contains '[' then
      let (before, inside) := Text.cutFirst '[' hostport
      let (host, after) := Text.cutFirst ']' inside
      if !before.isEmpty || !(after.isEmpty || after.head? = some ':') then
        .error (.url .brackets)
      else checkBracketed host
    else checkBracketed (Text.cutFirst ':' hostport).1

/-- Checks the characters of an authority. -/
def checkStable (authority : List Char) : Except Failure Unit :=
  if authority.any fun c => unstableChars.contains c.toNat then
    .error (.url (.unstable (String.ofList authority)))
  else .ok ()

/-- A host in lower case, up to the zone of an address. -/
def lowerHost (host : List Char) : String :=
  Text.lower (String.ofList (host.takeWhile (· ≠ '%'))) ++
    String.ofList (host.dropWhile (· ≠ '%'))

/-- Reads a port: no text is no port, any other must be ASCII digits of a
number up to 65535. -/
def readPort (cs : List Char) : Except Failure (Option Int) :=
  if cs.isEmpty then .ok none
  else if !cs.all Char.isDigit then .error (.url (.portText (String.ofList cs)))
  else if Text.Numeral.maxDigits < cs.length then .error (.tooManyDigits cs.length)
  else if 65535 < Nat.ofDigitChars 10 cs 0 then .error (.url .portRange)
  else .ok (some (Nat.ofDigitChars 10 cs 0))

/-- Reads a remote location from what follows its scheme. -/
def readRemote (raw scheme : String) (rest : List Char) : Except Failure Location := do
  let (authority, rest) := cutAuthority (dropBreaks rest)
  checkBrackets authority
  checkStable authority
  let (info, hostport) := cutUser authority
  let (host, port) := cutPort hostport
  if host.isEmpty then throw (.url (.missingHost raw))
  let path := Text.Percent.decode (String.ofList (urlPath rest))
  let port ← readPort port
  return {
    path := if path.isEmpty then "/" else path
    host := some (lowerHost host)
    user := info.map fun cs => String.ofList (Text.cutFirst ':' cs).1
    port
    scheme }

/-- Reads a location as a user writes it, seen from the working directory and
with the homes of users, as far as they are known. -/
def read (cwd home : Option String) (users : List (String × String)) (raw : String) :
    Except Failure Location :=
  match cutScheme? raw with
  | some (scheme, rest) => readRemote raw scheme rest
  | none => do
    let path ← Path.expandHome home users raw
    return { path := ← Path.seenFrom cwd path }

end Disasm.Location
