import Disasm.Json.Basic
import Disasm.Text.Utf8
/-!
# Failures — everything that can go wrong, by cause

Each operation that fails does so with a cause. The wording of a cause is
`Failure.message`; which causes an operation forgives is told by the
predicates at the end.
-/

namespace Disasm

/-- What the system reports about a file or a program. -/
inductive Errno where
  | noEntry
  | argumentsTooLong
  | execFormat
  | noMemory
  | accessDenied
  | alreadyExists
  | notDirectory
  | isDirectory
  | tooLarge
  | noSpace
  | nameTooLong
  | linkLoop
  /-- The working directory is not there any more. -/
  | lostDirectory
  deriving Repr, DecidableEq

namespace Errno

/-- The number of a report. -/
def code : Errno → Nat
  | .noEntry => 2
  | .argumentsTooLong => 7
  | .execFormat => 8
  | .noMemory => 12
  | .accessDenied => 13
  | .alreadyExists => 17
  | .notDirectory => 20
  | .isDirectory => 21
  | .tooLarge => 27
  | .noSpace => 28
  | .nameTooLong => 36
  | .linkLoop => 40
  | .lostDirectory => 2

/-- The words of a report. -/
def words : Errno → String
  | .noEntry => "No such file or directory"
  | .argumentsTooLong => "Argument list too long"
  | .execFormat => "Exec format error"
  | .noMemory => "Cannot allocate memory"
  | .accessDenied => "Permission denied"
  | .alreadyExists => "File exists"
  | .notDirectory => "Not a directory"
  | .isDirectory => "Is a directory"
  | .tooLarge => "File too large"
  | .noSpace => "No space left on device"
  | .nameTooLong => "File name too long"
  | .linkLoop => "Too many levels of symbolic links"
  | .lostDirectory => "No such file or directory"

/-- Whether a report names the path it is about. Of a file that is open, and
of the working directory, the system is not told the path. -/
def namesPath : Errno → Bool
  | .tooLarge | .noSpace | .lostDirectory => false
  | _ => true

end Errno

/-- What is wrong with the text of a remote location. -/
inductive UrlFault where
  /-- Brackets that do not enclose the host. -/
  | brackets
  /-- A bracketed host that begins like an address of a future version and
  is none. -/
  | futureAddress
  /-- A bracketed host that is no address. -/
  | notAnAddress (host : String)
  /-- A bracketed host that is an address of version four. -/
  | bracketedFour
  /-- An authority that compatibility mapping would cut elsewhere. -/
  | unstable (authority : String)
  | missingHost (text : String)
  | portText (port : String)
  | portRange
  deriving Repr, DecidableEq

/-- What is wrong with a message and the arguments it is given. -/
inductive TemplateFault where
  | tooFewArguments
  | unusedArguments
  | needsMapping
  | incomplete
  | incompleteKey
  | unsupported (c : Char) (index : Nat)
  | needsNumber (conversion : Char) (kind : String)
  | needsInteger (conversion : Char) (kind : String)
  | needsReal (kind : String)
  | needsCharacter
  | needsWidth
  | characterRange
  /-- A width or precision in the message that is out of range. -/
  | widthRange
  | precisionRange
  /-- A width or precision among the arguments that is out of range. -/
  | starWidthRange
  | starPrecisionRange
  /-- An integer beyond the range of doubles. -/
  | realRange
  /-- A double that has no integer part. -/
  | infinite
  | notANumber
  deriving Repr, DecidableEq

/-- Why the backend gave no listing. -/
inductive BackendFault where
  | notStarted (backend subject reason : String)
  | timedOut (backend subject limit : String)
  | exited (backend : String) (status : Int) (details : String)
  deriving Repr, DecidableEq

/-- What could not be turned from bytes into a text, or from a text into
bytes. -/
inductive CodecFault where
  | bytes (u : Text.Utf8.Undecodable)
  | text (u : Unencodable)
  deriving Repr

/-- The cause of a failure. -/
inductive Failure where
  /-- The system refused an operation on a path or the start of a program. -/
  | system (code : Errno) (path : String)
  /-- A remote command that reads a file failed. -/
  | remoteRead (command host details : String)
  | embeddedNull
  | url (fault : UrlFault)
  | badSuffix (suffix : String)
  | notRemote (path : String)
  | undecodable (fault : CodecFault)
  | tooManyDigits (count : Nat)
  | tooDeep (inList : Bool)
  | unknownLevel (level : String)
  | template (fault : TemplateFault)
  | missingKey (key : String)
  | notIterable (kind : String)
  | noAttribute (kind feature : String)
  | unexpectedField (name : String)
  | notAPath (kind : String)
  | notText (kind : String)
  /-- A value that cannot be looked up. -/
  | notAKey (kind : String)
  | sizeOverflow
  | homeUnknown
  /-- A view that already holds a listing was asked to set one up. -/
  | viewOccupied (state : String)
  /-- A view without a listing was asked about it. -/
  | viewInactive
  /-- A presenter refused a call. -/
  | refused (call : String)
  | predicateFailed
  /-- Calls back and forth between view and presenter without end. -/
  | nestedTooDeep
  | timedOut (command : List String) (limit : Number)
  | backend (fault : BackendFault) (command : List String)
  deriving Repr

/-- The wording of a fault in a remote location. -/
def UrlFault.message : UrlFault → String
  | .brackets => "Invalid IPv6 URL"
  | .futureAddress => "IPvFuture address is invalid"
  | .notAnAddress host =>
    Text.Quoted.write host ++ " does not appear to be an IPv4 or IPv6 address"
  | .bracketedFour => "An IPv4 address cannot be in brackets"
  | .unstable authority =>
    "netloc '" ++ authority ++ "' contains invalid characters under NFKC normalization"
  | .missingHost text => "Remote location is missing a host: " ++ text
  | .portText port => "Port could not be cast to integer value as " ++ Text.Quoted.write port
  | .portRange => "Port out of range 0-65535"

/-- The wording of a fault in a message template. -/
def TemplateFault.message : TemplateFault → String
  | .tooFewArguments => "not enough arguments for format string"
  | .unusedArguments => "not all arguments converted during string formatting"
  | .needsMapping => "format requires a mapping"
  | .incomplete => "incomplete format"
  | .incompleteKey => "incomplete format key"
  | .unsupported c index =>
    let shown := if 0x20 ≤ c.toNat ∧ c.toNat < 0x7F then c else '?'
    "unsupported format character '" ++ shown.toString ++ "' (0x" ++
      Text.Numeral.hexNat c.toNat ++ ") at index " ++ toString index
  | .needsNumber c kind =>
    "%" ++ c.toString ++ " format: a real number is required, not " ++ kind
  | .needsInteger c kind =>
    "%" ++ c.toString ++ " format: an integer is required, not " ++ kind
  | .needsReal kind => "must be real number, not " ++ kind
  | .needsCharacter => "%c requires int or char"
  | .needsWidth => "* wants int"
  | .characterRange => "%c arg not in range(0x110000)"
  | .widthRange => "width too big"
  | .precisionRange => "precision too big"
  | .starWidthRange => "Python int too large to convert to C ssize_t"
  | .starPrecisionRange => "Python int too large to convert to C int"
  | .realRange => "int too large to convert to float"
  | .infinite => "cannot convert float infinity to integer"
  | .notANumber => "cannot convert float NaN to integer"

/-- The wording of a backend failure. -/
def BackendFault.message : BackendFault → String
  | .notStarted backend subject reason =>
    "Unable to start '" ++ backend ++ "' for " ++ subject ++ ": " ++ reason
  | .timedOut backend subject limit =>
    "'" ++ backend ++ "' did not finish within " ++ limit ++ "s for " ++ subject
  | .exited backend status details =>
    "'" ++ backend ++ "' exited with " ++ toString status ++ ": " ++ details

/-- The exit status that a backend failure reports. -/
def BackendFault.status? : BackendFault → Option Int
  | .exited _ status _ => some status
  | _ => none

/-- The wording of what cannot be decoded or encoded: one byte or character is
named, several are given by their offsets. -/
def CodecFault.message : CodecFault → String
  | .bytes u =>
    "'utf-8' codec can't decode " ++
      (if u.length = 1 then
        "byte 0x" ++ Text.Numeral.padLeft 2 '0' (Text.Numeral.hexNat u.byte.toNat) ++
          " in position " ++ toString u.offset
      else
        "bytes in position " ++ toString u.offset ++ "-" ++ toString (u.offset + u.length - 1)) ++
      ": " ++ u.fault.reason
  | .text u =>
    "'utf-8' codec can't encode " ++
      (if u.length = 1 then
        "character '\\u" ++ Text.Numeral.padLeft 4 '0' (Text.Numeral.hexNat u.unit) ++
          "' in position " ++ toString u.offset
      else
        "characters in position " ++ toString u.offset ++ "-" ++
          toString (u.offset + u.length - 1)) ++
      ": surrogates not allowed"

namespace Failure

/-- The wording of a failure. -/
def message : Failure → String
  | .system code path =>
    "[Errno " ++ toString code.code ++ "] " ++ code.words ++
      (if code.namesPath then ": " ++ Text.Quoted.write path else "")
  | .remoteRead command host details => command ++ " failed on " ++ host ++ ": " ++ details
  | .embeddedNull => "embedded null byte"
  | .url fault => fault.message
  | .badSuffix suffix => "Invalid suffix " ++ Text.Quoted.write suffix
  | .notRemote path => path ++ " is not a remote location"
  | .undecodable fault => fault.message
  | .tooManyDigits count =>
    "Exceeds the limit (" ++ toString Text.Numeral.maxDigits ++
      " digits) for integer string conversion: value has " ++ toString count ++
      " digits; use sys.set_int_max_str_digits() to increase the limit"
  | .tooDeep inList =>
    "maximum recursion depth exceeded while decoding a JSON " ++
      (if inList then "array" else "object") ++ " from a unicode string"
  | .unknownLevel level =>
    "unknown log level '" ++ level ++
      "'; expected one of debug, info, warning, error, critical"
  | .template fault => fault.message
  | .missingKey key => Text.Quoted.write key
  | .notIterable kind => "'" ++ kind ++ "' object is not iterable"
  | .noAttribute kind feature =>
    "'" ++ kind ++ "' object has no attribute '" ++ feature ++ "'"
  | .unexpectedField name =>
    "AppConfig.__init__() got an unexpected keyword argument '" ++ name ++ "'"
  | .notAPath kind => "expected str, bytes or os.PathLike object, not " ++ kind
  | .notText kind => "expected string or bytes-like object, got '" ++ kind ++ "'"
  | .notAKey kind => "unhashable type: '" ++ kind ++ "'"
  | .sizeOverflow => "cannot fit 'int' into an index-sized integer"
  | .homeUnknown => "Could not determine home directory."
  | .viewOccupied state => "view is already " ++ state ++ "; tear it down first"
  | .viewInactive => "no disassembly view is active"
  | .refused call => call ++ " refused"
  | .predicateFailed => "predicate failed"
  | .nestedTooDeep => "maximum recursion depth exceeded"
  | .timedOut command limit =>
    "Command '" ++ Text.Quoted.writeList command ++ "' timed out after " ++ limit.text ++ " seconds"
  | .backend fault _ => fault.message

/-- Failures that the system, local or remote, reported. -/
def isSystem : Failure → Bool
  | .system _ _ => true
  | .remoteRead _ _ _ => true
  | _ => false

/-- Failures that find fault with a value that was given. -/
def isValue : Failure → Bool
  | .embeddedNull | .url _ | .badSuffix _ | .notRemote _ | .undecodable _ | .tooManyDigits _ |
    .unknownLevel _ => true
  | .template (.unsupported _ _) | .template .incomplete | .template .incompleteKey |
    .template .widthRange | .template .precisionRange | .template .notANumber => true
  | _ => false

/-- Failures of a text that the system cannot be given. -/
def isRefusal : Failure → Bool
  | .embeddedNull | .undecodable (.text _) => true
  | _ => false

/-- Failures of the backend to give a listing. -/
def isBackend : Failure → Bool
  | .backend _ _ => true
  | _ => false

end Failure

/-- Why the system cannot be given a text, if it cannot. -/
def Script.refusal? (s : Script) : Option Failure :=
  match s.unencodable? with
  | some u => some (.undecodable (.text u))
  | none => if s.hasNull then some .embeddedNull else none

end Disasm
