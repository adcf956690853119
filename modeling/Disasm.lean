import Disasm.CommandLine.Grammar
import Disasm.CommandLine.Invocation
import Disasm.CommandLine.Reader
import Disasm.CommandLine.Run
import Disasm.CommandLine.Usage
import Disasm.Disassembler
import Disasm.Failure
import Disasm.Host
import Disasm.Json.Basic
import Disasm.Json.Printer
import Disasm.Json.Reader
import Disasm.Listing.Highlight
import Disasm.Listing.Index
import Disasm.Listing.SymbolTable
import Disasm.Location.Address
import Disasm.Location.Basic
import Disasm.Location.Reader
import Disasm.Log.Basic
import Disasm.Log.Setup
import Disasm.Log.Template
import Disasm.Machine.Basic
import Disasm.Machine.Canonical
import Disasm.Machine.Change
import Disasm.Machine.FileTree
import Disasm.Machine.Process
import Disasm.Number.Basic
import Disasm.Number.Binary64
import Disasm.Number.Fixed
import Disasm.Opening.Desk
import Disasm.Opening.Listing
import Disasm.Opening.Registry
import Disasm.Path.Absolute
import Disasm.Path.Basic
import Disasm.Probe
import Disasm.Proofs.AbsolutePath
import Disasm.Proofs.Act
import Disasm.Proofs.BackendOutcome
import Disasm.Proofs.BackendRun
import Disasm.Proofs.Canonical
import Disasm.Proofs.CanonicalEntry
import Disasm.Proofs.Checks
import Disasm.Proofs.CommandViews
import Disasm.Proofs.DerivedName
import Disasm.Proofs.Destination
import Disasm.Proofs.Dispatch
import Disasm.Proofs.FreshListing
import Disasm.Proofs.GivingBack
import Disasm.Proofs.HandlerList
import Disasm.Proofs.HeaderLines
import Disasm.Proofs.HeaderPlace
import Disasm.Proofs.History
import Disasm.Proofs.Interchange
import Disasm.Proofs.JsonIntegers
import Disasm.Proofs.JsonLiteral
import Disasm.Proofs.JsonMembers
import Disasm.Proofs.JsonReading
import Disasm.Proofs.LetterCase
import Disasm.Proofs.Lifecycle
import Disasm.Proofs.LocalFile
import Disasm.Proofs.LocalReading
import Disasm.Proofs.LogSinks
import Disasm.Proofs.NameWalk
import Disasm.Proofs.NullCharacter
import Disasm.Proofs.PercentFixed
import Disasm.Proofs.ProbeEnd
import Disasm.Proofs.ProbedFile
import Disasm.Proofs.Reentry
import Disasm.Proofs.RegistryLaw
import Disasm.Proofs.RemoteCommand
import Disasm.Proofs.RemoteText
import Disasm.Proofs.Reopening
import Disasm.Proofs.ResolveReply
import Disasm.Proofs.Restoring
import Disasm.Proofs.Rollback
import Disasm.Proofs.RoundTrip
import Disasm.Proofs.SavedSettings
import Disasm.Proofs.Scripts
import Disasm.Proofs.SettledCase
import Disasm.Proofs.SettledPlace
import Disasm.Proofs.ShellReading
import Disasm.Proofs.Sniffing
import Disasm.Proofs.StableSettings
import Disasm.Proofs.Standpoint
import Disasm.Proofs.StoredSettings
import Disasm.Proofs.Streams
import Disasm.Proofs.SymbolTable
import Disasm.Proofs.TableAnswers
import Disasm.Proofs.TreeShape
import Disasm.Proofs.UsableMarker
import Disasm.Proofs.Utf8
import Disasm.Proofs.WindowInvariant
import Disasm.Settings.Basic
import Disasm.Settings.Store
import Disasm.Sniff
import Disasm.Text.Blank
import Disasm.Text.Case
import Disasm.Text.CodeRange
import Disasm.Text.Cut
import Disasm.Text.Digit
import Disasm.Text.Lines
import Disasm.Text.Numeral
import Disasm.Text.Percent
import Disasm.Text.Printable
import Disasm.Text.Quoted
import Disasm.Text.Script
import Disasm.Text.Shell
import Disasm.Text.Utf8
import Disasm.Text.Wrap
import Disasm.View.Basic
import Disasm.View.Buffer
import Disasm.View.Rehearsal
import Disasm.View.Request
import Disasm.Window.Basic
import Disasm.Window.Editor
import Disasm.Window.Navigation
