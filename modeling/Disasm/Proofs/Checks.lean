import Disasm.Proofs.LetterCase
import Disasm.Proofs.RemoteCommand
import Mathlib.Data.List.Forall2
/-!
# Checks — in which order a probe looks, and what it starts for that

A probe is a ladder of checks. Each has a reason to turn the file down,
and some take a child process to find out whether they apply. `checks` is
the ladder for what there is to see of a file (`Evidence`). The reason of
a verdict is that of the first check that applies, and the processes that
were started are those of the checks up to that one: no check is made, and
nothing started for it, once an earlier one has applied.
-/

namespace Disasm

open Act

namespace Probe

/-! ## The ladder -/

/-- What a probe asks a child process. -/
inductive Query where
  /-- Where a path of another host leads. -/
  | resolve
  /-- Where another host has the backend. -/
  | lookup
  /-- What a file of another host begins with. -/
  | start
  /-- What the backend says of the headers of a file. -/
  | headers
  deriving Repr, DecidableEq

/-- A check: the reason it gives if it applies, and the query that it takes
to find out. -/
structure Check where
  reason : Reason
  applies : Bool
  query : Option Query := none
  deriving Repr, DecidableEq

/-- The reason of the first check that applies. -/
def firstReason (ladder : List Check) : Reason :=
  ((ladder.find? (·.applies)).map (·.reason)).getD .ok

/-- The queries of the checks up to the first that applies. -/
def asked : List Check → List Query
  | [] => []
  | k :: rest => k.query.toList ++ if k.applies then [] else asked rest

/-- What there is to see of a file. What cannot be seen is missing. -/
structure Evidence where
  location : Option Location := none
  entry : Option Entry := none
  /-- Where the backend was found. -/
  program : Option String := none
  /-- What the file begins with. -/
  start : Option Bytes := none
  /-- What the backend says of the headers. -/
  output : Option String := none
  deriving Repr

namespace Evidence

/-- Whether the file is on another host. -/
def isRemote (seen : Evidence) : Bool :=
  seen.location.any (·.isRemote)

/-- The location that was named. -/
def named (seen : Evidence) : Location :=
  seen.location.getD { path := "" }

/-- Where the file was found to be. -/
def place (seen : Evidence) : Location :=
  match seen.entry with
  | some e => seen.named.withPath e.path
  | none => seen.named

/-- The file that was found. -/
def identity (seen : Evidence) : Option Identity :=
  seen.entry.map fun e =>
    { location := seen.place, size := e.size, isDirectory := e.isDirectory }

end Evidence

/-- The checks of what the backend says of the headers. -/
def headerChecks (output : Option String) : List Check :=
  [{ reason := .backendMissing, applies := output.isNone, query := some .headers },
   { reason := .formatUnrecognized
     applies := output.any fun text => Text.occurs (Text.lower refusal) (Text.lower text) }]

/-- The checks of what a remote file begins with. -/
def startChecks (limit : Nat) (start : Option Bytes) : List Check :=
  [{ reason := .notFound, applies := start.isNone
     query := if 0 < limit then some .start else none },
   { reason := .formatUnrecognized
     applies := start.any fun bytes => !(bytes.take limit).contains 0 }]

/-- The checks of a file that is there. -/
def entryChecks (c : Config) (seen : Evidence) : List Check :=
  { reason := .backendMissing, applies := seen.program.isNone
    query := if seen.isRemote && !c.refuseRemote then some .lookup else none } ::
  { reason := .remoteDisallowed, applies := seen.isRemote && c.refuseRemote } ::
  { reason := .isDirectory, applies := seen.entry.any (·.isDirectory) } ::
  { reason := .zeroSize, applies := seen.entry.any (·.size = 0) } ::
  ((if seen.isRemote then startChecks c.sniffLimit seen.start else []) ++
    headerChecks seen.output)

/-- The ladder of all checks. -/
def checks (c : Config) (seen : Evidence) : List Check :=
  { reason := .notFound, applies := seen.location.isNone } ::
  { reason := .notFound, applies := seen.entry.isNone
    query := if seen.isRemote then some .resolve else none } ::
  entryChecks c seen

/-! ## What there is to see -/

/-- The words that ask the backend for the headers of a file. -/
def headerWords (backend : Script) (place : Location) : List Script :=
  [backend, "--file-headers", "--", .plain place.name]

/-- Asks the backend for the headers of a file: what it says. -/
def headers (c : Config) (h : Host) (place : Location) : Act Machine String := do
  let backend ← Act.ofExcept (Config.shellWord c.backend)
  let p ← Act.ofExcept (h.prepare (headerWords backend place) place.directory (some backendEnv))
  let reply ← Machine.runText
    { words := p.scripts, cwd := p.cwd, env := p.env.getD [], mergeStderr := true }
  return reply.2.1

/-- The host on which the backend of a file is looked for: the one the file
is on, unless remote files are refused. -/
def lookupHost (c : Config) (l : Location) : Host :=
  if l.isRemote && !c.refuseRemote then Host.of l c.ssh else .here

/-- What a machine shows of a file whose entry was found. Each look is taken
from where the one before left the machine. -/
def evidenceOf (c : Config) (l : Location) (e : Entry) (m : Machine) : Evidence :=
  let host := Host.of l c.ssh
  let place := l.withPath e.path
  let looked := ((lookupHost c l).which c.backend).exec m
  let read := if l.isRemote then (host.readStart place c.sniffLimit).exec looked.2
    else (.ok [], looked.2)
  { location := some l
    entry := some e
    program := looked.1.toOption.join
    start := read.1.toOption
    output := ((headers c host place).exec read.2).1.toOption }

/-- What a machine shows of the file at a location. -/
def evidenceAt (c : Config) (l : Location) (m : Machine) : Evidence :=
  match ((Host.of l c.ssh).resolve l).exec m with
  | (.ok (some e), m₁) => evidenceOf c l e m₁
  | _ => { location := some l }

/-- What a machine shows of the file that a user names. -/
def evidence (c : Config) (raw : String) (m : Machine) : Evidence :=
  match ((Machine.readLocation raw).exec m).1 with
  | .ok l => evidenceAt c l m
  | .error _ => {}

/-! ## What is started -/

/-- A call is the one that a query is asked by: of the host of a location
through ssh, or of the backend on this machine. -/
def Runs (c : Config) (l place : Location) (m : Machine) (call : Call) : Query → Prop
  | .resolve =>
    Host.Sends l c.ssh.text ["sh", "-c", Host.resolveScript, "sh", l.path] call.command
  | .lookup =>
    Host.Sends l c.ssh.text ["sh", "-c", Host.whichScript, "sh", c.backend.text] call.command
  | .start =>
    Host.Sends l c.ssh.text ["head", "-c", toString (c.sniffLimit : Int), "--", place.path]
      call.command
  | .headers =>
    if l.isRemote then
      Host.Sends l c.ssh.text
        (["sh", "-c", Host.runInScript, "sh", place.directory, "env", "LC_ALL=C"] ++
          (headerWords c.backend.script place).map Script.shown) call.command
    else
      call = m.callOf { words := headerWords c.backend.script place, cwd := place.directory
                        env := backendEnv, mergeStderr := true }

/-- Between two machines, calls were made for some queries, in order, and no
others. -/
def Made (runs : Call → Query → Prop) (queries : List Query) (before after : Machine) : Prop :=
  ∃ started, after.calls = before.calls ++ started ∧ List.Forall₂ runs started queries

section Made

variable {runs : Call → Query → Prop} {m m₁ m' : Machine}

theorem Made.nothing (h : m'.calls = m.calls) : Made runs [] m m' :=
  ⟨[], by rw [h, List.append_nil], .nil⟩

/-- One more command was run. -/
theorem Made.one {call : Call} {q : Query} (h : m'.calls = m.calls ++ [call])
    (hq : runs call q) : Made runs [q] m m' :=
  ⟨[call], h, .cons hq .nil⟩

/-- Commands that were run one after the other. -/
theorem Made.trans {qs rs : List Query} (h : Made runs qs m m₁) (h' : Made runs rs m₁ m') :
    Made runs (qs ++ rs) m m' := by
  obtain ⟨first, hfirst, hqs⟩ := h
  obtain ⟨second, hsecond, hrs⟩ := h'
  refine ⟨first ++ second, ?_, List.rel_append hqs hrs⟩
  rw [hsecond, hfirst, List.append_assoc]

/-- What makes no calls adds none. -/
theorem Made.quiet {qs : List Query} (h : Made runs qs m m₁) (hcalls : m'.calls = m₁.calls) :
    Made runs qs m m' := by
  have := h.trans (.nothing hcalls)
  rwa [List.append_nil] at this

end Made

/-- A verdict keeps to a ladder: its reason is that of the first check that
applies, and the calls made are those of the checks up to it. -/
structure Follows (runs : Call → Query → Prop) (m m' : Machine) (v : Verdict)
    (ladder : List Check) : Prop where
  reason : v.reason = firstReason ladder
  calls : Made runs (asked ladder) m m'

namespace Follows

variable {runs : Call → Query → Prop} {m m₁ m' : Machine} {v : Verdict} {k : Check}
variable {rest : List Check}

/-- A ladder ends at a check that applies. -/
theorem stop (hk : k.applies = true) (hv : v.reason = k.reason)
    (hcalls : Made runs k.query.toList m m') : Follows runs m m' v (k :: rest) where
  reason := by rw [firstReason, List.find?_cons_of_pos hk, hv]; rfl
  calls := by rwa [asked, if_pos hk, List.append_nil]

/-- A check that does not apply leads to the next. -/
theorem pass (hk : k.applies = false) (hcalls : Made runs k.query.toList m m₁)
    (h : Follows runs m₁ m' v rest) : Follows runs m m' v (k :: rest) where
  reason := by
    rw [h.reason, firstReason, firstReason, List.find?_cons_of_neg (by rw [hk]; decide)]
  calls := by
    rw [asked, if_neg (by rw [hk]; decide)]
    exact hcalls.trans h.calls

/-- At the end of the ladder the file is accepted. -/
theorem done (hv : v.reason = .ok) (hcalls : m'.calls = m.calls) : Follows runs m m' v [] :=
  ⟨hv, .nothing hcalls⟩

end Follows

end Probe

/-! ## What the parts of a probe start -/

namespace Host

variable {l other : Location} {program : Json} {m m' : Machine}

/-- Only a text can be the ssh program of a host that was reached. -/
theorem program_of_resolve {e : Option Entry}
    (h : (resolve (.remote l program) other).exec m = (.ok e, m')) :
    ∃ word, Config.shellWord program = .ok word := by
  cases program with
  | str s => exact ⟨s, rfl⟩
  | stray b => exact ⟨.broken b, rfl⟩
  | _ => cases h

/-- Only a text can be the name of a program that was looked for. -/
theorem program_of_which {host : Host} {found : Option String}
    (h : (which host program).exec m = (.ok found, m')) :
    ∃ name, Config.shellWord program = .ok name := by
  cases program with
  | str s => exact ⟨s, rfl⟩
  | stray b => exact ⟨.broken b, rfl⟩
  | _ =>
    cases host with
    | here => cases h
    | remote own ssh => cases h

end Host

namespace Probe

/-- A verdict is what it is rejected for, and no command is run for it. -/
theorem exec_reject {reason : Reason} {found : Option Identity} {detail : String}
    {m m' : Machine} {v : Verdict} (h : (reject reason found detail).exec m = (.ok v, m')) :
    v = ⟨reason, found, detail⟩ ∧ m'.calls = m.calls := by
  obtain ⟨_, m₁, hlog, h⟩ := ok_of_exec_bind h
  cases h
  exact ⟨rfl, ((Machine.keeps_unlogged _ _ _).through Machine.calls).eq hlog⟩

/-- The host of a location, with what a probe needs to run programs there. -/
inductive Serves (c : Config) (l : Location) : Host → Prop
  | here : l.isRemote = false → Serves c l .here
  | remote {ssh : Script} : l.isRemote = true → Config.shellWord c.ssh = .ok ssh →
      Serves c l (.remote l c.ssh)

variable {c : Config} {l place : Location} {h : Host} {backend : Script} {m m₀ m₁ : Machine}

/-- A remote host is reached with a program that has a name. -/
theorem Serves.ssh (hserves : Serves c l h) (hremote : l.isRemote = true) :
    Config.shellWord c.ssh = .ok c.ssh.script ∧ h = .remote l c.ssh := by
  cases hserves with
  | here hlocal => rw [hlocal] at hremote; cases hremote
  | remote _ hssh => exact ⟨by rw [Config.script_of_shellWord hssh, hssh], rfl⟩

/-- Where something was resolved the host can be reached. -/
theorem Serves.of_resolve {e : Option Entry}
    (hresolve : ((Host.of l c.ssh).resolve l).exec m = (.ok e, m₁)) :
    Serves c l (Host.of l c.ssh) := by
  by_cases hremote : l.isRemote = true
  · rw [Host.of, if_pos hremote] at hresolve ⊢
    obtain ⟨ssh, hssh⟩ := Host.program_of_resolve hresolve
    exact .remote hremote hssh
  · rw [Host.of, if_neg hremote]
    exact .here (by simpa using hremote)

/-- A program that was started for a host was called for. -/
theorem Made.sent {ssh : String} {words : List String} {q : Query} {runs : Call → Query → Prop}
    (hsent : Host.Sent l ssh words m.calls m₁.calls)
    (hruns : ∀ call : Call, Host.Sends l ssh words call.command → runs call q) :
    Made runs [q] m m₁ := by
  obtain ⟨call, hcall, hsends⟩ := hsent
  exact .one hcall (hruns call hsends)

/-- Only remote files are resolved by a command. -/
theorem made_resolve (hserves : Serves c l h) :
    Made (Runs c l place m₀) (if l.isRemote then some .resolve else none).toList m
      ((h.resolve l).exec m).2 := by
  cases hserves with
  | here hlocal =>
    have hquiet : (Host.resolve .here l).Keeps Machine.calls := Host.keeps_resolve_here l
    rw [hlocal]
    exact .nothing (hquiet m.calls m rfl)
  | @remote ssh hremote hssh =>
    rw [hremote]
    refine .sent (Host.sent_resolve hremote hssh l) fun call hcall => ?_
    rw [Runs, Json.text, Config.script_of_shellWord hssh]
    exact hcall

/-- Only for remote files is a program looked for by a command, and not if they
are refused. -/
theorem made_lookup (hserves : Serves c l (Host.of l c.ssh))
    (hbackend : Config.shellWord c.backend = .ok backend) :
    Made (Runs c l place m₀)
      (if l.isRemote && !c.refuseRemote then some Query.lookup else none).toList m
      (((lookupHost c l).which c.backend).exec m).2 := by
  rw [lookupHost]
  by_cases hthere : (l.isRemote && !c.refuseRemote) = true
  · rw [if_pos hthere, if_pos hthere]
    have hremote : l.isRemote = true := by
      rw [Bool.and_eq_true] at hthere
      exact hthere.1
    obtain ⟨hssh, hhost⟩ := hserves.ssh hremote
    rw [hhost]
    refine .sent (Host.sent_which hremote hssh c.backend hbackend) fun call hcall => ?_
    rw [Runs, Json.text, Json.text, Config.script_of_shellWord hbackend]
    exact hcall
  · rw [if_neg hthere, if_neg hthere]
    exact .nothing (Host.keeps_which_here c.backend m.calls m rfl)

/-- The start of a remote file is read by a command, unless nothing of it is
asked for. -/
theorem made_start (hserves : Serves c l h) (hremote : l.isRemote = true) :
    Made (Runs c l place m₀) (if 0 < c.sniffLimit then some Query.start else none).toList m
      ((h.readStart place c.sniffLimit).exec m).2 := by
  obtain ⟨hssh, rfl⟩ := hserves.ssh hremote
  by_cases hlimit : 0 < c.sniffLimit
  · rw [if_pos hlimit, Host.readStart, if_neg (by omega)]
    refine .sent (Host.sent_readRemote hremote hssh "head" _ ⟨by decide, by decide⟩)
      fun call hcall => ?_
    rw [Runs, Json.text]
    exact hcall
  · rw [if_neg hlimit, Host.readStart, if_pos (by omega)]
    exact .nothing rfl

/-- A call of a program is the same from every machine of one standpoint. -/
theorem callOf_of_standpoint (hsame : m.standpoint = m₀.standpoint) (command : Command) :
    m.callOf command = m₀.callOf command := by
  have henv : m.env = m₀.env := congrArg Machine.Standpoint.env hsame
  rw [Machine.callOf, Machine.callOf, henv]

/-- The command that asks the backend for the headers of a file, once it is
made ready for a host. -/
def headerCommand (p : Prepared) : Command :=
  { words := p.scripts, cwd := p.cwd, env := p.env.getD [], mergeStderr := true }

/-- The headers are asked for by running the backend. -/
theorem exec_headers {p : Prepared} (hbackend : Config.shellWord c.backend = .ok backend)
    (hprepare : h.prepare (headerWords backend place) place.directory (some backendEnv) = .ok p)
    (m : Machine) :
    (headers c h place).exec m =
      (((Machine.runText (headerCommand p)).exec m).1.map (·.2.1),
        ((Machine.runText (headerCommand p)).exec m).2) := by
  rw [← exec_map, map_eq_pure_bind, headers, hbackend]
  change ((Act.ofExcept (h.prepare _ _ _)) >>= _).exec m = _
  rw [hprepare]
  rfl

/-- That is one command. -/
theorem made_headers (hserves : Serves c l h) (hbackend : Config.shellWord c.backend = .ok backend)
    (hsame : m.standpoint = m₀.standpoint) :
    Made (Runs c l place m₀) [.headers] m ((headers c h place).exec m).2 := by
  cases hserves with
  | here hlocal =>
    rw [exec_headers hbackend rfl]
    refine .one (Machine.calls_runText _ m) ?_
    rw [Runs, hlocal, Config.script_of_shellWord hbackend]
    exact callOf_of_standpoint hsame _
  | @remote ssh hremote hssh =>
    obtain ⟨command, hcommand, hsends⟩ := Host.sends_sshCommand hremote hssh "sh"
      (["-c", Host.runInScript, "sh", place.directory, "env", "LC_ALL=C"].map .plain ++
        headerWords backend place) ⟨by decide, by decide⟩
    have hprepare : (Host.remote l c.ssh).prepare (headerWords backend place)
        place.directory (some backendEnv) = .ok ⟨command, none, none⟩ := by
      rw [Host.prepare_remote]
      exact congrArg ((Prepared.mk · none none) <$> ·) hcommand
    rw [exec_headers hbackend hprepare]
    refine .one (Machine.calls_runText _ m) ?_
    rw [Runs, if_pos hremote, Json.text, Config.script_of_shellWord hssh,
      Config.script_of_shellWord hbackend]
    exact hsends

/-! ## The parts of a probe keep to their part of the ladder -/

theorem Serves.prepare (hserves : Serves c l h) (words : List Script) (cwd : String)
    (env : Option (List (String × String))) : ∃ p, h.prepare words cwd env = .ok p := by
  cases hserves with
  | here hlocal => exact ⟨_, rfl⟩
  | @remote ssh hremote hssh =>
    obtain ⟨command, hcommand, -⟩ := Host.sends_sshCommand hremote hssh "sh"
      ((["-c", Host.runInScript, "sh", cwd] ++ Host.settingWords (env.getD [])).map .plain ++ words)
      ⟨by decide, by decide⟩
    refine ⟨⟨command, none, none⟩, ?_⟩
    rw [Host.prepare_remote]
    exact congrArg ((Prepared.mk · none none) <$> ·) hcommand

/-- The refusal is found by either lower case. -/
theorem occurs_refusal (s : String) :
    Text.occurs (Text.lower refusal) (Text.lower s) = Text.occurs refusal (Text.lowerAscii s) := by
  have hascii : refusal.toList.all (fun c => c.toNat < 0x80 ∧ c ≠ 'k') = true := by decide
  have hsteady : Text.IsSteady refusal.toList :=
    ⟨fun c hc => of_decide_eq_true (List.all_eq_true.1 hascii c hc), by decide⟩
  have hlower : Text.lower refusal = refusal := by decide +kernel
  rw [hlower]
  exact hsteady.occurs_lower (by decide) s

/-- The checks of what the backend did say. -/
theorem headerChecks_some (output : String) :
    headerChecks (some output) =
      [{ reason := .backendMissing, applies := false, query := some .headers },
       { reason := .formatUnrecognized
         applies := Text.occurs refusal (Text.lowerAscii output) }] := by
  rw [headerChecks, Option.any_some, occurs_refusal, Option.isNone_some]

variable {i : Identity} {v : Verdict} {m' : Machine}

/-- The verdict on the headers is one on how that run ended. -/
theorem exec_queryHeaders {p : Prepared} (hbackend : Config.shellWord c.backend = .ok backend)
    (hprepare : h.prepare (headerWords backend i.location) i.location.directory
      (some backendEnv) = .ok p) (m : Machine) :
    (queryHeaders c h i).exec m =
      match (Machine.runText (headerCommand p)).exec m with
      | (.ok (_, output, _), m₁) =>
        (if Text.occurs refusal (Text.lowerAscii output) then reject .formatUnrecognized i ""
          else do
            Machine.log Log.debug "services.probe"
              (i.location.display ++ " accepted by " ++ backend.shown)
            return ⟨.ok, i, ""⟩ : Act Machine Verdict).exec m₁
      | (.error f, m₁) =>
        (if f.isSystem then reject .backendMissing i f.message else throw f).exec m₁ := by
  rw [queryHeaders, hbackend]
  change (Act.ofExcept (h.prepare (headerWords backend i.location) _ _) >>= _).exec m = _
  rw [hprepare, exec_bind_ok (exec_ofExcept _ m)]
  change ((Machine.runText (headerCommand p)).attempt >>= _).exec m = _
  rw [exec_bind, exec_attempt]
  rcases (Machine.runText (headerCommand p)).exec m with ⟨f | ⟨status, output, errors⟩, m₁⟩
  · rfl
  · rfl

/-- The last check is of the headers. -/
theorem follows_queryHeaders (hserves : Serves c l h)
    (hbackend : Config.shellWord c.backend = .ok backend)
    (hsame : m.standpoint = m₀.standpoint)
    (hrun : (queryHeaders c h i).exec m = (.ok v, m')) :
    Follows (Runs c l i.location m₀) m m' v
      (headerChecks ((headers c h i.location).exec m).1.toOption) := by
  obtain ⟨p, hprepare⟩ := hserves.prepare (headerWords backend i.location) i.location.directory
    (some backendEnv)
  have hmade : Made (Runs c l i.location m₀) [.headers] m ((headers c h i.location).exec m).2 :=
    made_headers hserves hbackend hsame
  rw [exec_queryHeaders hbackend hprepare] at hrun
  rw [exec_headers hbackend hprepare] at hmade ⊢
  rcases hreply : (Machine.runText (headerCommand p)).exec m with ⟨f | ⟨status, output, errors⟩, m₁⟩
  · rw [hreply] at hrun hmade
    dsimp only at hrun
    split at hrun
    · obtain ⟨rfl, hcalls⟩ := exec_reject hrun
      exact .stop rfl rfl (hmade.quiet hcalls)
    · cases hrun
  · rw [hreply] at hrun hmade
    dsimp only at hrun
    dsimp only [Except.map, Except.toOption]
    rw [headerChecks_some]
    refine .pass rfl hmade ?_
    split at hrun
    · rename_i hrefused
      obtain ⟨rfl, hcalls⟩ := exec_reject hrun
      exact .stop hrefused rfl (.nothing hcalls)
    · rename_i haccepted
      obtain ⟨_, m₂, hlog, hrun⟩ := ok_of_exec_bind hrun
      cases hrun
      have hcalls := ((Machine.keeps_unlogged _ _ _).through Machine.calls).eq hlog
      exact .pass (Bool.eq_false_iff.2 haccepted) (.nothing hcalls) (.done rfl rfl)

/-- Bytes at hand look binary if a null byte is among the first of them. -/
theorem exec_isBinary (bytes : Bytes) (limit : Nat) (m : Machine) :
    (Sniff.isBinary (.bytes bytes) limit).exec m = (.ok ((bytes.take limit).contains 0, []), m) := by
  have hsample : (Sniff.Source.bytes bytes).sample limit = pure ⟨bytes.take limit, []⟩ := by
    rw [Sniff.Source.sample]
    split
    · rename_i hnone
      have hzero : limit = 0 := by omega
      rw [hzero, List.take_zero]
    · rfl
  have hnul : (Sniff.nulOffset? (bytes.take limit)).isSome = (bytes.take limit).contains 0 := by
    rw [Sniff.nulOffset?, List.findIdx?_isSome, List.contains_eq_any_beq]
    congr 1
    funext b
    exact BEq.comm (a := b)
  rw [Sniff.isBinary, Sniff.firstNul, hsample, ← hnul]
  rfl

/-- In front of it stand those of the start of a remote file. -/
theorem follows_sniffRemote (hserves : Serves c l h) (hremote : l.isRemote = true)
    (hbackend : Config.shellWord c.backend = .ok backend) (hsame : m.standpoint = m₀.standpoint)
    (hrun : (sniffRemote c h i).exec m = (.ok v, m')) :
    Follows (Runs c l i.location m₀) m m' v
      (startChecks c.sniffLimit ((h.readStart i.location c.sniffLimit).exec m).1.toOption ++
        headerChecks ((headers c h i.location).exec
          ((h.readStart i.location c.sniffLimit).exec m).2).1.toOption) := by
  have hmade : Made (Runs c l i.location m₀) _ m
      ((h.readStart i.location c.sniffLimit).exec m).2 := made_start hserves hremote
  rw [sniffRemote, exec_bind, exec_attempt] at hrun
  rcases hread : (h.readStart i.location c.sniffLimit).exec m with ⟨f | start, m₁⟩
  · rw [hread] at hrun hmade
    dsimp only at hrun
    split at hrun
    · obtain ⟨rfl, hcalls⟩ := exec_reject hrun
      exact .stop rfl rfl (hmade.quiet hcalls)
    · cases hrun
  · have hkept := (Host.keeps_readStart h i.location c.sniffLimit).eq hread
    rw [hread] at hrun hmade
    dsimp only at hrun
    rw [exec_bind_ok (exec_isBinary start c.sniffLimit m₁)] at hrun
    refine .pass rfl hmade ?_
    split at hrun
    · rename_i hbinary
      refine .pass ?_ (.nothing rfl)
        (follows_queryHeaders hserves hbackend (hkept.trans hsame) hrun)
      exact congrArg (!·) hbinary
    · rename_i htext
      obtain ⟨rfl, hcalls⟩ := exec_reject hrun
      refine .stop ?_ rfl (.nothing hcalls)
      exact congrArg (!·) (Bool.eq_false_iff.2 htext)

/-- A file that is there, as a probe takes it down. -/
def identityOf (l : Location) (e : Entry) : Identity :=
  { location := l.withPath e.path, size := e.size, isDirectory := e.isDirectory }

theorem location_identityOf (l : Location) (e : Entry) :
    (identityOf l e).location = l.withPath e.path := rfl

theorem isRemote_evidenceOf (c : Config) (l : Location) (e : Entry) (m : Machine) :
    (evidenceOf c l e m).isRemote = l.isRemote := rfl

/-- In front of these stand the checks of the entry and of the backend. -/
theorem follows_checkEntry {e : Entry} (hserves : Serves c l (Host.of l c.ssh))
    (hsame : m.standpoint = m₀.standpoint)
    (hrun : (checkEntry c (Host.of l c.ssh) (identityOf l e)).exec m = (.ok v, m')) :
    Follows (Runs c l (l.withPath e.path) m₀) m m' v (entryChecks c (evidenceOf c l e m)) := by
  obtain ⟨found, m₁, hwhich, hrun⟩ := ok_of_exec_bind hrun
  change ((lookupHost c l).which c.backend).exec m = _ at hwhich
  obtain ⟨backend, hbackend⟩ := Host.program_of_which hwhich
  have hmade : Made (Runs c l (l.withPath e.path) m₀) _ m
      (((lookupHost c l).which c.backend).exec m).2 := made_lookup hserves hbackend
  have hkept := (Host.keeps_which _ _).eq hwhich
  rw [hwhich] at hmade
  have hprogram : (evidenceOf c l e m).program = found := by
    rw [evidenceOf, hwhich]
    rfl
  rw [entryChecks, isRemote_evidenceOf, hprogram]
  rcases found with _ | program
  · rw [if_pos Option.isNone_none] at hrun
    obtain ⟨rfl, hcalls⟩ := exec_reject hrun
    exact .stop rfl rfl (hmade.quiet hcalls)
  rw [if_neg (by simp)] at hrun
  refine .pass rfl hmade ?_
  split at hrun
  · rename_i hrefused
    obtain ⟨rfl, hcalls⟩ := exec_reject hrun
    exact .stop hrefused rfl (.nothing hcalls)
  rename_i hallowed
  refine .pass (Bool.eq_false_iff.2 hallowed) (.nothing rfl) ?_
  split at hrun
  · rename_i hdirectory
    obtain ⟨rfl, hcalls⟩ := exec_reject hrun
    exact .stop hdirectory rfl (.nothing hcalls)
  rename_i hfile
  refine .pass (Bool.eq_false_iff.2 hfile) (.nothing rfl) ?_
  split at hrun
  · rename_i hempty
    obtain ⟨rfl, hcalls⟩ := exec_reject hrun
    exact .stop (decide_eq_true hempty) rfl (.nothing hcalls)
  rename_i hfull
  refine .pass (decide_eq_false hfull) (.nothing rfl) ?_
  split at hrun
  · rename_i hremote
    have hremote : l.isRemote = true := hremote
    have hfollows := follows_sniffRemote hserves hremote hbackend (hkept.trans hsame) hrun
    rw [location_identityOf] at hfollows
    rw [if_pos hremote]
    simp only [evidenceOf, hwhich, if_pos hremote]
    exact hfollows
  · rename_i hlocal
    have hlocal : ¬l.isRemote = true := hlocal
    have hfollows := follows_queryHeaders hserves hbackend (hkept.trans hsame) hrun
    rw [location_identityOf] at hfollows
    rw [if_neg hlocal, List.nil_append]
    simp only [evidenceOf, hwhich, if_neg hlocal]
    exact hfollows

/-! ## What a verdict is about -/

theorem identity_reject (reason : Reason) (found : Option Identity) (detail : String) :
    (reject reason found detail).Yields (·.identity = found) :=
  Yields.bind fun _ => Yields.pure rfl

/-- A verdict on a file that was found tells which it is. -/
theorem identity_queryHeaders (c : Config) (h : Host) (i : Identity) :
    (queryHeaders c h i).Yields (·.identity = some i) := by
  refine Yields.bind fun backend => Yields.bind fun prepared => Yields.bind fun r => ?_
  rcases r with f | ⟨status, output, errors⟩
  · exact Yields.ite (identity_reject _ _ _) (Yields.throw _)
  · exact Yields.ite (identity_reject _ _ _) (Yields.bind fun _ => Yields.pure rfl)

theorem identity_checkEntry (c : Config) (h : Host) (i : Identity) :
    (checkEntry c h i).Yields (·.identity = some i) := by
  refine Yields.bind fun found => ?_
  refine Yields.ite (identity_reject _ _ _) ?_
  refine Yields.ite (identity_reject _ _ _) ?_
  refine Yields.ite (identity_reject _ _ _) ?_
  refine Yields.ite (identity_reject _ _ _) ?_
  refine Yields.ite ?_ (identity_queryHeaders c h i)
  refine Yields.bind fun r => ?_
  rcases r with f | start
  · exact Yields.ite (identity_reject _ _ _) (Yields.throw _)
  · exact Yields.bind fun _ =>
      Yields.ite (identity_queryHeaders c h i) (identity_reject _ _ _)

/-- First of all it is checked whether there is an entry. -/
theorem follows_probeAt (hrun : (probeAt c l).exec m = (.ok v, m')) :
    v.identity = (evidenceAt c l m).identity ∧
    Follows (Runs c l (evidenceAt c l m).place m) m m' v
      ({ reason := .notFound, applies := (evidenceAt c l m).entry.isNone
         query := if l.isRemote then some .resolve else none } ::
        entryChecks c (evidenceAt c l m)) := by
  obtain ⟨entry, m₁, hresolve, hrun⟩ := ok_of_exec_bind hrun
  have hserves := Serves.of_resolve hresolve
  have hmade : Made (Runs c l (evidenceAt c l m).place m) _ m
      (((Host.of l c.ssh).resolve l).exec m).2 := made_resolve hserves
  rw [hresolve] at hmade
  rcases entry with _ | e
  · have hseen : evidenceAt c l m = { location := some l } := by
      simp only [evidenceAt, hresolve]
    obtain ⟨rfl, hcalls⟩ := exec_reject hrun
    rw [hseen] at hmade ⊢
    exact ⟨rfl, .stop rfl rfl (hmade.quiet hcalls)⟩
  · have hseen : evidenceAt c l m = evidenceOf c l e m₁ := by
      simp only [evidenceAt, hresolve]
    rw [hseen] at hmade ⊢
    refine ⟨identity_checkEntry _ _ _ _ _ _ hrun, .pass rfl hmade ?_⟩
    exact follows_checkEntry hserves ((Host.keeps_resolve _ _).eq hresolve) hrun

theorem location_evidenceAt (c : Config) (l : Location) (m : Machine) :
    (evidenceAt c l m).location = some l := by
  rw [evidenceAt]
  split
  · rfl
  · rfl

/-- **A probe keeps to the ladder of checks.** -/
theorem follows_probe {raw : String} (hrun : (probe c raw).exec m = (.ok v, m')) :
    v.identity = (evidence c raw m).identity ∧
    Follows (Runs c (evidence c raw m).named (evidence c raw m).place m) m m' v
      (checks c (evidence c raw m)) := by
  have hstill : ((Machine.readLocation raw).exec m).2 = m := rfl
  rw [probe, exec_bind, exec_attempt, hstill] at hrun
  rw [checks]
  rcases hread : ((Machine.readLocation raw).exec m).1 with f | l
  · have hseen : evidence c raw m = {} := by
      simp only [evidence, hread]
    rw [hread] at hrun
    dsimp only at hrun
    split at hrun
    · obtain ⟨rfl, hcalls⟩ := exec_reject hrun
      rw [hseen]
      exact ⟨rfl, .stop rfl rfl (.nothing hcalls)⟩
    · cases hrun
  · have hseen : evidence c raw m = evidenceAt c l m := by
      simp only [evidence, hread]
    rw [hread] at hrun
    obtain ⟨hidentity, hfollows⟩ := follows_probeAt hrun
    rw [hseen, Evidence.named, Evidence.isRemote, location_evidenceAt]
    exact ⟨hidentity, .pass rfl (.nothing rfl) hfollows⟩

/-! ## In which order queries are asked -/

/-- Where nothing is asked further down, a check asks for itself only. -/
theorem asked_alone {k : Check} {rest : List Check} (h : k.applies = false → asked rest = []) :
    asked (k :: rest) = k.query.toList := by
  rw [asked]
  split
  · exact List.append_nil _
  · rename_i hk
    rw [h (Bool.eq_false_iff.2 hk), List.append_nil]

/-- Nothing is asked further down from a check that applies. -/
theorem asked_stop {k : Check} {rest : List Check} (hk : k.applies = true) :
    asked (k :: rest) = k.query.toList :=
  asked_alone fun hpassed => by rw [hk] at hpassed; cases hpassed

/-- What is asked is asked in the order of the ladder. -/
theorem asked_along {k : Check} {rest : List Check} {queries : List Query}
    (h : k.applies = false → asked rest <+: queries) :
    asked (k :: rest) <+: k.query.toList ++ queries := by
  rw [asked, List.prefix_append_right_inj]
  split
  · exact List.nil_prefix
  · rename_i hk
    exact h (Bool.eq_false_iff.2 hk)

/-- The headers are asked for at most once. -/
theorem asked_headerChecks (output : Option String) :
    asked (headerChecks output) <+: [.headers] :=
  asked_along fun _ => asked_along fun _ => List.nil_prefix

/-- The start is asked for first. -/
theorem asked_startChecks (limit : Nat) (start : Option Bytes) (output : Option String) :
    asked (startChecks limit start ++ headerChecks output) <+: [.start, .headers] := by
  by_cases hlimit : 0 < limit
  · rw [startChecks, if_pos hlimit]
    exact asked_along fun _ => asked_along fun _ => asked_headerChecks output
  · -- Without a byte to read nothing is started, and no null byte is found.
    rw [startChecks, if_neg hlimit, List.cons_append, List.singleton_append]
    rw [asked_alone fun hstart => ?_]
    · exact List.nil_prefix
    obtain ⟨bytes, rfl⟩ := Option.isSome_iff_exists.1 (by simpa using hstart)
    have hzero : limit = 0 := by omega
    rw [hzero]
    exact asked_stop rfl

/-- Of a local file only the headers are asked for, of a remote one where the
backend is, the start and the headers, in that order. -/
theorem asked_entryChecks (c : Config) (seen : Evidence) :
    if seen.isRemote then asked (entryChecks c seen) <+: [.lookup, .start, .headers]
    else asked (entryChecks c seen) <+: [.headers] := by
  rw [entryChecks]
  by_cases hremote : seen.isRemote = true
  · rw [if_pos hremote, if_pos hremote, hremote, Bool.true_and, Bool.true_and]
    by_cases hrefused : c.refuseRemote = true
    · rw [hrefused]
      rw [asked_alone fun _ => asked_stop rfl]
      exact List.nil_prefix
    · rw [Bool.eq_false_iff.2 hrefused]
      refine asked_along fun _ => asked_along fun _ => asked_along fun _ =>
        asked_along fun _ => ?_
      exact asked_startChecks _ _ _
  · rw [if_neg hremote, if_neg hremote, Bool.eq_false_iff.2 hremote]
    refine asked_along fun _ => asked_along fun _ => asked_along fun _ =>
      asked_along fun _ => ?_
    exact asked_headerChecks _

/-- **Of another host everything is asked in one order, of this machine only
the headers are.** -/
theorem asked_checks (c : Config) (seen : Evidence) :
    if seen.isRemote then asked (checks c seen) <+: [.resolve, .lookup, .start, .headers]
    else asked (checks c seen) <+: [.headers] := by
  have hentry := asked_entryChecks c seen
  rw [checks]
  by_cases hremote : seen.isRemote = true
  · rw [if_pos hremote] at hentry ⊢
    rw [if_pos hremote]
    exact asked_along fun _ => asked_along fun _ => hentry
  · rw [if_neg hremote] at hentry ⊢
    rw [if_neg hremote]
    exact asked_along fun _ => asked_along fun _ => hentry

/-! ## Verdicts -/

/-- A check that does not turn a file down for nothing. -/
theorem applies_of_firstReason {ladder : List Check} (hreasons : ∀ k ∈ ladder, k.reason ≠ .ok)
    (h : firstReason ladder = .ok) : ∀ k ∈ ladder, k.applies = false := by
  rcases hfind : ladder.find? (·.applies) with _ | k
  · intro k hk
    simpa using List.find?_eq_none.1 hfind k hk
  · rw [firstReason, hfind] at h
    exact absurd h (hreasons k (List.mem_of_find?_eq_some hfind))

/-- No check has acceptance for its reason. -/
theorem reason_of_mem_checks {seen : Evidence} {k : Check} (hk : k ∈ checks c seen) :
    k.reason ≠ .ok := by
  have hall : ((checks c seen).all fun k => k.reason ≠ .ok) = true := by
    rw [checks, entryChecks]
    by_cases hremote : seen.isRemote = true
    · rw [hremote]
      rfl
    · rw [Bool.eq_false_iff.2 hremote]
      rfl
  simpa using List.all_eq_true.1 hall k hk

/-- **A probe gives the first reason there is, and starts nothing beyond.**
The reason is that of the first check that applies. A file is accepted
exactly if none does, and then it was found, is no directory and is not
empty. The calls made are those of the checks up to the first that
applies: for a file of this machine none or one, which asks the backend
for the headers, and for a file of another host some of the first of
these: resolving it, looking for the backend, reading its start and asking
for its headers. -/
theorem probe_follows_checks (c : Config) (raw : String) (m m' : Machine) (v : Verdict)
    (hrun : (probe c raw).exec m = (.ok v, m')) :
    let seen := evidence c raw m
    v.reason = firstReason (checks c seen) ∧
    (v.accepted = true ↔ v.reason = .ok) ∧
    (v.reason = .ok → ∃ i, v.identity = some i ∧ i.present = true ∧ i.isDirectory = false ∧
      i.size ≠ 0) ∧
    Made (Runs c seen.named seen.place m) (asked (checks c seen)) m m' ∧
    (if seen.isRemote then asked (checks c seen) <+: [.resolve, .lookup, .start, .headers]
      else asked (checks c seen) <+: [.headers]) := by
  intro seen
  obtain ⟨hidentity, hfollows⟩ := follows_probe hrun
  refine ⟨hfollows.reason, decide_eq_true_iff, fun hok => ?_, hfollows.calls, asked_checks c seen⟩
  have hpassed := applies_of_firstReason (fun k hk => reason_of_mem_checks hk)
    (hfollows.reason.symm.trans hok)
  simp only [checks, entryChecks, List.mem_cons, forall_eq_or_imp] at hpassed
  obtain ⟨-, hfound, -, -, hfile, hfull, -⟩ := hpassed
  obtain ⟨e, he⟩ : ∃ e, seen.entry = some e := Option.isSome_iff_exists.1 (by simpa using hfound)
  rw [he] at hfile hfull
  refine ⟨_, hidentity.trans (by rw [Evidence.identity, he]; rfl), rfl, hfile, ?_⟩
  exact of_decide_eq_false hfull

/-- A machine with a file and a backend that reads it. -/
def furnished : Machine where
  cwd := "/"
  env := [("PATH", "/")]
  files := { nodes := [(["a"], .file [0] false), (["objdump"], .file [] true)] }
  rules := [{ stdout := Text.Utf8.encode "a: file format elf64" }]

/-- A file of this machine is accepted after one query. -/
theorem probe_follows_checks_furnished :
    ∃ v m', (probe {} "/a").exec furnished = (.ok v, m') ∧ v.accepted = true ∧
      Made (Runs {} { path := "/a" } { path := "/a" } furnished) [.headers] furnished m' := by
  have hreason : ((probe {} "/a").exec furnished).1.toOption.map (·.reason) = some .ok := by
    decide +kernel
  have hseen : let seen := evidence {} "/a" furnished
      (seen.named, seen.place, asked (checks {} seen)) =
        (({ path := "/a" }, { path := "/a" }, [.headers]) : Location × Location × List Query) := by
    decide +kernel
  obtain ⟨hnamed, hseen⟩ := Prod.mk.inj hseen
  obtain ⟨hplace, hasked⟩ := Prod.mk.inj hseen
  rcases hrun : (probe {} "/a").exec furnished with ⟨f | v, m'⟩
  · rw [hrun] at hreason
    cases hreason
  · rw [hrun] at hreason
    obtain ⟨-, haccepted, -, hmade, -⟩ := probe_follows_checks {} "/a" furnished m' v hrun
    rw [hasked, hnamed, hplace] at hmade
    exact ⟨v, m', rfl, haccepted.2 (Option.some.inj hreason), hmade⟩

end Probe

end Disasm
