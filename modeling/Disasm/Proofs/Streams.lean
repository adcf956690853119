import Disasm.CommandLine.Run
import Disasm.Proofs.SavedSettings
/-!
# Streams — what a command prints, and what its log adds

The error stream of a command is shared: log records go there as well as
what the command itself has to say. `Prints` tells the two apart: the log
lines are those of the records that were logged meanwhile, and what the
command says comes behind them. A command that has not said anything yet
may log whatever it likes; afterwards it may log what is below the
warning level, of which the stream gets nothing.
-/

namespace Disasm

open Act

namespace Machine

variable {m m' m₀ : Machine} {r : Log.Record} {out err : String}

/-! ## Log lines -/

/-- What a sink writes to the error stream of a record. -/
def sinkLines (r : Log.Record) : Sink → String
  | .console colored => r.consoleLine colored ++ "\n"
  | .file _ => ""

/-- What the error stream gets of a record. -/
def lines (m : Machine) (r : Log.Record) : String :=
  let sinks := if Log.isOwn r.logger then m.logger.attached else []
  if 0 < r.level ∧ m.threshold r.logger ≤ r.level then
    if sinks.isEmpty then if Log.warning ≤ r.level then r.message ++ "\n" else ""
    else String.join (sinks.map (sinkLines r))
  else ""

/-- Which lines a record makes on the error stream is up to the logger. -/
theorem lines_congr (h : m'.logger = m.logger) : m'.lines = m.lines := by
  funext r
  rw [lines, lines, threshold, threshold, h]

/-- At the warning level the stream gets nothing of what is below it. -/
theorem lines_low (hlevel : m.logger.level = .number Log.warning) (hlow : r.level < Log.warning) :
    m.lines r = "" := by
  have hthreshold : m.threshold r.logger = Log.warning := by
    rw [threshold, hlevel]
    split
    · rfl
    · rfl
  rw [lines, hthreshold]
  exact if_neg (by omega)

/-- A sink writes its lines behind what is there. -/
theorem stderr_writeTo (r : Log.Record) (k : Sink) (m : Machine) :
    ((writeTo r k).exec m).2.stderr = m.stderr ++ sinkLines r k := by
  cases k with
  | console colored => rfl
  | file place =>
    rw [writeTo, exec_bind_ok (exec_get m), sinkLines, String.append_empty]
    split
    · rfl
    · rfl

/-- Sinks write one after the other. -/
theorem stderr_forM (r : Log.Record) (sinks : List Sink) (m : Machine) :
    ((sinks.forM (writeTo r)).exec m).2.stderr =
      m.stderr ++ String.join (sinks.map (sinkLines r)) := by
  induction sinks generalizing m with
  | nil =>
    rw [List.map_nil, String.join_nil, String.append_empty]
    rfl
  | cons k sinks ih =>
    obtain ⟨_, hk⟩ := total_writeTo r k m
    have hfirst : ((k :: sinks).forM (writeTo r)).exec m =
        (sinks.forM (writeTo r)).exec ((writeTo r k).exec m).2 :=
      exec_bind_ok (Prod.ext hk rfl)
    rw [hfirst, ih, stderr_writeTo, List.map_cons, String.join_cons, String.append_assoc]

/-- **A record is delivered as the lines it makes.** -/
theorem stderr_deliver (r : Log.Record) (m : Machine) :
    ((deliver r).exec m).2.stderr = m.stderr ++ m.lines r := by
  rw [deliver, exec_bind_ok (exec_get m), lines]
  dsimp only
  generalize (if Log.isOwn r.logger then m.logger.attached else []) = sinks
  split
  · split
    · split
      · rfl
      · exact String.append_empty.symm
    · exact stderr_forM r sinks m
  · exact String.append_empty.symm

/-- **Logging adds a record and its lines.** -/
theorem logged_log (level : Int) (component message : String) (m : Machine) :
    ∃ r : Log.Record, r.level = level ∧
      ((log level component message).exec m).2.records = m.records ++ [r] ∧
      ((log level component message).exec m).2.stderr = m.stderr ++ m.lines r := by
  let r : Log.Record := ⟨level, Log.rootName ++ "." ++ component, message⟩
  let noted : Machine := { m with records := m.records ++ [r] }
  have hlog : (log level component message).exec m = (deliver r).exec noted :=
    exec_bind_ok (exec_modify _ m)
  refine ⟨r, rfl, ?_, ?_⟩
  · have hkeeps : (deliver r).Keeps records := keeps_deliver (fun _ _ => rfl) (fun _ _ => rfl) r
    rw [hlog]
    exact hkeeps noted.records noted rfl
  · rw [hlog, stderr_deliver]
    rfl

/-! ## What is printed -/

/-- Between two machines a command has printed a text on the output stream
and another on the error stream, where it stands behind the lines of the
log. The log is kept at the warning level. -/
structure Prints (m : Machine) (out err : String) (m' : Machine) : Prop where
  level : m'.logger.level = .number Log.warning
  stdout : m'.stdout = m.stdout ++ out
  stderr : ∃ rs, m'.records = m.records ++ rs ∧
    m'.stderr = m.stderr ++ String.join (rs.map m'.lines) ++ err

/-- What leaves the streams and the log alone prints nothing. -/
theorem Prints.congr (h : Prints m₀ out err m) (hlogger : m'.logger = m.logger)
    (hrecords : m'.records = m.records) (hstdout : m'.stdout = m.stdout)
    (hstderr : m'.stderr = m.stderr) : Prints m₀ out err m' := by
  refine ⟨hlogger ▸ h.level, hstdout.trans h.stdout, ?_⟩
  rw [hrecords, hstderr, lines_congr hlogger]
  exact h.stderr

/-- What is logged comes before what a command says, or it is below the warning
level and makes no lines. -/
theorem Prints.log_lines (h : Prints m₀ out err m) (level : Int) (component message : String)
    (hquiet : err = "" ∨ level < Log.warning) :
    Prints m₀ out err ((log level component message).exec m).2 := by
  obtain ⟨rs, hrecords, hstderr⟩ := h.stderr
  obtain ⟨r, rfl, hrecord, hline⟩ := logged_log level component message m
  have hkeeps := keeps_unlogged r.level component message
  have hlogger : ((log r.level component message).exec m).2.logger = m.logger :=
    hkeeps.through logger m.logger m rfl
  have hstdout : ((log r.level component message).exec m).2.stdout = m.stdout :=
    hkeeps.through Machine.stdout m.stdout m rfl
  refine ⟨hlogger ▸ h.level, hstdout.trans h.stdout, rs ++ [r], ?_, ?_⟩
  · rw [hrecord, hrecords, List.append_assoc]
  · rw [hline, hstderr, lines_congr hlogger, List.map_append, String.join_append]
    rcases hquiet with rfl | hlow
    · simp [String.append_assoc]
    · rw [List.map_singleton, lines_low h.level hlow]
      simp

/-- Before the command says anything, whatever it logs is told apart. -/
theorem lasting_prints (m₀ : Machine) (out : String) : Lasting (Prints m₀ out "") where
  log level component message _ h := h.log_lines level component message (.inl rfl)
  run c m h := by
    have hkeeps := keeps_unoccupied c
    exact h.congr (hkeeps.through logger _ m rfl) (hkeeps.through records _ m rfl)
      (hkeeps.through stdout _ m rfl) (hkeeps.through stderr _ m rfl)
  notices _ _ h := h.congr rfl rfl rfl rfl

/-- What is printed stands on the output stream. -/
theorem Prints.printOut (h : Prints m₀ "" err m) (s : String) :
    Prints m₀ s err ((printOut s).exec m).2 := by
  refine ⟨h.level, ?_, h.stderr⟩
  have hstdout : m.stdout = m₀.stdout := h.stdout.trans String.append_empty
  rw [← hstdout]
  rfl

/-- What is complained of stands on the error stream. -/
theorem Prints.printError (h : Prints m₀ out "" m) (s : String) :
    Prints m₀ out s ((printError s).exec m).2 := by
  obtain ⟨rs, hrecords, hstderr⟩ := h.stderr
  refine ⟨h.level, h.stdout, rs, hrecords, ?_⟩
  rw [String.append_empty] at hstderr
  exact congrArg (· ++ s) hstderr

/-! ## Work on files -/

section Files

variable {I : Machine → Prop} (hfiles : ∀ m files, I m → I { m with files })

theorem preserves_nodeAt? (path : String) : (nodeAt? path).Preserves I := by
  refine (preserves_nodeAt path).attempt.bind fun found => ?_
  split
  · exact Preserves.pure _
  · exact Preserves.ite (Preserves.pure _) (Preserves.throw _)
  · exact Preserves.pure _

theorem preserves_isDirectoryAt (path : String) : (isDirectoryAt path).Preserves I :=
  (preserves_nodeAt? path).bind fun _ => Preserves.pure _

include hfiles

/-- A directory is made in the file tree. -/
theorem preserves_makeDirectory (path : String) : (makeDirectory path).Preserves I := by
  intro m hm
  rw [makeDirectory, exec_bind_ok (exec_get m)]
  rcases m.files.seek m.here false path with f | ⟨place, node⟩ | ⟨parent, name⟩
  · exact hm
  · exact hm
  · rw [exec_bind_ok (exec_ofExcept _ m)]
    simp only [throw_bind]
    split
    · exact hm
    split
    · exact hm
    · exact hfiles m _ hm

/-- The last directory of a path may be there already. -/
theorem preserves_makeLast (path : String) : (makeLast path).Preserves I := by
  refine (preserves_makeDirectory hfiles path).recover fun f => ?_
  refine (preserves_isDirectoryAt path).bind fun found => ?_
  exact Preserves.ite (Preserves.throw _) (Preserves.pure _)

/-- The directories on the way are made one after the other. -/
theorem preserves_makeStart (p : Path) (count : Nat) : (makeStart p count).Preserves I := by
  induction count with
  | zero => exact preserves_makeLast hfiles _
  | succ count ih =>
    refine (preserves_makeDirectory hfiles _).attempt.bind fun made => ?_
    split
    · exact Preserves.pure _
    · exact ih.bind fun _ => preserves_makeLast hfiles _
    · refine (preserves_isDirectoryAt _).bind fun found => ?_
      exact Preserves.ite (Preserves.throw _) (Preserves.pure _)

/-- What setting up the log does once the level is in force: it looks for a
place for the sinks and puts them in use. -/
theorem after_setupLogging (hsinks : ∀ (m : Machine) (attached installed : List Sink), I m →
      I { m with logger := { m.logger with attached, installed } })
    {level : Log.Level} {json : Json} (hlevel : Log.Level.read json = .ok level)
    (file : Option String) (colored : Option Bool) (m : Machine)
    (hm : ∀ attached, I { m with logger := { level, attached, installed := [] } }) :
    I ((setupLogging json file colored).exec m).2 := by
  have hread : (Act.ofExcept (Log.Level.read json) : Act Machine Log.Level).exec m =
      (.ok level, m) := Prod.ext hlevel rfl
  rw [setupLogging, exec_bind_ok hread, exec_bind_ok (exec_modify _ m), exec_bind_ok (exec_get _),
    exec_bind_ok (exec_set _ _)]
  have huse : ∀ sinks : List Sink, (modify fun m : Machine => { m with
      logger := { m.logger with installed := sinks, attached := m.logger.attached ++ sinks } } :
        Act Machine PUnit).Preserves I :=
    fun sinks m hm => hsinks m _ _ hm
  refine Preserves.ite ?_ ?_ _ (hsinks _ _ _ (hm _))
  · exact (Preserves.pure _).bind huse
  · refine (Preserves.ofExcept _).bind fun path => ?_
    refine (preserves_openForWriting hfiles path).bind fun opened => ?_
    exact (Preserves.pure _).bind huse

end Files

/-- An invariant that logging and changes of the files preserve. -/
structure Domestic (I : Machine → Prop) : Prop where
  log : ∀ level component message, (log level component message).Preserves I
  files : ∀ m files, I m → I { m with files }

/-- What has been printed so far is such an invariant. -/
theorem domestic_prints (m₀ : Machine) (out : String) : Domestic (Prints m₀ out "") where
  log := (lasting_prints m₀ out).log
  files _ _ h := h.congr rfl rfl rfl rfl

/-- So are the commands that were run. -/
theorem domestic_calls (v : List Call) : Domestic (·.calls = v) where
  log level component message := (keeps_unlogged level component message).through calls v
  files _ _ h := h

end Machine

namespace Settings

open Machine

section Domestic

variable {I : Machine → Prop} (hI : Domestic I) (store : Path)

theorem preserves_defaultPath : defaultPath.Preserves I := by
  refine Preserves.get.bind fun m => ?_
  split
  · exact Preserves.ite (Preserves.pure _) (Preserves.ofExcept _)
  · exact Preserves.pure _

/-- Settings are read from a file. -/
theorem preserves_readStore : (readStore store).Preserves I := by
  refine (preserves_contentOf _).bind fun bytes => ?_
  split
  · exact Preserves.pure _
  · exact Preserves.throw _

include hI

/-- A store is opened at the path that was given, or at the default one. -/
theorem preserves_openStore (path : Option String) : (openStore path).Preserves I := by
  have hmade : ∀ p : Path, (do makeDirectories p.parent; return p : Act Machine Path).Preserves I :=
    fun p => (preserves_makeStart hI.files _ _).bind fun _ => Preserves.pure _
  cases path with
  | none => exact preserves_defaultPath.bind hmade
  | some s => exact (Preserves.pure _).bind hmade

theorem preserves_saveDefaults : (saveDefaults store).Preserves I := by
  have hsave : (save store defaults).Preserves I :=
    Preserves.get.bind fun m => (Preserves.ofExcept _).bind fun _ => preserves_writeFile hI.files _ _
  exact hsave.bind fun _ => Preserves.pure _

/-- Settings are loaded by reading the file, and the defaults are written where
it holds none. -/
theorem preserves_load : (load store).Preserves I := by
  have hexists : (existsAt store.text).Preserves I :=
    (preserves_nodeAt? _).bind fun _ => Preserves.pure _
  refine hexists.bind fun found => ?_
  refine Preserves.ite (preserves_saveDefaults hI store) ?_
  refine (preserves_readStore store).bind fun text => Preserves.get.bind fun m => ?_
  split
  · split
    · exact Preserves.ofExcept _
    · exact preserves_saveDefaults hI store
  · exact (hI.log _ _ _).bind fun _ => preserves_saveDefaults hI store
  · exact Preserves.throw _
  · exact Preserves.throw _

end Domestic

end Settings

namespace CommandLine

open Machine

variable {m m' m₀ : Machine} {i : Invocation} {store : Path} {c : Config} {file : Option String}

/-- Finds the settings to go by, once the log is set up. -/
def findSettings (i : Invocation) : Act Machine (Path × Config) := do
  let store ← Settings.openStore i.settings
  let c ← Settings.load store
  let backend := (i.backend.filter (!·.isEmpty)).toList.map fun b => ("backend_executable", .str b)
  let remote := if i.refuseRemote then [("disable_on_remote_filesystems", .bool true)] else []
  let c ← Act.ofExcept (c.toSettings.replace (backend ++ remote))
  return (store, c)

/-- **No command is run and nothing is printed to find the settings.** -/
theorem preserves_findSettings {I : Machine → Prop} (hI : Domestic I) (i : Invocation) :
    (findSettings i).Preserves I := by
  refine (Settings.preserves_openStore hI _).bind fun store => ?_
  refine (Settings.preserves_load hI store).bind fun c => ?_
  exact (Preserves.ofExcept _).bind fun _ => Preserves.pure _

/-- At the default level, getting ready is setting up the log at the warning
level and then finding the settings. -/
theorem setup_of_prepare (hlevel : i.logLevel = some "warning")
    (h : (prepare i).exec m = (.ok (store, c), m₀)) :
    ∃ m₁, (setupLogging (.int Log.warning) i.logFile none).exec m = (.ok (), m₁) ∧
      (findSettings i).exec m₁ = (.ok (store, c), m₀) := by
  rw [prepare, hlevel] at h
  obtain ⟨rank, _, hrank, h⟩ := ok_of_exec_bind h
  cases hrank
  obtain ⟨_, m₁, hsetup, h⟩ := ok_of_exec_bind h
  exact ⟨m₁, hsetup, h⟩

/-- The level of warnings is read back from its number. -/
theorem read_warning : Log.Level.read (.int Log.warning) = .ok (.number Log.warning) := rfl

/-- Setting up the log at the warning level prints nothing. -/
theorem prints_setupLogging (h : (setupLogging (.int Log.warning) file none).exec m = (.ok (), m')) :
    Prints m "" "" m' := by
  have hsilent := after_setupLogging
    (I := fun m' => m'.logger.level = .number Log.warning ∧ m'.stdout = m.stdout ∧
      m'.stderr = m.stderr ∧ m'.records = m.records)
    (fun _ _ hm => hm) (fun _ _ _ hm => hm) read_warning file none m (fun _ => ⟨rfl, rfl, rfl, rfl⟩)
  rw [h] at hsilent
  obtain ⟨hlevel, hstdout, hstderr, hrecords⟩ := hsilent
  refine ⟨hlevel, ?_, [], ?_, ?_⟩
  · rw [String.append_empty]
    exact hstdout
  · rw [List.append_nil]
    exact hrecords
  · rw [List.map_nil, String.join_nil, String.append_empty, String.append_empty]
    exact hstderr

/-- **Getting ready prints nothing but log lines.** -/
theorem prints_prepare (hlevel : i.logLevel = some "warning")
    (h : (prepare i).exec m = (.ok (store, c), m₀)) : Prints m "" "" m₀ := by
  obtain ⟨m₁, hsetup, hsettings⟩ := setup_of_prepare hlevel h
  have hprints := preserves_findSettings (domestic_prints m "") i m₁ (prints_setupLogging hsetup)
  rwa [hsettings] at hprints

/-- Getting ready starts nothing. -/
theorem calls_prepare (hlevel : i.logLevel = some "warning")
    (h : (prepare i).exec m = (.ok (store, c), m₀)) : m₀.calls = m.calls := by
  obtain ⟨m₁, hsetup, hsettings⟩ := setup_of_prepare hlevel h
  have hcalls := after_setupLogging (I := fun m' => m'.calls = m.calls) (fun _ _ hm => hm)
    (fun _ _ _ hm => hm) read_warning i.logFile none m (fun _ => rfl)
  rw [hsetup] at hcalls
  have hkept := preserves_findSettings (domestic_calls m.calls) i m₁ hcalls
  rwa [hsettings] at hkept

end CommandLine

end Disasm
