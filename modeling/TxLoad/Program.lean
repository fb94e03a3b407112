import TxLoad.Client.KeyValue
import TxLoad.CommandLine.Modes
import TxLoad.Coordinator.Session
import TxLoad.Worker.Session

namespace TxLoad

/-!
# The program

What a command line comes to: a mode is run to its end, and the program ends with an exit code and
perhaps a complaint.

* `Program.run` runs a mode where no other process of the run can be reached: no worker finds the
  coordinator, and a worker finds none;
* `Program.exitCode` and `Program.complaint` are how the program ends.
-/

/-- How a run of the program ends: its result, and the file that it leaves with its text. -/
structure ProgramOutcome where
  result : Except Error Unit
  file : Option (String × String) := none

namespace Program

/-- A machine without a network: no endpoint answers and no connection can be opened. -/
def isolated : Surroundings where
  network := Discovery.silent
  target _ e := ⟨.now (.error (.connect (e.text ++ ": unreachable"))), fun _ => .never⟩
  noise i n := ⟨(i + n) % 62, Nat.mod_lt _ (by decide)⟩

/-- A result without its value. -/
def forget (r : Except ε α) : Except ε Unit := r.map fun _ => ()

/-- Runs on this machine alone. -/
def runStandalone (world : Surroundings) (storage : Storage) (cfg : Config) : ProgramOutcome :=
  let o := Standalone.run world storage Registry.builtin cfg none
  { result := forget o.result
    file := cfg.statsOutput.bind fun path => o.file.map fun text => (path, text) }

/-- Runs a coordinator to which nobody connects: it waits until its time is up. -/
def runCoordinator (storage : Storage) (cfg : Config) (settings : CoordinatorSettings) :
    ProgramOutcome :=
  match Coordinator.setUp ⟨cfg, settings, storage⟩ Registry.builtin .willing 0 with
  | .error e => { result := .error e }
  | .ok c =>
    -- The deadline for workers to connect is the end.
    let c := ((Session.start c).advance (Coordinator.acceptMs c.setup)).coordinator
    { result := (c.result?.map forget).getD (.ok ()) }

/-- Runs a worker that does not reach its coordinator: it tries until its time is up. -/
def runWorker (world : Surroundings) (settings : WorkerSettings) : ProgramOutcome :=
  let w := Worker.start ⟨settings, Registry.builtin, world⟩ 0
  let w := ((WorkerSession.start true w).advance settings.connectTimeoutMs).worker
  { result := (w.result?.map forget).getD (.ok ()) }

/-- Runs a mode to its end. -/
def run (world : Surroundings) (storage : Storage) : Mode → ProgramOutcome
  | .standalone cfg => runStandalone world storage cfg
  | .coordinator cfg settings => runCoordinator storage cfg settings
  | .worker settings => runWorker world settings

/-- What the program complains of, if the command line has the right form. -/
def complaint : Except ConfigError (Except Error Unit) → Option String
  | .error e => some e.message
  | .ok (.error e) => some e.complaint
  | .ok (.ok ()) => none

/-- The code with which the program ends. -/
def exitCode : Except CommandLine.Fault (Except ConfigError (Except Error Unit)) → Nat
  | .error fault => if fault.isAnswer then 0 else 2
  | .ok r => if (complaint r).isSome then 1 else 0

/-- The line with which the program complains. -/
def complaintLine (text : String) : String := "ERROR: " ++ text

end Program

end TxLoad
