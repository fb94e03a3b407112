import TxLoad.Config.Roles
import TxLoad.Message.Basic
import TxLoad.Standalone

namespace TxLoad

/-!
# The state of a worker

A worker reaches its coordinator, says hello, is given a configuration, prepares the run, and runs
its engines from the start until all have stopped, while it reports now and then. Its last report is
acknowledged.

* `Worker` is the state, `WorkerPhase` what it is about;
* `Worker.write` writes to the coordinator and keeps a log;
* `Worker.prepare` is everything that a run needs.

Instants are whole milliseconds.
-/

/-- The stages of a worker. -/
inductive WorkerStage where
  | connecting
  | configuring
  | ready
  | running
  | finishing
  | done
  | failed
  deriving DecidableEq, Repr

namespace WorkerStage

def all : List WorkerStage := [connecting, configuring, ready, running, finishing, done, failed]

def name : WorkerStage → String
  | connecting => "connecting"
  | configuring => "configuring"
  | ready => "ready"
  | running => "running"
  | finishing => "finishing"
  | done => "done"
  | failed => "failed"

end WorkerStage

/-- What stays the same during the life of a worker. -/
structure WorkerSetup where
  settings : WorkerSettings
  registry : Registry
  world : Surroundings

/-- What a worker is about. -/
inductive WorkerPhase where
  /-- It tries to reach the coordinator. -/
  | connecting (deadline : Nat)
  /-- It pauses before the next attempt. -/
  | pausing (deadline next : Nat)
  /-- It said hello and waits for its id. -/
  | greeting
  | awaitingConfig
  /-- It finds out the endpoints of the run. -/
  | preparing (cfg : Config) (clients : List Client) (resolution : Discovery.Resolution)
  /-- It is ready and waits for the start. -/
  | ready (cfg : Config) (clients : List Client) (pool : Pool)
  /-- Its engines run, and the next report is due. -/
  | running (cfg : Config) (nextReport : Nat)
  /-- It has lost the coordinator and waits for its engines to stop. -/
  | abandoning
  /-- It sent its last report and waits for the coordinator's last word. -/
  | finishing (report : Report) (deadline : Nat)
  | stopped (result : Except Error Report)

/-- A message written to the coordinator: when, and whether the write succeeded. -/
structure Told where
  instant : Nat
  message : Message
  delivered : Bool
  deriving DecidableEq, Repr

structure Worker where
  setup : WorkerSetup
  now : Nat
  phase : WorkerPhase
  /-- The id assigned by the coordinator. -/
  id : Option UInt64 := none
  /-- What has arrived from the coordinator and was not read yet. -/
  inbox : List Reading := []
  /-- Whether writes to the coordinator succeed. -/
  isWritable : Bool := true
  /-- What was asked of endpoints in preparation of the run. -/
  queries : List Query := []
  /-- The engines, from the start on. -/
  group : Group := ⟨[]⟩
  /-- All writes, in order. -/
  log : List Told := []
  /-- All that was read, in order. -/
  heard : List Reading := []

namespace Worker

/-- The pause between two attempts to reach the coordinator. -/
def reconnectMs : Nat := 1000

/-- A worker that starts to reach its coordinator at the instant `now`. -/
def start (setup : WorkerSetup) (now : Nat) : Worker :=
  { setup, now, phase := .connecting (now + setup.settings.connectTimeoutMs) }

def result? (w : Worker) : Option (Except Error Report) :=
  match w.phase with
  | .stopped result => some result
  | _ => none

def isStopped (w : Worker) : Bool := w.result?.isSome

def stage (w : Worker) : WorkerStage :=
  match w.phase with
  | .connecting _ | .pausing _ _ | .greeting => .connecting
  | .awaitingConfig | .preparing _ _ _ => .configuring
  | .ready _ _ _ => .ready
  | .running _ _ | .abandoning => .running
  | .finishing _ _ => .finishing
  | .stopped (.ok _) => .done
  | .stopped (.error _) => .failed

/-- Writes a message to the coordinator, which succeeds or not. -/
def write (w : Worker) (m : Message) : Worker :=
  { w with log := w.log ++ [⟨w.now, m, w.isWritable⟩] }

/-- The messages that were written, in order. -/
def told (w : Worker) : List Message := w.log.map (·.message)

/-- The messages that were written with success, in order. -/
def sent (w : Worker) : List Message := (w.log.filter (·.delivered)).map (·.message)

def stop (w : Worker) (result : Except Error Report) : Worker := { w with phase := .stopped result }

/-- The failure of a worker that has lost its coordinator. -/
def linkLost : Error := .connectivity .controlLinkLost

/-- The wording of a link that cannot be written to. -/
def brokenLink : String := "broken link"

/-- Writes a message and goes on to the next phase, or stops if the write fails. -/
def writeThen (w : Worker) (m : Message) (next : WorkerPhase) : Worker :=
  let w' := w.write m
  if w.isWritable then { w' with phase := next }
  else w'.stop (.error (.protocol (.io brokenLink)))

/-- Checks a configuration, makes the clients and starts to find out the endpoints. -/
def prepare (s : WorkerSetup) (cfg : Config) (now : Nat) :
    Except Error (List Client × Discovery.Resolution) :=
  match cfg.check.bind fun _ => s.registry.newClients cfg s.world.noise with
  | .error e => .error (.config e)
  | .ok clients => .ok (clients, Discovery.resolve s.world.network cfg now)

end Worker

end TxLoad
