import TxLoad.Clock
import TxLoad.Config.Roles
import TxLoad.Message.Basic
import TxLoad.Client.Basic
import TxLoad.Stats.Collector
import TxLoad.Stats.Storage

namespace TxLoad

/-!
# The state of a coordinator

A coordinator accepts workers, configures them, starts them together, collects their reports and
waits for them to leave. It reads from and writes to its peers, which are numbered in the order in
which they connected; a peer that said hello is a worker, whose id is its place among those that
did.

* `Coordinator` is the state, `CoordinatorPhase` what it is about;
* `Coordinator.create` checks everything that can be checked before a worker connects;
* `Coordinator.setUp` also takes from the `Host` what the run needs of it;
* `Coordinator.write` and `Coordinator.send` write messages and keep a log of what was written.

Instants are whole milliseconds.
-/

/-- The stages of a coordinator. -/
inductive CoordinatorStage where
  | waitingForWorkers
  | configuring
  | running
  | shuttingDown
  | done
  | failed
  deriving DecidableEq, Repr

namespace CoordinatorStage

def all : List CoordinatorStage :=
  [waitingForWorkers, configuring, running, shuttingDown, done, failed]

def name : CoordinatorStage → String
  | waitingForWorkers => "waiting for workers"
  | configuring => "configuring"
  | running => "running"
  | shuttingDown => "shutting down"
  | done => "done"
  | failed => "failed"

end CoordinatorStage

/-- What stays the same during the life of a coordinator. -/
structure CoordinatorSetup where
  cfg : Config
  settings : CoordinatorSettings
  storage : Storage

/-- What a coordinator is about, with the instant at which it stops waiting. -/
inductive CoordinatorPhase where
  /-- Peers connect and say hello. -/
  | accepting (deadline : Nat)
  /-- The worker `next` is to accept the configuration; those before it have. -/
  | configuring (next deadline : Nat)
  /-- Some worker is expected to report. -/
  | running (deadline : Nat)
  /-- All reports are in, and workers leave. -/
  | shuttingDown (deadline : Nat)
  | finished (result : Except Error Summary)

/-- A peer: what has arrived from it and was not read yet, and whether the coordinator keeps its
    link. -/
structure Peer where
  inbox : List Reading := []
  /-- How many writes to it succeed in all, if its link is known to break. -/
  limit : Option Nat := none
  isOpen : Bool := true
  deriving DecidableEq, Repr

/-- A message written to a peer, and whether the write succeeded. -/
structure Written where
  peer : Nat
  message : Message
  delivered : Bool
  deriving DecidableEq, Repr

/-- A reading, and the peer that it came from. -/
structure Heard where
  peer : Nat
  reading : Reading
  deriving DecidableEq, Repr

/-- Where an interrupt stands: none came, one is to be heeded, or one was heeded. -/
inductive Interrupt where
  | none
  | requested
  | heeded
  deriving DecidableEq, Repr

structure Coordinator where
  setup : CoordinatorSetup
  now : Nat
  phase : CoordinatorPhase
  /-- All peers that ever connected. -/
  peers : List Peer := []
  /-- The peers that are workers, by worker id. -/
  workers : List Nat := []
  /-- The ids of the workers to which the start was written. -/
  started : List Nat := []
  /-- The ids of the workers that have not left. -/
  connected : List Nat := []
  collector : Collector := {}
  interrupt : Interrupt := .none
  /-- All writes, in order. -/
  log : List Written := []
  /-- All that was read, in order. -/
  heard : List Heard := []
  /-- The reports that were merged, in order, with the ids of their workers. -/
  accepted : List (Nat × Report) := []
  /-- The texts of the files written, in order. -/
  files : List String := []

namespace Coordinator

/-- The number of workers that the run needs. -/
def expected (c : Coordinator) : Nat := c.setup.settings.expectWorkers.toNat

/-- How long workers may take to connect. -/
def acceptMs (s : CoordinatorSetup) : Nat := Clock.seconds s.settings.workerConnectTimeout.toNat

/-- How long workers may take to accept the configuration: as long as to connect, and in addition
    as long as finding endpoints may take, if they are to be found. -/
def configureMs (s : CoordinatorSetup) : Nat :=
  match s.cfg.selectMethod with
  | .supplied => acceptMs s
  | _ => acceptMs s + Clock.seconds s.cfg.peerConnectTimeout.toNat

/-- How long workers may leave. -/
def shutdownMs (s : CoordinatorSetup) : Nat := Clock.seconds s.settings.shutdownWait.toNat

/-- How long workers may take to send their last reports: the time of the run, and beyond it the
    connect and the send that may then be under way, and the time for leaving. -/
def runMs (s : CoordinatorSetup) : Nat :=
  Clock.seconds s.cfg.time.toNat + 2 * Clock.seconds s.cfg.sendTimeout.toNat + shutdownMs s

/-- The coordinator that starts to accept workers at the instant `now`. -/
def start (setup : CoordinatorSetup) (now : Nat) : Coordinator :=
  { setup, now, phase := .accepting (now + acceptMs setup) }

/-- Checks configuration and settings, also by the factory that the configuration names, and starts
    the coordinator. -/
def create (setup : CoordinatorSetup) (registry : Registry) (now : Nat) :
    Except Error Coordinator :=
  let checked : Except ConfigError Unit := do
    setup.cfg.check
    setup.settings.check
    (← registry.lookup setup.cfg.clientFactory).check setup.cfg
  match checked with
  | .error e => .error (.config e)
  | .ok () => .ok (start setup now)

end Coordinator

/-- The machine that a coordinator runs on: what it allows, and why it refuses the rest. -/
structure Host where
  /-- Listens for workers. -/
  listen : Address → Except String Unit
  /-- Serves metrics. -/
  serve : Address → Except String Unit

namespace Host

/-- A machine that allows everything. -/
def willing : Host := ⟨fun _ => .ok (), fun _ => .ok ()⟩

/-- Does for a coordinator what its settings ask for, before any worker is accepted. -/
def provide (host : Host) (settings : CoordinatorSettings) : Except String Unit := do
  host.listen settings.bind
  settings.metricsAddress.forM host.serve

end Host

namespace Coordinator

/-- Creates a coordinator and sets up what it needs of the machine. -/
def setUp (setup : CoordinatorSetup) (registry : Registry) (host : Host) (now : Nat) :
    Except Error Coordinator := do
  let c ← create setup registry now
  (host.provide setup.settings).mapError .io
  return c

/-- The instant at which the coordinator stops waiting. -/
def deadline? (c : Coordinator) : Option Nat :=
  match c.phase with
  | .accepting d => some d
  | .configuring _ d => some d
  | .running d => some d
  | .shuttingDown d => some d
  | .finished _ => none

def result? (c : Coordinator) : Option (Except Error Summary) :=
  match c.phase with
  | .finished result => some result
  | _ => none

def isFinished (c : Coordinator) : Bool := c.result?.isSome

def stage (c : Coordinator) : CoordinatorStage :=
  match c.phase with
  | .accepting _ => .waitingForWorkers
  | .configuring _ _ => .configuring
  | .running _ => .running
  | .shuttingDown _ => .shuttingDown
  | .finished (.ok _) => .done
  | .finished (.error _) => .failed

/-! ### Peers -/

/-- The worker id of a peer, if it is a worker. -/
def idOf? (c : Coordinator) (peer : Nat) : Option Nat := c.workers.idxOf? peer

/-- What has arrived from a peer and was not read yet. -/
def inbox (c : Coordinator) (peer : Nat) : List Reading :=
  ((c.peers[peer]?).map (·.inbox)).getD []

/-- What was written to a peer, in order. -/
def writtenTo (c : Coordinator) (peer : Nat) : List Written := c.log.filter (·.peer == peer)

/-- The messages written to a peer, in order. -/
def messagesTo (c : Coordinator) (peer : Nat) : List Message :=
  (c.writtenTo peer).map (·.message)

/-- The messages that were written to a peer with success, in order. -/
def deliveredTo (c : Coordinator) (peer : Nat) : List Message :=
  ((c.writtenTo peer).filter (·.delivered)).map (·.message)

/-- What was read from a peer, in order. -/
def heardFrom (c : Coordinator) (peer : Nat) : List Reading :=
  (c.heard.filter (·.peer == peer)).map (·.reading)

/-- The last report of a worker that was merged, one without counts if there is none. -/
def lastReport (c : Coordinator) (id : Nat) : Report :=
  (((c.accepted.filter (·.1 == id)).getLast?).map (·.2)).getD {}

/-- Whether the next write to a peer succeeds. -/
def canWrite (c : Coordinator) (peer : Nat) : Bool :=
  (c.peers[peer]?).any fun p => p.limit.all ((c.writtenTo peer).length < ·)

/-- Whether a peer's link is kept. -/
def isKept (c : Coordinator) (peer : Nat) : Bool := (c.peers[peer]?).any (·.isOpen)

def modifyPeer (c : Coordinator) (peer : Nat) (f : Peer → Peer) : Coordinator :=
  { c with peers := c.peers.modify peer f }

/-- Takes a reading out of a peer's inbox, which leaves the given ones. -/
def take (c : Coordinator) (peer : Nat) (reading : Reading) (inbox : List Reading) : Coordinator :=
  { c.modifyPeer peer fun p => { p with inbox } with heard := c.heard ++ [⟨peer, reading⟩] }

/-- Lets go of a peer. -/
def drop (c : Coordinator) (peer : Nat) : Coordinator :=
  c.modifyPeer peer fun p => { p with isOpen := false }

/-- Lets go of all peers but the workers. -/
def dropOthers (c : Coordinator) : Coordinator :=
  { c with
    peers := c.peers.mapIdx fun i p =>
      { p with isOpen := p.isOpen && c.workers.contains i } }

/-! ### Writing -/

/-- Writes a message to a peer, which succeeds or not. -/
def write (c : Coordinator) (peer : Nat) (m : Message) : Coordinator :=
  { c with log := c.log ++ [⟨peer, m, c.canWrite peer⟩] }

/-- Writes a message to a started worker. -/
def send (c : Coordinator) (id : Nat) (m : Message) : Coordinator :=
  match c.workers[id]? with
  -- A worker that could not be started has lost its link.
  | some peer => if c.started.contains id then c.write peer m else c
  | none => c

/-- Writes a message to some workers, one after the other. -/
def sendAll (c : Coordinator) (ids : List Nat) (m : Message) : Coordinator :=
  ids.foldl (fun c id => c.send id m) c

/-- Tells all workers that there will be no run. -/
def abort (c : Coordinator) (reason : String) : Coordinator :=
  c.workers.foldl (fun c peer => c.write peer (.abort reason)) c

/-- Ends with the given result and lets go of all peers. -/
def finish (c : Coordinator) (result : Except Error Summary) : Coordinator :=
  { c with
    phase := .finished result
    peers := c.peers.map fun p => { p with isOpen := false } }

/-- Ends before the start: all workers are told why. -/
def giveUp (c : Coordinator) (reason : String) (e : Error) : Coordinator :=
  (c.abort reason).finish (.error e)

end Coordinator

end TxLoad
