import TxLoad.Coordinator.Basic

namespace TxLoad

/-!
# What a coordinator does

`Coordinator.step` is the answer to an event; an event that cannot happen in the present state
changes nothing. Whatever arrives waits in the peer's inbox until the coordinator reads it, so that
any order in which peers, clock and interrupts take effect is a sequence of events.

* Accepting, every peer's first reading is read: a hello makes it a worker. With the last worker
  the configuration is written to all.
* Configuring, one answer of each worker is read, in the order of their ids. With the last consent
  the start is written to all.
* Running, readings of all workers are read until no worker is expected to report.
* Shutting down, readings are read until every worker has left.

The clock does not pass a deadline that is not met; `expire` is what happens then.
-/

inductive CoordinatorEvent where
  /-- Another peer connects. -/
  | connect
  /-- Something arrives from a peer. -/
  | arrive (peer : Nat) (reading : Reading)
  /-- The link to a peer breaks: of all writes to it no more than `writes` succeed. -/
  | sever (peer writes : Nat)
  /-- The coordinator reads from a peer. -/
  | read (peer : Nat)
  /-- The program is interrupted. -/
  | interrupt
  /-- The coordinator heeds an interrupt. -/
  | heed
  /-- Time passes. -/
  | advance (ms : Nat)
  /-- The deadline takes effect. -/
  | expire
  deriving Repr

namespace Coordinator

/-! ### Shutting down -/

/-- Ends the run with the summary, or with a failure if no worker has completed. -/
def conclude (c : Coordinator) : Coordinator :=
  if c.collector.numCompleted = 0 then
    c.finish (.error (.connectivity (.allWorkersFailed c.expected)))
  else
    let summary := c.collector.finalize (Clock.nanos c.now)
    let (result, file) := c.setup.storage.conclude c.setup.cfg summary
    { c with files := c.files ++ file.toList }.finish result

/-- Ends the run once every worker has left. -/
def leave (c : Coordinator) : Coordinator := if c.connected.isEmpty then c.conclude else c

/-- Strikes a worker from those that have not left. -/
def disconnect (c : Coordinator) (id : Nat) : Coordinator :=
  { c with connected := c.connected.filter (· != id) }

/-- What is read from a worker while shutting down: nothing counts but its leaving. -/
def onLateReading (c : Coordinator) (id : Nat) : Reading → Coordinator
  -- Late messages are read only so that the end behind them is reached.
  | .message _ => c
  | _ => c.disconnect id

/-! ### Running -/

/-- Ends the running phase once no worker is expected to report. -/
def settle (c : Coordinator) : Coordinator :=
  if c.collector.isSettled then
    { c with phase := .shuttingDown (c.now + shutdownMs c.setup) }.leave
  else c

/-- Gives up a worker that violated the protocol, and stops it. -/
def onViolation (c : Coordinator) (id : Nat) (e : ProtocolError) : Coordinator :=
  { c with collector := c.collector.fail id }.send id (.stop e.message)

/-- Keeps the collector into which a report was merged. -/
def keep (c : Coordinator) (id : Nat) (report : Report) (collector : Collector) : Coordinator :=
  { c with collector, accepted := c.accepted ++ [(id, report)] }

/-- Merges a report. One that completes its worker is acknowledged. -/
def onReport (c : Coordinator) (id : Nat) (report : Report) : Coordinator :=
  match c.collector.merge id report (Clock.nanos c.now) with
  | .ok (collector, true) => (c.keep id report collector).send id .ack
  | .ok (collector, false) => c.keep id report collector
  | .error e => c.onViolation id e

/-- What a running worker says: nothing but reports is expected. -/
def onMessage (c : Coordinator) (id : Nat) : Message → Coordinator
  | .statsReport report => c.onReport id report
  | m => c.onViolation id (.unexpected "stats_report" m.kind)

/-- A worker has left; it is lost if it was expected to report. -/
def onLeft (c : Coordinator) (id : Nat) : Coordinator :=
  { c.disconnect id with collector := c.collector.lose id }

/-- What is read from a worker while running. Messages of a worker that is not expected to report
    are ignored. -/
def onReading (c : Coordinator) (id : Nat) : Reading → Coordinator
  -- What a completed or failed worker still says must not disturb the sums.
  | .message m => if c.collector.status id = some .active then c.onMessage id m else c
  | _ => c.onLeft id

/-- Gives up all workers that are still expected to report. -/
def loseActive (c : Coordinator) : Coordinator :=
  { c with collector := c.collector.active.foldl Collector.lose c.collector }

/-! ### Starting -/

/-- Writes the start to a worker. One that cannot be reached is not written to again. -/
def startWorker (c : Coordinator) (id : Nat) : Coordinator :=
  match c.workers[id]? with
  | some peer =>
    -- The write is logged either way; only one that succeeds makes the worker a started one.
    if c.canWrite peer then { c.write peer .start with started := c.started ++ [id] }
    else (c.write peer .start).drop peer
  | none => c

/-- Registers all workers and starts them together. -/
def startAll (c : Coordinator) : Coordinator :=
  let ids := List.range c.workers.length
  let c := { c with
    collector := ids.foldl Collector.register c.collector
    connected := ids }
  let c := ids.foldl startWorker c
  { c with phase := .running (c.now + runMs c.setup) }

/-! ### Configuring -/

/-- Why an answer to the configuration ends the run, unless it is consent. -/
def refusal? (id : Nat) : Reading → Option Error
  | .message .ready => none
  | .message (.reject reason) => some (.config (.rejected id reason))
  | .message m => some (.protocol (.unexpected "ready" m.kind))
  | .malformed => some (.protocol .malformed)
  | .unreadable => some (.protocol (.io Reading.unreadableReason))
  | .ended => some (.protocol (.disconnected id))

/-- What the worker `next` answers to the configuration. -/
def onAnswer (c : Coordinator) (next deadline : Nat) (reading : Reading) : Coordinator :=
  match refusal? next reading with
  | some e => c.giveUp e.message e
  | none =>
    if next + 1 < c.workers.length then { c with phase := .configuring (next + 1) deadline }
    else c.startAll

/-- Writes the configuration to peers in their order, up to the first write that fails; says
    whether none did. -/
def distribute (c : Coordinator) : List Nat → Coordinator × Bool
  | [] => (c, true)
  | peer :: rest =>
    let c' := c.write peer (.config c.setup.cfg)
    if c.canWrite peer then distribute c' rest else (c', false)

/-- The reason for ending a run whose configuration cannot be written. -/
def undistributed : String := "failed to distribute configuration"

/-- The wording of a link that cannot be written to. -/
def brokenLink : String := "broken link"

/-- Writes the configuration to all workers. -/
def configure (c : Coordinator) : Coordinator :=
  match c.dropOthers.distribute c.workers with
  | (c, true) => { c with phase := .configuring 0 (c.now + configureMs c.setup) }
  -- One broken link ends the run for all: the others are told to abort.
  | (c, false) => c.giveUp undistributed (.protocol (.io brokenLink))

/-! ### Accepting -/

/-- Makes a peer a worker: it is told its id, which is the number of workers before it. -/
def enlist (c : Coordinator) (peer : Nat) : Coordinator :=
  let c' := c.write peer (.hello (some (UInt64.ofNat c.workers.length)))
  if c.canWrite peer then
    let c' := { c' with workers := c.workers ++ [peer] }
    -- The last greeting starts the configuration within the same step.
    if c'.workers.length < c.expected then c' else c'.configure
  else c'.drop peer

/-- What a peer says first. -/
def onGreeting (c : Coordinator) (peer : Nat) : Reading → Coordinator
  | .message (.hello _) => c.enlist peer
  | _ => c.drop peer

/-- The reason for ending a run for which too few workers have connected. -/
def tooFewWorkers : String := "timed out waiting for workers"

/-! ### Steps -/

/-- Whether the coordinator reads from a peer in its present phase. -/
def listensTo (c : Coordinator) (peer : Nat) : Bool :=
  match c.phase with
  | .accepting _ => c.isKept peer && (c.idOf? peer).isNone
  | .configuring next _ => c.workers[next]? == some peer
  | .running _ | .shuttingDown _ => (c.idOf? peer).any c.connected.contains
  | .finished _ => false

/-- What the coordinator makes of a reading from a peer that it listens to. -/
def onRead (c : Coordinator) (peer : Nat) (reading : Reading) : Coordinator :=
  match c.phase with
  | .accepting _ => c.onGreeting peer reading
  | .configuring next deadline => c.onAnswer next deadline reading
  | .running _ =>
    match c.idOf? peer with
    | some id => (c.onReading id reading).settle
    | none => c
  | .shuttingDown _ =>
    match c.idOf? peer with
    | some id => (c.onLateReading id reading).leave
    | none => c
  | .finished _ => c

/-- Reads the first of what has arrived from a peer. -/
def read (c : Coordinator) (peer : Nat) : Coordinator :=
  match c.inbox peer with
  | reading :: rest => (c.take peer reading rest).onRead peer reading
  | [] => c

/-- Whether an event of the coordinator's own making can happen: it reads only from peers that it
    listens to and from which something has arrived, heeds an interrupt only while it runs, and
    meets a deadline only if the answer that it waits for has not arrived. -/
def canHappen (c : Coordinator) : CoordinatorEvent → Bool
  | .read peer => c.listensTo peer && !(c.inbox peer).isEmpty
  | .heed =>
    match c.phase with
    | .running _ => c.interrupt == .requested
    | _ => false
  | .expire =>
    c.deadline?.any (· ≤ c.now) &&
      match c.phase with
      -- An answer that has arrived in time counts, even if it is read at the deadline.
      | .configuring next _ => (c.workers[next]?).all fun peer => (c.inbox peer).isEmpty
      | _ => true
  | _ => true

/-- Heeds an interrupt: workers that are expected to report are asked to stop. -/
def heed (c : Coordinator) : Coordinator :=
  { c.sendAll c.collector.active (.stop "interrupted") with interrupt := .heeded }

/-- The deadline of the present phase. -/
def expire (c : Coordinator) : Coordinator :=
  match c.phase with
  | .accepting _ =>
    c.giveUp tooFewWorkers
      (.connectivity (.workerConnectTimeout c.workers.length c.expected))
  | .configuring next _ =>
    let e : Error := .protocol (.ackTimeout next)
    c.giveUp e.message e
  | .running _ => c.loseActive.settle
  | .shuttingDown _ => c.conclude
  | .finished _ => c

/-- Lets time pass, but not beyond the deadline. -/
def advance (c : Coordinator) (ms : Nat) : Coordinator :=
  match c.deadline? with
  -- The clock stands at the deadline until `expire` moves on to a phase with another one.
  | some d => { c with now := min (c.now + ms) d }
  | none => { c with now := c.now + ms }

/-- Another peer connects, which is possible while workers are awaited. -/
def connect (c : Coordinator) : Coordinator :=
  match c.phase with
  | .accepting _ => { c with peers := c.peers ++ [{}] }
  | _ => c

/-- What an event brings about. -/
def act (c : Coordinator) : CoordinatorEvent → Coordinator
  | .connect => c.connect
  | .arrive peer reading => c.modifyPeer peer fun p => { p with inbox := p.inbox ++ [reading] }
  | .sever peer writes =>
    c.modifyPeer peer fun p => { p with limit := some (p.limit.elim writes (min writes)) }
  | .read peer => c.read peer
  | .interrupt => if c.interrupt = .none then { c with interrupt := .requested } else c
  | .heed => c.heed
  | .advance ms => c.advance ms
  | .expire => c.expire

/-- The answer to an event. -/
def step (c : Coordinator) (e : CoordinatorEvent) : Coordinator :=
  if c.canHappen e then c.act e else c

/-- The answer to a sequence of events. -/
def run (c : Coordinator) (es : List CoordinatorEvent) : Coordinator := es.foldl step c

end Coordinator

end TxLoad
