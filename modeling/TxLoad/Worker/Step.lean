import TxLoad.Worker.Basic

namespace TxLoad

/-!
# What a worker does

`Worker.step` is the answer to an event; an event that cannot happen in the present state changes
nothing. Whatever arrives waits in the inbox until the worker reads it.

* Until it is ready, a worker takes one message after the other, and any but the expected one ends
  it. A configuration that it cannot run is rejected.
* Running, it steps its engines, reports when a report is due, and stops the engines if it is asked
  to or has lost the coordinator.
* Once all engines have stopped it sends the last report and waits for the acknowledgement; a
  coordinator that has gone is no failure then.

The clock does not pass an instant at which the worker has something to do.
-/

inductive WorkerEvent where
  /-- An attempt to reach the coordinator succeeds. -/
  | reach
  /-- An attempt to reach the coordinator fails. -/
  | miss
  /-- Something arrives from the coordinator. -/
  | arrive (reading : Reading)
  /-- Writes to the coordinator fail from now on. -/
  | sever
  /-- The worker reads. -/
  | read
  /-- An engine that acts at the present instant does so. -/
  | work (engine : Nat)
  /-- A report is written. -/
  | report
  /-- The worker notices that all engines have stopped. -/
  | join
  /-- What the worker waits for is over. -/
  | expire
  /-- The program is interrupted. -/
  | interrupt
  /-- Time passes. -/
  | advance (ms : Nat)
  deriving Repr

namespace Worker

/-! ### Before the start -/

/-- The failure of a worker that reads something else than the message it expects. -/
def surprise (expected : String) : Reading → Error
  | .message m => .protocol (.unexpected expected m.kind)
  | .malformed => .protocol .malformed
  | .unreadable => .protocol (.io Reading.unreadableReason)
  | .ended => linkLost

/-- Tells the coordinator why the configuration cannot be run, and stops. -/
def reject (w : Worker) (e : Error) : Worker :=
  w.writeThen (.reject e.message) (.stopped (.error e))

/-- Starts to prepare a run. -/
def configure (w : Worker) (cfg : Config) : Worker :=
  match prepare w.setup cfg w.now with
  | .error e => w.reject e
  | .ok (clients, resolution) =>
    { w with phase := .preparing cfg clients resolution, queries := resolution.queries }

/-- Starts the engines. -/
def begin (w : Worker) (cfg : Config) (clients : List Client) (pool : Pool) : Worker :=
  { w with
    group := Group.spawn cfg pool w.setup.world.target clients w.now
    phase := .running cfg (w.now + w.setup.settings.reportIntervalMs) }

/-! ### Running -/

/-- Stops the engines after the coordinator was lost. -/
def abandon (w : Worker) : Worker := { w with group := w.group.cancel, phase := .abandoning }

/-- What is read while the engines run: nothing counts but being stopped and losing the link. -/
def onRunning (w : Worker) : Reading → Worker
  | .message (.stop _) => { w with group := w.group.cancel }
  | .message _ => w
  | _ => w.abandon

/-- Writes the sums of the present counters. -/
def report (w : Worker) (cfg : Config) : Worker :=
  let w' := w.write (.statsReport (w.group.report false))
  if w.isWritable then
    { w' with phase := .running cfg (w.now + w.setup.settings.reportIntervalMs) }
  else w'.abandon

/-- Writes the last report. -/
def conclude (w : Worker) : Worker :=
  let last := w.group.report true
  let w' := w.write (.statsReport last)
  if w.isWritable then
    { w' with phase := .finishing last (w.now + w.setup.settings.ackTimeoutMs) }
  else w'.stop (.error linkLost)

/-- What is read after the last report: any end of the wait is a good one. -/
def onFinishing (w : Worker) (last : Report) : Reading → Worker
  | .message .ack => w.stop (.ok last)
  | .message _ => w
  | _ => w.stop (.ok last)

/-! ### Steps -/

/-- Whether the worker reads in its present phase. -/
def isListening (w : Worker) : Bool :=
  match w.phase with
  | .greeting | .awaitingConfig | .ready _ _ _ | .running _ _ | .finishing _ _ => true
  | _ => false

/-- What the worker makes of a reading. -/
def onRead (w : Worker) (reading : Reading) : Worker :=
  match w.phase, reading with
  -- A hello without an id is no answer.
  | .greeting, .message (.hello (some id)) => { w with id := some id, phase := .awaitingConfig }
  | .greeting, r => w.stop (.error (surprise "hello" r))
  | .awaitingConfig, .message (.config cfg) => w.configure cfg
  | .awaitingConfig, .message (.abort reason) => w.stop (.error (.protocol (.aborted reason)))
  | .awaitingConfig, r => w.stop (.error (surprise "config" r))
  | .ready cfg clients pool, .message .start => w.begin cfg clients pool
  | .ready _ _ _, .message (.abort reason) => w.stop (.error (.protocol (.aborted reason)))
  | .ready _ _ _, r => w.stop (.error (surprise "start" r))
  | .running _ _, r => w.onRunning r
  | .finishing last _, r => w.onFinishing last r
  | _, _ => w

/-- Reads the first of what has arrived. -/
def read (w : Worker) : Worker :=
  match w.inbox with
  | reading :: rest => { w with inbox := rest, heard := w.heard ++ [reading] }.onRead reading
  | [] => w

/-- Whether the worker's engines have been started and are not done with. -/
def hasEngines (w : Worker) : Bool :=
  match w.phase with
  | .running _ _ | .abandoning => true
  | _ => false

/-- The instant at which the engines act next; the present one if all have stopped, which is to be
    noticed. -/
def enginesNext (w : Worker) : Nat := w.group.next?.getD w.now

/-- The instant up to which the worker has nothing to do unless something arrives. -/
def timer? (w : Worker) : Option Nat :=
  match w.phase with
  | .connecting deadline => some deadline
  | .pausing _ next => some next
  | .preparing _ _ resolution => some resolution.finished
  | .running _ nextReport => some (min w.enginesNext nextReport)
  | .abandoning => some w.enginesNext
  | .finishing _ deadline => some deadline
  | _ => none

/-- An attempt to reach the coordinator fails, which ends the worker at the deadline. -/
def miss (w : Worker) (deadline : Nat) : Worker :=
  if deadline ≤ w.now then
    w.stop (.error (.connectivity (.coordinatorConnectTimeout w.setup.settings.coordinator)))
  -- The last pause is cut short, so that the last attempt is made at the deadline.
  else { w with phase := .pausing deadline (min deadline (w.now + reconnectMs)) }

/-- The end of preparations. -/
def prepared (w : Worker) (cfg : Config) (clients : List Client) (r : Discovery.Resolution) :
    Worker :=
  match r.pool with
  | .ok pool => w.writeThen .ready (.ready cfg clients pool)
  | .error e => w.reject e

/-- What the worker waits for is over. -/
def expire (w : Worker) : Worker :=
  match w.phase with
  | .connecting deadline => w.miss deadline
  | .pausing deadline _ => { w with phase := .connecting deadline }
  | .preparing cfg clients resolution => w.prepared cfg clients resolution
  -- The report was sent; a missing acknowledgement does not undo the run.
  | .finishing last _ => w.stop (.ok last)
  | _ => w

/-- Whether an event can happen in the present state. -/
def canHappen (w : Worker) : WorkerEvent → Bool
  | .reach | .miss =>
    match w.phase with
    | .connecting _ => true
    | _ => false
  | .read => w.isListening && !w.inbox.isEmpty
  | .work engine => w.hasEngines && w.group.isDue engine w.now
  | .report =>
    match w.phase with
    | .running _ nextReport => nextReport ≤ w.now
    | _ => false
  | .join => w.hasEngines && w.group.isStopped
  | .expire =>
    !w.hasEngines && w.timer?.any (· ≤ w.now) &&
      match w.phase with
      -- A last word that has arrived in time is read first.
      | .finishing _ _ => w.inbox.isEmpty
      | _ => true
  | .interrupt =>
    match w.phase with
    | .running cfg _ => !cfg.noTrapInterrupts
    | _ => false
  | _ => true

/-- Lets time pass, but not beyond the next thing to do. -/
def advance (w : Worker) (ms : Nat) : Worker :=
  match w.timer? with
  -- A timer may lie in the past when several things are to be done at one instant.
  | some t => { w with now := max w.now (min (w.now + ms) t) }
  | none => { w with now := w.now + ms }

/-- What an event brings about. -/
def act (w : Worker) : WorkerEvent → Worker
  | .reach => w.writeThen (.hello none) .greeting
  | .miss =>
    match w.phase with
    | .connecting deadline => w.miss deadline
    | _ => w
  | .arrive reading => { w with inbox := w.inbox ++ [reading] }
  | .sever => { w with isWritable := false }
  | .read => w.read
  | .work engine => { w with group := w.group.stepEngine engine }
  | .report =>
    match w.phase with
    | .running cfg _ => w.report cfg
    | _ => w
  | .join =>
    match w.phase with
    | .running _ _ => w.conclude
    -- The engines of a lost coordinator were stopped; nobody is left to report to.
    | _ => w.stop (.error linkLost)
  | .expire => w.expire
  | .interrupt => { w with group := w.group.cancel }
  | .advance ms => w.advance ms

/-- The answer to an event. -/
def step (w : Worker) (e : WorkerEvent) : Worker := if w.canHappen e then w.act e else w

/-- The answer to a sequence of events. -/
def run (w : Worker) (es : List WorkerEvent) : Worker := es.foldl step w

end Worker

end TxLoad
