import TxLoad.Client.Basic
import TxLoad.Clock
import TxLoad.Endpoint.Basic
import TxLoad.Pacer
import TxLoad.Stats.Connection

namespace TxLoad

/-!
# The load engine of one connection

An engine connects, sends transactions as its pacer allows, one at a time, and stops. It is a
machine on the run clock: `Engine.now` is the instant at which it acts next, and `Engine.step` is
that action, after which `now` is the instant of the one that follows.

* `Target` is how the far side behaves: how long connects and sends take and what they bring;
* `Engine.step` is the transition; a stopped engine does not change (`step_of_isStopped`);
* `Engine.run` steps until the engine stops, `Engine.runUntil` up to an instant;
* `Engine.cancel` asks the engine to stop, which it notices when it next looks.

Instants of the machine are whole milliseconds.
-/

/-- A transaction handed to the far side: the number of the send, its bytes and the mode. -/
structure Submission where
  index : Nat
  payload : Payload
  mode : BroadcastMode

/-- How the far side of a connection behaves. -/
structure Target where
  connect : Awaited (Except ConnectionError Unit)
  send : Submission → Awaited (Except ConnectionError Unit)

/-- A far side that accepts everything at once. -/
def Target.ideal : Target := ⟨.now (.ok ()), fun _ => .now (.ok ())⟩

/-- Why a connection stopped. -/
inductive Exit where
  | cancelled
  | elapsed
  | countReached
  | failed (error : ConnectionError)
  deriving DecidableEq, Repr

/-- The stages of a connection. -/
inductive Stage where
  | connecting
  | sending
  | draining
  | stopped
  deriving DecidableEq, Repr

def Stage.all : List Stage := [.connecting, .sending, .draining, .stopped]

def Stage.name : Stage → String
  | connecting => "connecting"
  | sending => "sending"
  | draining => "draining"
  | stopped => "stopped"

/-- What stays the same during the life of an engine. -/
structure EngineSetup where
  endpoint : Endpoint
  /-- Transactions per second. -/
  rate : Nat
  /-- The most transactions, if that is bounded. -/
  limit : Option Nat
  mode : BroadcastMode
  /-- Bound on the connect and on each send, in milliseconds. -/
  timeoutMs : Nat
  /-- The instant at which the engine was started. -/
  spawned : Nat
  /-- The instant at which the run ends. -/
  deadline : Nat
  client : Client
  target : Target

/-- What an engine is about to do. -/
inductive EnginePhase where
  /-- To connect. -/
  | connecting
  /-- To learn what came of the connect. -/
  | opening (outcome : Except ConnectionError Unit)
  /-- To look whether to stop, to wait or to send. -/
  | looping (pacer : Pacer)
  /-- To learn what came of a send of so many bytes. -/
  | sending (pacer : Pacer) (size : Nat) (outcome : Except ConnectionError Unit)
  | stopped (exit : Exit)

/-- A send that was submitted: when, and when the engine learns what comes of it. -/
structure Sent where
  submitted : Nat
  settled : Nat
  size : Nat
  accepted : Bool
  deriving DecidableEq, Repr

structure Engine where
  setup : EngineSetup
  /-- The instant at which the engine acts next. -/
  now : Nat
  phase : EnginePhase := .connecting
  cancelled : Bool := false
  stat : ConnectionStat := {}
  /-- The submitted sends, the last one first. -/
  sent : List Sent := []

namespace Engine

/-- The longest wait between two looks, so that a cancellation is noticed. -/
def maxParkMs : Nat := 50

def isStopped (e : Engine) : Bool :=
  match e.phase with
  | .stopped _ => true
  | _ => false

def exit? (e : Engine) : Option Exit :=
  match e.phase with
  | .stopped exit => some exit
  | _ => none

def stage (e : Engine) : Stage :=
  match e.phase with
  | .connecting | .opening _ => .connecting
  | .looping _ | .sending _ _ _ => .sending
  | .stopped _ => .stopped

/-- The error of a wait that was cut off. -/
def timeoutError (s : EngineSetup) : ConnectionError := .timeout (Clock.nanos s.timeoutMs)

/-- The outcome of a wait that is bounded by the engine's timeout, and how long it took. -/
def bounded (s : EngineSetup) (a : Awaited (Except ConnectionError Unit)) :
    Nat × Except ConnectionError Unit :=
  let (elapsed, outcome) := a.within s.timeoutMs
  (elapsed, outcome.getD (.error (timeoutError s)))

/-- Stops the engine at its present instant; an error is counted. -/
def stop (e : Engine) (exit : Exit) : Engine :=
  let stat := match exit with
    | .failed error => e.stat.onError error
    | _ => e.stat
  { e with stat := stat.onFinished (Clock.nanos e.now), phase := .stopped exit }

/-- The instant up to which an engine with nothing due waits: until the next request is due, but
    not beyond the deadline nor longer than it may go without looking. -/
def parkUntil (e : Engine) (pacer : Pacer) : Nat :=
  max e.now (Clock.ceilMs
    (min (min pacer.nextDue (Clock.nanos e.setup.deadline)) (Clock.nanos (e.now + maxParkMs))))

/-- Submits the next transaction. -/
def submit (e : Engine) (pacer : Pacer) (payload : Payload) : Engine :=
  let (elapsed, outcome) :=
    bounded e.setup (e.setup.target.send ⟨pacer.consumed, payload, e.setup.mode⟩)
  { e with
    now := e.now + elapsed
    phase := .sending pacer payload.length outcome
    -- The outcome is fixed at the submission, but the engine learns it only when `now` is reached.
    sent := ⟨e.now, e.now + elapsed, payload.length, outcome.isOk⟩ :: e.sent }

/-- Looks whether to stop, to wait or to send. -/
def look (e : Engine) (pacer : Pacer) : Engine :=
  -- The order of these questions decides which exit is named when several apply.
  if e.cancelled then e.stop .cancelled
  else if e.setup.deadline ≤ e.now then e.stop .elapsed
  else if e.setup.limit.any (· ≤ pacer.consumed) then e.stop .countReached
  else if pacer.due (Clock.nanos e.now) = 0 then { e with now := e.parkUntil pacer }
  else
    match e.setup.client pacer.consumed with
    | .error error => e.stop (.failed (.client error))
    | .ok payload => e.submit pacer payload

/-- The engine's next action. -/
def step (e : Engine) : Engine :=
  match e.phase with
  | .connecting =>
    let (elapsed, outcome) := bounded e.setup e.setup.target.connect
    { e with now := e.now + elapsed, phase := .opening outcome }
  | .opening (.error error) => e.stop (.failed error)
  | .opening (.ok ()) =>
    { e with
      stat := e.stat.onStarted (Clock.nanos e.now)
      phase := .looping (.start e.setup.rate (Clock.nanos e.now)) }
  | .looping pacer => e.look pacer
  | .sending _ _ (.error error) => e.stop (.failed error)
  -- Only an accepted transaction is counted and consumes its turn.
  | .sending pacer size (.ok ()) =>
    { e with
      stat := (e.stat.onRequests 1).onSend (UInt64.ofNat size)
      phase := .looping (pacer.consume 1) }
  | .stopped _ => e

theorem step_of_isStopped {e : Engine} (h : e.isStopped = true) : e.step = e := by
  unfold isStopped at h
  split at h
  · rename_i h'
    simp [step, h']
  · exact absurd h (by simp)

/-- Asks the engine to stop. -/
def cancel (e : Engine) : Engine := { e with cancelled := true }

/-! ### Runs -/

/-- A bound on the number of steps that are left, provided that every wait moves the clock: each
    transaction takes two steps, each wait at least a millisecond. -/
def budget (e : Engine) : Nat :=
  let left := e.setup.deadline - e.now
  let all := fun (started : Nat) =>
    (Clock.nanos e.setup.deadline - started) * e.setup.rate / Pacer.secondNs + 1
  match e.phase with
  | .connecting => 2 * all (Clock.nanos e.now) + left + 3
  | .opening _ => 2 * all (Clock.nanos e.now) + left + 2
  | .looping pacer => 2 * (all pacer.started - pacer.consumed) + left + 1
  | .sending pacer _ _ => 2 * (all pacer.started - (pacer.consumed + 1)) + left + 2
  | .stopped _ => 0

/-- At most `n` steps, no more once the engine has stopped. -/
def steps : Nat → Engine → Engine
  | 0, e => e
  | n + 1, e => if e.isStopped then e else steps n e.step

/-- Runs the engine until it stops. -/
def run (e : Engine) : Engine := steps e.budget e

/-- At most `n` steps of those that the engine takes up to the instant `t`. -/
def stepsUntil (t : Nat) : Nat → Engine → Engine
  | 0, e => e
  | n + 1, e => if e.isStopped || t < e.now then e else stepsUntil t n e.step

/-- Runs the engine up to the instant `t`. -/
def runUntil (t : Nat) (e : Engine) : Engine := stepsUntil t e.budget e

/-- The sends whose outcome the engine has learnt, the last one first. -/
def settledSends (e : Engine) : List Sent :=
  match e.phase with
  | .sending _ _ _ => e.sent.tail
  | _ => e.sent

/-- The successful sends of an engine, in their order. -/
def acceptedSends (e : Engine) : List Sent := (e.settledSends.filter (·.accepted)).reverse

end Engine

end TxLoad
