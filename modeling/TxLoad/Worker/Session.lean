import TxLoad.Message.Stream
import TxLoad.Worker.Step

namespace TxLoad

/-!
# Sessions with a worker

A session is a worker whose coordinator sends bytes, on a clock that waits until the worker has
nothing more to do.

* `WorkerSession.settle` lets the worker do whatever it can at the present instant;
* `send`, `close` and `advance` act on it from outside.
-/

structure WorkerSession where
  worker : Worker
  /-- Whether nobody listens at the coordinator's address. -/
  isOffline : Bool
  /-- The bytes of a line that is not complete. -/
  pending : List UInt8 := []

namespace WorkerSession

/-- The worker's next event of its own making. -/
def nextEvent? (isOffline : Bool) (w : Worker) : Option WorkerEvent :=
  -- Readings come before the engines, so that a stop is heeded at the instant it arrives.
  let attempt := if isOffline then WorkerEvent.miss else WorkerEvent.reach
  let work := (List.range w.group.engines.length).map WorkerEvent.work
  let events : List WorkerEvent := [attempt, .read] ++ work ++ [.report, .join, .expire]
  events.find? w.canHappen

/-- At most `fuel` events of the worker's own making. -/
def settleFor (isOffline : Bool) : (fuel : Nat) → Worker → Worker
  | 0, w => w
  | fuel + 1, w =>
    match nextEvent? isOffline w with
    | some e => settleFor isOffline fuel (w.step e)
    | none => w

/-- A bound on the events of the worker's own making at one instant, unless it starts its engines
    there: each reads something that has arrived, steps the engines, or ends a phase. -/
def budget (w : Worker) : Nat := w.inbox.length + w.group.budget + 8

/-- Lets the worker do whatever it can at the present instant; the second time with the engines that
    it has started the first. -/
def settle (isOffline : Bool) (w : Worker) : Worker :=
  let w := settleFor isOffline (budget w) w
  settleFor isOffline (budget w) w

/-- A session of a worker that has just been started. -/
def start (isOffline : Bool) (w : Worker) : WorkerSession := ⟨settle isOffline w, isOffline, []⟩

/-- Puts readings into the inbox, one after the other. -/
def deliver (s : WorkerSession) (readings : List Reading) : WorkerSession :=
  let w := readings.foldl (fun w r => w.step (.arrive r)) s.worker
  { s with worker := settle s.isOffline w }

/-- The coordinator sends bytes. -/
def send (s : WorkerSession) (bytes : List UInt8) : WorkerSession :=
  let (readings, pending) := Message.feed s.pending bytes
  { s with pending }.deliver readings

/-- The coordinator ends its bytes. -/
def close (s : WorkerSession) : WorkerSession :=
  { s with pending := [] }.deliver (Message.finish s.pending)

/-- Lets time pass from one thing to do to the next, each at least a millisecond after the one
    before. -/
def advanceFor (isOffline : Bool) : (fuel : Nat) → (ms : Nat) → Worker → Worker
  | 0, _, w => w
  | fuel + 1, ms, w =>
    let w' := settle isOffline (w.step (.advance ms))
    let left := ms - (w'.now - w.now)
    if left = 0 then w' else advanceFor isOffline fuel left w'

def advance (s : WorkerSession) (ms : Nat) : WorkerSession :=
  { s with worker := advanceFor s.isOffline (ms + 1) ms s.worker }

/-- The messages that have reached the coordinator. -/
def received (s : WorkerSession) : List Message := s.worker.sent

end WorkerSession

end TxLoad
