import TxLoad.Stats.Summary

namespace TxLoad

/-!
# Collecting the reports of workers

A collector keeps the last accepted report of every registered worker and where the worker stands.

* `Collector.merge` accepts a report of an active worker that does not fall below its last one;
* `Collector.fail` and `Collector.lose` give a worker up, its counts stay;
* `Collector.totals` are the sums over all workers, `Collector.live` the sums as last published;
* `Collector.finalize` is the summary, whose time runs from the first accepted report to the last
  completion.
-/

/-- Where a worker stands. -/
inductive WorkerStatus where
  /-- Still expected to report. -/
  | active
  /-- Sent its final report. -/
  | completed
  /-- Violated the protocol. -/
  | failed
  /-- Disconnected without a final report. -/
  | lost
  deriving DecidableEq, Repr, Inhabited

def WorkerStatus.name : WorkerStatus → String
  | active => "Active"
  | completed => "Completed"
  | failed => "Failed"
  | lost => "Lost"

/-- What is known of a registered worker. -/
structure WorkerEntry where
  status : WorkerStatus := .active
  report : Report := {}
  deriving DecidableEq, Repr, Inhabited

/-- The workers in ascending order of their ids, and the instants that bound the run. -/
structure Collector where
  workers : List (Nat × WorkerEntry) := []
  /-- When the first report was accepted. -/
  started : Option Nat := none
  /-- When the last worker completed. -/
  finished : Option Nat := none
  live : Totals := {}
  deriving DecidableEq, Repr, Inhabited

namespace Collector

/-- Puts an entry under an id into an ascending list, in place of the one that is there. -/
def insertEntry (id : Nat) (entry : WorkerEntry) :
    List (Nat × WorkerEntry) → List (Nat × WorkerEntry)
  | [] => [(id, entry)]
  | (other, old) :: r =>
    if id < other then (id, entry) :: (other, old) :: r
    else if id = other then (id, entry) :: r
    else (other, old) :: insertEntry id entry r

/-- The entry of a worker. -/
def entryOf? (c : Collector) (id : Nat) : Option WorkerEntry :=
  (c.workers.find? (·.1 == id)).map (·.2)

/-- Replaces the entry of a registered worker. -/
def setEntry (c : Collector) (id : Nat) (entry : WorkerEntry) : Collector :=
  { c with workers := c.workers.map fun w => if w.1 = id then (id, entry) else w }

/-- Registers a worker, afresh if it was registered before. -/
def register (c : Collector) (id : Nat) : Collector :=
  { c with workers := insertEntry id {} c.workers }

/-- Adds the last report of a worker. -/
def addReport (t : Totals) (w : Nat × WorkerEntry) : Totals :=
  ⟨t.requests + w.2.report.requests, t.bytes + w.2.report.bytes⟩

/-- The sums of the last accepted reports. -/
def totals (c : Collector) : Totals := c.workers.foldl addReport {}

/-- Why a report of the given worker is refused, if it is. -/
def refusal? (c : Collector) (id : Nat) (report : Report) : Option ProtocolError :=
  match c.entryOf? id with
  | none => some (.unregistered id)
  | some entry =>
    if entry.status ≠ .active then
      some (.unexpected "no reports after completion"
        s!"stats_report from worker {id} in state {entry.status.name}")
    else if report.requests < entry.report.requests ∨ report.bytes < entry.report.bytes then
      some (.nonMonotonic id entry.report.requests entry.report.bytes report.requests report.bytes)
    else none

/-- The collector after a report was accepted at the instant `now`. -/
def accept (c : Collector) (id : Nat) (report : Report) (now : Nat) : Collector :=
  let status := if report.completed then WorkerStatus.completed else .active
  let c := c.setEntry id ⟨status, report⟩
  { c with
    started := some (c.started.getD now)
    -- Instants may arrive out of order; the last completion is the greatest.
    finished := if report.completed then some (max (c.finished.getD now) now) else c.finished
    live := c.totals }

/-- Merges a cumulative report at the instant `now`. The answer says whether it completes the
    worker; a report that is refused changes nothing. -/
def merge (c : Collector) (id : Nat) (report : Report) (now : Nat) :
    Except ProtocolError (Collector × Bool) :=
  match c.refusal? id report with
  | some e => .error e
  | none => .ok (c.accept id report now, report.completed)

/-- Sets the status of a registered worker, provided its present one is admitted. -/
def mark (c : Collector) (id : Nat) (status : WorkerStatus) (admits : WorkerStatus → Bool) :
    Collector :=
  match c.entryOf? id with
  | some entry => if admits entry.status then c.setEntry id { entry with status } else c
  | none => c

/-- Gives up a worker that violated the protocol. -/
def fail (c : Collector) (id : Nat) : Collector := c.mark id .failed fun _ => true

/-- Gives up a worker that is still expected to report. -/
def lose (c : Collector) (id : Nat) : Collector := c.mark id .lost (· == .active)

def status (c : Collector) (id : Nat) : Option WorkerStatus := (c.entryOf? id).map (·.status)

/-- The workers of the given status, in ascending order. -/
def idsOf (c : Collector) (status : WorkerStatus) : List Nat :=
  (c.workers.filter (·.2.status == status)).map (·.1)

/-- The workers that are still expected to report. -/
def active (c : Collector) : List Nat := c.idsOf .active

/-- Whether no worker is expected to report anymore. -/
def isSettled (c : Collector) : Bool := c.workers.all (·.2.status != .active)

def numCompleted (c : Collector) : Nat := (c.idsOf .completed).length

/-- The nanoseconds of the run, where `now` is the end of one that nobody completed. -/
def elapsed (c : Collector) (now : Nat) : Nat :=
  match c.started with
  | some started => c.finished.getD now - started
  | none => 0

/-- The summary of the run. -/
def finalize (c : Collector) (now : Nat) : Summary :=
  Summary.of c.totals.requests c.totals.bytes (c.elapsed now)

/-- A collector is settled exactly if no worker is active. -/
theorem isSettled_iff (c : Collector) : c.isSettled = true ↔ c.active = [] := by
  simp [isSettled, active, idsOf, List.filter_eq_nil_iff]

end Collector

end TxLoad
