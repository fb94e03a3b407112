import TxLoad.Stats.Connection

namespace TxLoad

/-!
# Reports

A report is what a worker tells its coordinator: the sums of its connections' counters since the
start, and whether all of them have stopped.
-/

structure Report where
  requests : UInt64 := 0
  bytes : UInt64 := 0
  errors : UInt64 := 0
  completed : Bool := false
  deriving DecidableEq, Repr, Inhabited

namespace Report

/-- Adds the counters of a connection. -/
def add (r : Report) (s : ConnectionStat) : Report :=
  { r with
    requests := r.requests + s.requests
    bytes := r.bytes + s.bytes
    errors := r.errors + s.errors }

/-- The report over the given connections. -/
def ofStats (stats : List ConnectionStat) (completed : Bool) : Report :=
  stats.foldl add { completed := completed }

end Report

/-- Requests and bytes of a run so far. -/
structure Totals where
  requests : UInt64 := 0
  bytes : UInt64 := 0
  deriving DecidableEq, Repr, Inhabited

end TxLoad
