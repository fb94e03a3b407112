import TxLoad.Endpoint.Pool
import TxLoad.Engine.Basic
import TxLoad.Stats.Report

namespace TxLoad

/-!
# Groups of engines

The engines of one worker run side by side on one clock. The group moves from instant to instant:
at each, every engine that acts then takes its step.

* `Group.spawn` makes one engine per client, the i-th at the pool's i-th endpoint, round robin;
* `Group.step` is the step at the next instant at which an engine acts;
* `Group.cancel` asks all engines to stop;
* `Group.report` sums the counters of the connections.
-/

structure Group where
  engines : List Engine

namespace Group

/-- The setup of the connection with the given index. -/
def setup (cfg : Config) (pool : Pool) (target : Nat → Endpoint → Target)
    (spawned deadline i : Nat) (client : Client) : EngineSetup where
  endpoint := pool.select i
  rate := cfg.rate.toNat
  limit := cfg.count.map UInt64.toNat
  mode := cfg.broadcastMode
  timeoutMs := Clock.seconds cfg.sendTimeout.toNat
  spawned := spawned
  deadline := deadline
  client := client
  target := target i (pool.select i)

/-- One engine per client, all starting at `now` and ending with the configured time. `target i e`
    is the far side of the i-th connection, which goes to the endpoint `e`. -/
def spawn (cfg : Config) (pool : Pool) (target : Nat → Endpoint → Target) (clients : List Client)
    (now : Nat) : Group :=
  let deadline := now + Clock.seconds cfg.time.toNat
  ⟨clients.zipIdx.map fun (client, i) =>
    { setup := setup cfg pool target now deadline i client, now := now }⟩

/-- The instants at which the running engines act next. -/
def instants (g : Group) : List Nat :=
  g.engines.filterMap fun e => if e.isStopped then none else some e.now

/-- The next instant at which an engine acts. -/
def next? (g : Group) : Option Nat := g.instants.min?

/-- Every engine that acts at the instant `t` takes its step. -/
def stepAt (t : Nat) (g : Group) : Group :=
  -- Engines share nothing but the clock, so that the order within one instant does not matter.
  ⟨g.engines.map fun e => if !e.isStopped && e.now = t then e.step else e⟩

/-- The step at the next instant at which an engine acts. -/
def step (g : Group) : Group :=
  match g.next? with
  | some t => g.stepAt t
  | none => g

/-- Whether an engine takes its next step at the instant `t` at the latest. -/
def isDue (g : Group) (i t : Nat) : Bool :=
  (g.engines[i]?).any fun e => !e.isStopped && e.now ≤ t

/-- A single engine takes its step. -/
def stepEngine (g : Group) (i : Nat) : Group := ⟨g.engines.modify i Engine.step⟩

/-- Whether all engines have stopped. -/
def isStopped (g : Group) : Bool := g.engines.all (·.isStopped)

/-- Asks all engines to stop. -/
def cancel (g : Group) : Group := ⟨g.engines.map (·.cancel)⟩

/-- A bound on the number of steps that are left. -/
def budget (g : Group) : Nat := (g.engines.map (·.budget)).foldl (· + ·) 0

/-- At most `n` steps, no more once all engines have stopped. -/
def steps : Nat → Group → Group
  | 0, g => g
  | n + 1, g => if g.isStopped then g else steps n g.step

/-- Runs the group until all engines have stopped. -/
def run (g : Group) : Group := steps g.budget g

/-- At most `n` steps of those up to the instant `t`. -/
def stepsUntil (t : Nat) : Nat → Group → Group
  | 0, g => g
  | n + 1, g =>
    match g.next? with
    | some t' => if t < t' then g else stepsUntil t n (g.stepAt t')
    | none => g

/-- Runs the group up to the instant `t`. -/
def runUntil (t : Nat) (g : Group) : Group := stepsUntil t g.budget g

/-- The counters of the connections. -/
def stats (g : Group) : List ConnectionStat := g.engines.map (·.stat)

/-- The sums of the present counters. -/
def report (g : Group) (completed : Bool) : Report := Report.ofStats g.stats completed

/-- Why the stopped engines stopped. -/
def exits (g : Group) : List Exit := g.engines.filterMap (·.exit?)

/-- The instant at which the last engine stopped, `start` if there is none. -/
def finishedAt (g : Group) (start : Nat) : Nat :=
  (g.engines.map (·.now)).foldl max start

@[simp] theorem engines_cancel (g : Group) : g.cancel.engines = g.engines.map (·.cancel) := rfl

@[simp] theorem length_stepAt (t : Nat) (g : Group) :
    (g.stepAt t).engines.length = g.engines.length := by
  simp [stepAt]

end Group

end TxLoad
