import TxLoad.Discovery
import TxLoad.Engine.Group
import TxLoad.Stats.Storage

namespace TxLoad

/-!
# Runs on this machine alone

A standalone run checks its configuration, resolves its endpoints, runs a group of engines until
all have stopped, and writes the summary. Nothing is connected unless everything before succeeds.

* `Surroundings` is what a run meets outside;
* `Standalone.run` is a whole run.
-/

/-- What surrounds a run: how endpoints answer queries, how the far side of each connection
    behaves, and randomness for the clients. -/
structure Surroundings where
  network : Network
  target : Nat → Endpoint → Target
  noise : Nat → Noise

/-- What came of a run: its summary, the queries, the group as it was at the end, and the text of
    the file that was written. -/
structure StandaloneOutcome where
  result : Except Error Summary
  queries : List Query := []
  group : Group := ⟨[]⟩
  file : Option String := none

namespace Standalone

/-- Runs a group to its end, cancelling it at the instant of an interrupt. -/
def drive (group : Group) (interrupt : Option Nat) : Group :=
  match interrupt with
  | none => group.run
  | some t => (group.runUntil t).cancel.run

/-- A whole run. An interrupt is left alone if the configuration says so. -/
def run (world : Surroundings) (storage : Storage) (registry : Registry) (cfg : Config)
    (interrupt : Option Nat) : StandaloneOutcome :=
  match cfg.check.bind fun _ => registry.newClients cfg world.noise with
  | .error e => { result := .error (.config e) }
  | .ok clients =>
    let resolution := Discovery.resolve world.network cfg 0
    match resolution.pool with
    | .error e => { result := .error e, queries := resolution.queries }
    | .ok pool =>
      -- The time of the run starts only when the endpoints are known.
      let group := Group.spawn cfg pool world.target clients resolution.finished
      let group := drive group (if cfg.noTrapInterrupts then none else interrupt)
      let (result, file) := storage.conclude cfg (Summary.ofStats group.stats)
      { result, queries := resolution.queries, group, file }

end Standalone

end TxLoad
