import TxLoad.Endpoint.Uri
import TxLoad.Stats.Report
import TxLoad.Text.Numeral

namespace TxLoad

/-!
# Metrics of a run

The totals of a run as counters in the OpenMetrics text format. Counters never move back: each
shows the largest reading so far.

* `Metrics.update` takes a reading (`requests_update`, `bytes_update`);
* `Metrics.text` writes the counters;
* `Metrics.respond` answers a request for them.
-/

structure Metrics where
  /-- The name of the run, which labels the counters. -/
  run : String
  requests : UInt64 := 0
  bytes : UInt64 := 0
  deriving DecidableEq, Repr

namespace Metrics

/-- A counter after a reading. -/
def advance (counter reading : UInt64) : UInt64 := if counter < reading then reading else counter

/-- The counters after a reading of the totals. -/
def update (m : Metrics) (t : Totals) : Metrics :=
  { m with requests := advance m.requests t.requests, bytes := advance m.bytes t.bytes }

/-- The lines of one counter: what it is, its type and its value. -/
def counterLines (name about run : String) (value : UInt64) : List String :=
  ["# HELP " ++ name ++ " " ++ about ++ ".",
   "# TYPE " ++ name ++ " counter",
   name ++ "_total\x7brun=\"" ++ run ++ "\"\x7d " ++ Text.decimal value.toNat]

/-- All lines. -/
def lines (m : Metrics) : List String :=
  counterLines "txstorm_coordinator_txs" "Total number of transactions sent by all workers" m.run
      m.requests ++
    counterLines "txstorm_coordinator_bytes"
      "Total number of transaction bytes sent by all workers" m.run m.bytes ++
    ["# EOF"]

/-- The text of the counters. -/
def text (m : Metrics) : String := String.join (m.lines.map (· ++ "\n"))

/-! ### Requests -/

/-- An answer to a request. -/
structure Response where
  status : Nat
  contentType : Option String := none
  body : String := ""
  deriving DecidableEq, Repr

def path : String := "/metrics"

def contentType : String := "application/openmetrics-text; version=1.0.0; charset=utf-8"

/-- The path of what a request is aimed at, which may be a whole URI: neither its authority nor a
    query or a fragment counts. -/
def pathOf (target : String) : String :=
  let s := target.toList
  let rest := match Uri.schemeLength s with
    | .ok (some n) => (s.drop (n + 3)).dropWhile fun c => !Uri.endsAuthority c
    | _ => s
  String.ofList (rest.takeWhile fun c => c != '?' && c != '#')

/-- Answers a request: a reading of the totals is taken and the counters are sent, without the
    text if only the head of the answer is asked for. -/
def respond (m : Metrics) (t : Totals) (method target : String) : Metrics × Response :=
  if pathOf target ≠ path then (m, { status := 404 })
  else if method = "GET" then
    let m := m.update t
    (m, ⟨200, some contentType, m.text⟩)
  else if method = "HEAD" then (m.update t, ⟨200, some contentType, ""⟩)
  else (m, { status := 405 })

/-! ### Counters never move back -/

theorem toNat_advance (counter reading : UInt64) :
    (advance counter reading).toNat = max counter.toNat reading.toNat := by
  unfold advance
  by_cases h : counter < reading
  · have := UInt64.lt_iff_toNat_lt.mp h
    simp only [h, if_true]
    omega
  · have : ¬ counter.toNat < reading.toNat := fun c => h (UInt64.lt_iff_toNat_lt.mpr c)
    simp only [h, if_false]
    omega

theorem requests_update (m : Metrics) (t : Totals) :
    (m.update t).requests.toNat = max m.requests.toNat t.requests.toNat :=
  toNat_advance _ _

theorem bytes_update (m : Metrics) (t : Totals) :
    (m.update t).bytes.toNat = max m.bytes.toNat t.bytes.toNat :=
  toNat_advance _ _

end Metrics

end TxLoad
