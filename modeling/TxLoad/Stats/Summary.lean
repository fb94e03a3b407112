import TxLoad.Decimal.Fixed
import TxLoad.Decimal.Read
import TxLoad.Stats.Report
import TxLoad.Text.Blank

namespace TxLoad

/-!
# The summary of a run

`Summary` holds the totals of a run, its time and its average rates.

* `Summary.of` computes the rates from totals and time; a run that took no time has none;
* `Summary.ofStats` takes the time from the first start to the last finish of the connections;
* `Summary.table` writes a summary as a table of rows, `Summary.ofTable` reads such a table back,
  its rows in any order;
* `Summary.line` is the summary in one line.
-/

structure Summary where
  transactions : UInt64 := 0
  bytes : UInt64 := 0
  /-- Seconds. -/
  time : Float := 0
  /-- Transactions per second. -/
  transactionRate : Float := 0
  /-- Bytes per second. -/
  dataRate : Float := 0
  deriving Repr, Inhabited

namespace Summary

/-- A span of nanoseconds in seconds: the whole seconds and the fraction, each rounded. -/
def seconds (ns : Nat) : Float :=
  (UInt64.ofNat (ns / 1000000000)).toFloat +
    (UInt64.ofNat (ns % 1000000000)).toFloat / 1000000000

/-- The summary of the given totals over a span of nanoseconds. -/
def of (transactions bytes : UInt64) (elapsed : Nat) : Summary :=
  let time := seconds elapsed
  -- A run without any time would have infinite rates.
  if time > 0 then
    { transactions, bytes, time
      transactionRate := transactions.toFloat / time
      dataRate := bytes.toFloat / time }
  else { transactions, bytes, time, transactionRate := 0, dataRate := 0 }

/-- The least of some instants. -/
def earliest (instants : List Nat) : Option Nat := instants.min?

/-- The greatest of some instants. -/
def latest (instants : List Nat) : Option Nat := instants.max?

/-- The nanoseconds from the first start to the last finish of the connections. -/
def span (stats : List ConnectionStat) : Nat :=
  match earliest (stats.filterMap (·.started)), latest (stats.filterMap (·.finished)) with
  | some started, some finished => finished - started
  | _, _ => 0

/-- The summary of a run on this machine alone. -/
def ofStats (stats : List ConnectionStat) : Summary :=
  let report := Report.ofStats stats true
  of report.requests report.bytes (span stats)

/-! ### The table -/

/-- The first line of a table. -/
def header : String := "Parameter,Value,Units"

/-- The lines of a table, one row for each figure. -/
def rows (s : Summary) : List String :=
  [header,
   "total_time," ++ Decimal.display s.time ++ ",seconds",
   "total_txs," ++ Text.decimal s.transactions.toNat ++ ",count",
   "total_bytes," ++ Text.decimal s.bytes.toNat ++ ",bytes",
   "avg_tx_rate," ++ Decimal.display s.transactionRate ++ ",transactions per second",
   "avg_data_rate," ++ Decimal.display s.dataRate ++ ",bytes per second"]

/-- The table: its lines, each ended by a line feed. -/
def table (s : Summary) : String := String.join (s.rows.map (· ++ "\n"))

/-- Why a table cannot be read, with the row at fault. -/
inductive TableError where
  | missingValue (row : String)
  | invalidValue (row : String)
  deriving DecidableEq, Repr

def TableError.message : TableError → String
  | missingValue row => "missing value in row '" ++ row ++ "'"
  | invalidValue row => "invalid value in row '" ++ row ++ "'"

/-- The lines of a text, without their ends, of which each is a line feed with perhaps a carriage
    return before it. `line` is the current line so far, reversed. -/
def splitLines (line : List Char) : List Char → List (List Char)
  | [] => if line.isEmpty then [] else [line.reverse]
  | '\n' :: r =>
    (match line with
      | '\r' :: l => l.reverse
      | l => l.reverse) :: splitLines [] r
  | c :: r => splitLines (c :: line) r

def lines (s : List Char) : List (List Char) := splitLines [] s

/-- The text before the first comma and, if there is one, the text behind it. -/
def cut (s : List Char) : List Char × Option (List Char) :=
  (s.takeWhile (· != ','),
    match s.dropWhile (· != ',') with
    | _ :: r => some r
    | [] => none)

/-- Reads a figure and stores it in the summary. -/
def setField (s : Summary) (label : String) (value : List Char) : Option Summary :=
  let value := Text.trim value
  let word := (Text.readNumeral Text.wordMax value).map UInt64.ofNat
  match label with
  | "total_time" => (Decimal.read value).map fun x => { s with time := x }
  | "total_txs" => word.map fun n => { s with transactions := n }
  | "total_bytes" => word.map fun n => { s with bytes := n }
  | "avg_tx_rate" => (Decimal.read value).map fun x => { s with transactionRate := x }
  | "avg_data_rate" => (Decimal.read value).map fun x => { s with dataRate := x }
  | _ => some s

/-- Reads a row: a label, a value and whatever follows. Blank rows and the header are skipped, and
    so are rows with an unknown label. -/
def readRow (s : Summary) (line : List Char) : Except TableError Summary :=
  let line := Text.trim line
  if line.isEmpty ∨ String.ofList line = header then .ok s
  else
    match cut line with
    | (_, none) => .error (.missingValue (String.ofList line))
    -- What stands behind a second comma is the unit, which is not read.
    | (label, some r) =>
      match s.setField (String.ofList label) (cut r).1 with
      | some s => .ok s
      | none => .error (.invalidValue (String.ofList line))

/-- Reads a table. A figure that has no row is zero; of two rows the later counts. -/
def ofTable (text : String) : Except TableError Summary :=
  (lines text.toList).foldlM readRow {}

/-- The summary in one line. -/
def line (s : Summary) : String :=
  s!"{s.transactions} txs, {s.bytes} bytes in {Decimal.fixed 3 s.time}s " ++
    s!"({Decimal.fixed 2 s.transactionRate} tx/s, {Decimal.fixed 2 s.dataRate} B/s)"

end Summary

end TxLoad
