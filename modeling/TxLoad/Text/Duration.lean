import TxLoad.Text.Numeral

namespace TxLoad.Text

/-!
# Spans of time as text

A span is written in the largest of the units second, millisecond, microsecond and nanosecond in
which it is at least one, with exactly the decimal places it needs.
-/

/-- The digits of `part` as decimal places after the point, `width` of them, without the zeros at
    the end; nothing if no place is left. -/
def places (width part : Nat) : List Char :=
  let digits := numeral part
  let padded := List.replicate (width - digits.length) '0' ++ digits
  let kept := (padded.reverse.dropWhile (· == '0')).reverse
  if kept.isEmpty then [] else '.' :: kept

/-- A span of nanoseconds as text, such as `1.5ms`. -/
def duration (ns : Nat) : String :=
  let (whole, part, width, unit) :=
    if 1000000000 ≤ ns then (ns / 1000000000, ns % 1000000000, 9, "s")
    else if 1000000 ≤ ns then (ns / 1000000, ns % 1000000, 6, "ms")
    else if 1000 ≤ ns then (ns / 1000, ns % 1000, 3, "µs")
    else (ns, 0, 0, "ns")
  String.ofList (numeral whole ++ places width part) ++ unit

end TxLoad.Text
