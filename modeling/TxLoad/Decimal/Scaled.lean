import TxLoad.Decimal.Binary64
import TxLoad.Text.Numeral

namespace TxLoad.Decimal

/-!
# Decimal numbers as scaled words

A number of any length is kept as a 64-bit word, its *significand*, and a power of ten. The digits
that do not fit into the word are dropped, and the value is the word's double times or divided by
the double of the power of ten: two roundings, so that it may differ from the nearest double in its
last bits.

* `Scaled.pushWhole` takes in a digit before the point, `Scaled.pushPlace` one behind it;
* `Scaled.toFloat?` is the value, if it is finite;
* a digit that is counted or dropped leaves the word as it is (`Scaled.pushWhole_of_full`).
-/

/-- A number `word * 10 ^ exponent`. Once a digit did not fit into the word it is *full*. -/
structure Scaled where
  word : Nat := 0
  exponent : Int := 0
  full : Bool := false
  deriving DecidableEq, Repr

namespace Scaled

/-- The word with one more digit, unless it is full or the digit does not fit. -/
def push? (s : Scaled) (digit : Nat) : Option Nat :=
  let word := s.word * 10 + digit
  if s.full || Text.wordMax < word then none else some word

/-- A digit before the point. One that does not fit only counts as a place. -/
def pushWhole (s : Scaled) (digit : Nat) : Scaled :=
  match s.push? digit with
  | some word => { s with word }
  | none => { s with exponent := s.exponent + 1, full := true }

/-- A digit behind the point. From the first one on that does not fit they are dropped. -/
def pushPlace (s : Scaled) (digit : Nat) : Scaled :=
  match s.push? digit with
  | some word => { s with word, exponent := s.exponent - 1 }
  | none => { s with full := true }

/-- The number with the given digits before the point. -/
def ofWhole (digits : List Nat) : Scaled := digits.foldl pushWhole {}

/-- The number with the given digits behind the point. They are tried anew even if one before the
    point did not fit, since a small one may. -/
def withPlaces (s : Scaled) (digits : List Nat) : Scaled :=
  digits.foldl pushPlace { s with full := false }

/-- The number times a power of ten. -/
def shift (s : Scaled) (power : Int) : Scaled := { s with exponent := s.exponent + power }

/-! ### The value -/

/-- The largest power of ten that is a double. -/
def maxPower : Nat := 308

/-- The double nearest to a power of ten. -/
def powerOfTen (n : Nat) : Float := nearest false 1 1 n

/-- A double divided by a power of ten, in steps of the largest one. -/
def scaleDown (x : Float) (n : Nat) : Float :=
  if n ≤ maxPower then x / powerOfTen n
  -- Zero stays what it is however far it is scaled.
  else if x == 0 then x
  else scaleDown (x / powerOfTen maxPower) (n - maxPower)
  termination_by n
  decreasing_by
    unfold maxPower at *
    omega

/-- A double times a power of ten, unless that is too large. -/
def scaleUp (x : Float) (n : Nat) : Option Float :=
  if n ≤ maxPower then
    let y := x * powerOfTen n
    if y.isInf then none else some y
  else if x == 0 then some x
  else none

/-- The value of a number, if it is finite. -/
def toFloat? (s : Scaled) : Option Float :=
  let x := Float.ofBits (UInt64.ofNat (nearestBits s.word 1))
  if 0 ≤ s.exponent then scaleUp x s.exponent.toNat
  else some (scaleDown x (-s.exponent).toNat)

/-- What does not fit before the point leaves the word as it is. -/
theorem pushWhole_of_full {s : Scaled} (h : s.full = true) (digit : Nat) :
    s.pushWhole digit = { s with exponent := s.exponent + 1 } := by
  have hp : s.push? digit = none := by simp [push?, h]
  simp [pushWhole, hp, h]

end Scaled

end TxLoad.Decimal
