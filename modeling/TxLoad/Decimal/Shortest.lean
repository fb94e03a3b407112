import TxLoad.Decimal.Binary64
import TxLoad.Text.Numeral

namespace TxLoad.Decimal

/-!
# The fewest digits that read back

The decimal text of a double is the shortest one that lies among the reals which round to it; of
two shortest ones the nearer.

* `Band` is that set of reals, as exact multiples of a quarter of the last place;
* `Band.hit` looks for a point of a decimal grid in the band, among the two neighbours of the
  value (`Band.hit_mem`);
* `shortest` takes the first grid, from coarse to fine, that has a hit;
* `positional` writes digits without an exponent, and `display` a whole double that way.
-/

/-- The reals that round to a double: those between `low` and `high` quarters, where the double
    is `mid` quarters and a quarter is `num / den`. The ends belong to it if `closed`. -/
structure Band where
  low : Nat
  mid : Nat
  high : Nat
  num : Nat
  den : Nat
  closed : Bool

/-- The band of `m * 2 ^ e`. Below a power of two the doubles lie twice as dense. -/
def Band.of (m : Nat) (e : Int) : Band :=
  let (num, den) := dyadic 1 (e - 2)
  { low := 4 * m - (if m = Nat.pow 2 52 ∧ -1074 < e then 1 else 2)
    mid := 4 * m
    high := 4 * m + 2
    num := num
    den := den
    closed := m % 2 == 0 }

/-- The fraction `10 ^ j`. -/
def tenPower (j : Int) : Nat × Nat :=
  if 0 ≤ j then (Nat.pow 10 j.toNat, 1) else (1, Nat.pow 10 (-j).toNat)

/-- Whether `q * 10 ^ j` lies in the band. -/
def Band.contains (b : Band) (q : Nat) (j : Int) : Bool :=
  let point := q * (tenPower j).1 * b.den
  let low := b.low * b.num * (tenPower j).2
  let high := b.high * b.num * (tenPower j).2
  if b.closed then low ≤ point && point ≤ high else low < point && point < high

/-- The one of `q` and `q + 1` that is admitted; of two the upper one if it is preferred. -/
def oneOf (q : Nat) (lower upper preferUpper : Bool) : Option Nat :=
  if lower && (!upper || !preferUpper) then some q
  else if upper then some (q + 1)
  else none

/-- Which of two neighbours at equal distance is taken. -/
inductive Tie where
  | upper
  | even
  deriving DecidableEq, Repr

/-- The value's neighbour on the grid of the multiples of `10 ^ j` that lies in the band; of two
    the nearer, at equal distance the one that `tie` says. -/
def Band.hit (tie : Tie) (b : Band) (j : Int) : Option Nat :=
  -- Both sides are brought to one denominator, so that all comparisons are exact.
  let unit := (tenPower j).1 * b.den
  let value := b.mid * b.num * (tenPower j).2
  let q := value / unit
  let middle := (2 * q + 1) * unit
  let preferUpper := middle < 2 * value || (middle == 2 * value && (tie == .upper || q % 2 == 1))
  oneOf q (b.contains q j) (b.contains (q + 1) j) preferUpper

theorem oneOf_admitted {q r : Nat} {lower upper prefer : Bool}
    (h : oneOf q lower upper prefer = some r) :
    (r = q ∧ lower = true) ∨ (r = q + 1 ∧ upper = true) := by
  cases lower <;> cases upper <;> cases prefer <;> simp_all [oneOf]

/-- A hit lies in the band. -/
theorem Band.hit_mem {tie : Tie} {b : Band} {j : Int} {q : Nat} (h : b.hit tie j = some q) :
    b.contains q j = true := by
  rcases oneOf_admitted h with ⟨rfl, hq⟩ | ⟨rfl, hq⟩ <;> exact hq

/-- The first hit on `n` grids, each ten times finer than the one before, from `10 ^ j` down. -/
def Band.search (tie : Tie) (b : Band) : Nat → Int → Option (Nat × Int)
  | 0, _ => none
  | n + 1, j =>
    match b.hit tie j with
    | some q => some (q, j)
    | none => b.search tie n (j - 1)

/-- The least power of ten, from `t` on, that lifts `num / den` to one or more. -/
def liftToUnit (num den : Nat) : (fuel : Nat) → (t : Nat) → Nat
  | 0, t => t
  | fuel + 1, t => if den ≤ num * Nat.pow 10 t then t else liftToUnit num den fuel (t + 1)

/-- The position of the decimal point of `num / den`: the number of digits before it, or minus
    the number of zeros after it. -/
def pointPosition (num den : Nat) : Int :=
  if den ≤ num then (Text.numeral (num / den)).length
  else 1 - (liftToUnit num den 400 1 : Nat)

/-- Removes the zeros at the end of a positive number, at most `fuel` of them, and counts them in
    the exponent. -/
def stripZeros : (fuel : Nat) → Nat → Int → Nat × Int
  | 0, d, j => (d, j)
  | fuel + 1, d, j => if d % 10 = 0 then stripZeros fuel (d / 10) (j + 1) else (d, j)

/-- The shortest digits `d` and their exponent `j` such that `d * 10 ^ j` rounds to
    `m * 2 ^ e`, for a positive `m`. Seventeen digits always suffice. -/
def shortest (tie : Tie) (m : Nat) (e : Int) : Nat × Int :=
  let (num, den) := dyadic m e
  -- The coarsest grid with room for a single digit, and then every finer one.
  let k := pointPosition num den
  match (Band.of m e).search tie 18 (k - 1) with
  | some (d, j) => stripZeros 20 d j
  -- Eighteen grids always have a hit.
  | none => (m, e)

/-! ### Writing -/

/-- Digits with the given exponent, written without one. -/
def positional (d : Nat) (j : Int) : List Char :=
  let digits := Text.numeral d
  if 0 ≤ j then digits ++ List.replicate j.toNat '0'
  else
    let places := (-j).toNat
    let padded := List.replicate (places + 1 - digits.length) '0' ++ digits
    padded.take (padded.length - places) ++ '.' :: padded.drop (padded.length - places)

/-- The sign of a number. -/
def sign (negative : Bool) : List Char := if negative then ['-'] else []

/-- A double as its shortest digits, never with an exponent; of two shortest ones at equal distance
    the upper. -/
def display (x : Float) : String :=
  match Binary64.ofFloat x with
  | .nan => "NaN"
  | .infinite negative => String.ofList (sign negative ++ ['i', 'n', 'f'])
  | .finite negative m e =>
    let digits := if m = 0 then ['0'] else
      let (d, j) := shortest .upper m e
      positional d j
    String.ofList (sign negative ++ digits)

end TxLoad.Decimal
