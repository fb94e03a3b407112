namespace TxLoad.Decimal

/-!
# Binary floating point numbers as exact fractions

A double is taken apart into a sign and a dyadic fraction, and a fraction is rounded to the nearest
double:

* `Binary64.ofBits` reads the three fields of a double's 64 bits;
* `roundHalfEven` rounds a quotient to the nearest integer, a half to the even neighbour
  (`roundHalfEven_eq_of_dvd` for exact quotients);
* `nearestBits` gives the bits of the double nearest to a positive fraction.
-/

/-- A double: not a number, an infinity, or a signed `mantissa * 2 ^ exponent`. -/
inductive Binary64 where
  | nan
  | infinite (negative : Bool)
  | finite (negative : Bool) (mantissa : Nat) (exponent : Int)
  deriving DecidableEq, Repr

/-- The number that 64 bits stand for: one sign bit, eleven exponent bits, 52 fraction bits. -/
def Binary64.ofBits (bits : UInt64) : Binary64 :=
  let n := bits.toNat
  let negative := decide (Nat.pow 2 63 ≤ n)
  let field : Nat := n / Nat.pow 2 52 % Nat.pow 2 11
  let fraction : Nat := n % Nat.pow 2 52
  if field = 2047 then
    if fraction = 0 then .infinite negative else .nan
  else if field = 0 then .finite negative fraction (-1074)
  else .finite negative (fraction + Nat.pow 2 52) (field - 1075)

/-- The double that a floating point value holds. -/
def Binary64.ofFloat (x : Float) : Binary64 := .ofBits x.toBits

/-- The fraction of `m * 2 ^ e`: numerator and denominator. -/
def dyadic (m : Nat) (e : Int) : Nat × Nat :=
  if 0 ≤ e then (m * Nat.pow 2 e.toNat, 1) else (m, Nat.pow 2 (-e).toNat)

/-- The integer nearest to `num / den`; a half goes to the even neighbour. -/
def roundHalfEven (num den : Nat) : Nat :=
  let q := num / den
  let r := num % den
  if 2 * r < den then q
  else if den < 2 * r then q + 1
  else if q % 2 = 0 then q else q + 1

/-- An exact quotient is not rounded. -/
theorem roundHalfEven_eq_of_dvd {num den : Nat} (hd : 0 < den) (h : den ∣ num) :
    roundHalfEven num den = num / den := by
  have hr : num % den = 0 := Nat.mod_eq_zero_of_dvd h
  simp [roundHalfEven, hr, hd]

/-- The exponent at which the mantissa of `num / den` has 53 bits, but not below the smallest
    exponent of a double. -/
def exponentFor (num den : Nat) : Int :=
  let e : Int := (Nat.log2 num : Int) - Nat.log2 den - 52
  let (a, b) := dyadic den e
  -- The logarithms are rounded down, so that the guess is at most one too large.
  let e := if num * b < Nat.pow 2 52 * a then e - 1 else e
  max e (-1074)

/-- The bits of the positive double nearest to `num / den`, a tie to the even mantissa; the bits
    of infinity above the largest double. -/
def nearestBits (num den : Nat) : Nat :=
  if num = 0 then 0
  else
    let e := exponentFor num den
    let (a, b) := dyadic den e
    let q := roundHalfEven (num * b) a
    -- A mantissa that rounds up to the next power of two carries into the exponent by itself.
    let bits := (e + 1074).toNat * Nat.pow 2 52 + q
    if e + 1074 < 0 then 0 else min bits (2047 * Nat.pow 2 52)

/-- The largest power of ten that a nonzero double can need, with room to spare; beyond it a
    decimal is infinite or zero without any computation. -/
def decimalRange : Nat := 400

/-- The double nearest to `digits * 10 ^ exponent`, where `digits` has `width` decimal digits. -/
def nearest (negative : Bool) (digits width : Nat) (exponent : Int) : Float :=
  let magnitude : Nat :=
    if digits = 0 then 0
    else if (decimalRange : Int) < exponent + width then 2047 * Nat.pow 2 52
    else if exponent + width < -(decimalRange : Int) then 0
    else if 0 ≤ exponent then nearestBits (digits * Nat.pow 10 exponent.toNat) 1
    else nearestBits digits (Nat.pow 10 (-exponent).toNat)
  Float.ofBits (UInt64.ofNat (magnitude + if negative then Nat.pow 2 63 else 0))

end TxLoad.Decimal
