import TxLoad.Decimal.Binary64
import TxLoad.Text.Numeral

namespace TxLoad.Decimal

/-!
# Reading a decimal number

A number is an optional sign, digits with at most one point (at least one digit in all) and an
optional exponent, or one of the words for infinity and not-a-number in any case. It is read as
the nearest double.
-/

/-- Lower-cases the ASCII letters of a text. -/
def lowerCase (s : List Char) : List Char := s.map Char.toLower

/-- Splits a sign off a text. -/
def splitSign : List Char → Bool × List Char
  | '-' :: r => (true, r)
  | '+' :: r => (false, r)
  | r => (false, r)

/-- The digits at the start of a text, and the rest. -/
def splitDigits (s : List Char) : List Char × List Char :=
  (s.takeWhile Char.isDigit, s.dropWhile Char.isDigit)

/-- An exponent: nothing, or `e` and an integer. -/
def readExponent : List Char → Option Int
  | [] => some 0
  | c :: r =>
    if c = 'e' ∨ c = 'E' then
      let (negative, digits) := splitSign r
      (Text.readDigits 10 digits).map fun n => if negative then -(n : Int) else n
    else none

/-- The number of digits without the leading zeros. -/
def widthOf (digits : List Char) : Nat := (digits.dropWhile (· == '0')).length

/-- The digits of an unsigned number and its exponent. -/
def readUnsigned (s : List Char) : Option (List Char × Int) :=
  let (whole, r) := splitDigits s
  let (places, r) := match r with
    | '.' :: r => splitDigits r
    | _ => ([], r)
  if whole.isEmpty && places.isEmpty then none
  else (readExponent r).map fun e => (whole ++ places, e - places.length)

/-- Reads a decimal number as the nearest double. -/
def read (s : List Char) : Option Float :=
  let (negative, r) := splitSign s
  let word := String.ofList (lowerCase r)
  if word = "inf" ∨ word = "infinity" then some (nearest negative 1 1 1000)
  else if word = "nan" then some (Float.ofBits 0x7ff8000000000000)
  else
    match readUnsigned r with
    | some (digits, e) =>
      (Text.readDigits 10 digits).map fun d => nearest negative d (widthOf digits) e
    | none => none

end TxLoad.Decimal
