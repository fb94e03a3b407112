import TxLoad.Decimal.Shortest

namespace TxLoad.Decimal

/-!
# A fixed number of decimal places

`fixed` rounds the exact value of a double to a number of places, a half to the even neighbour.
-/

/-- A number of `10 ^ -places` units with a point before the last places. -/
def pointed (places units : Nat) : List Char :=
  if places = 0 then Text.numeral units else positional units (-(places : Int))

/-- A double rounded to the given number of places. -/
def fixed (places : Nat) (x : Float) : String :=
  match Binary64.ofFloat x with
  | .nan => "NaN"
  | .infinite negative => String.ofList (sign negative ++ ['i', 'n', 'f'])
  | .finite negative m e =>
    let (num, den) := dyadic m e
    String.ofList (sign negative ++ pointed places (roundHalfEven (num * Nat.pow 10 places) den))

end TxLoad.Decimal
