import TxLoad.Json.Basic
import TxLoad.Decimal.Shortest

namespace TxLoad.Json

/-!
# Writing JSON

The compact text of a value: no blanks, members in their order.

* In strings a quote, a backslash and the control characters below the space are escaped, and
  nothing else;
* a double is written with its shortest digits and at least one decimal place, or with an
  exponent where its point would stand far from its digits;
* `sorted` puts the members of every object in the order of their names and keeps the last of
  those that share one.
-/

/-- One character inside a string. -/
def renderChar (c : Char) : List Char :=
  if c = '"' then ['\\', '"']
  else if c = '\\' then ['\\', '\\']
  else if c = '\n' then ['\\', 'n']
  else if c = '\r' then ['\\', 'r']
  else if c = '\t' then ['\\', 't']
  else if c = '\x08' then ['\\', 'b']
  else if c = '\x0c' then ['\\', 'f']
  else if c.toNat < 0x20 then '\\' :: 'u' :: Text.hexPadded 4 c.toNat
  else [c]

def renderString (s : String) : List Char := '"' :: s.toList.flatMap renderChar ++ ['"']

/-- The decimal point of a double is written in place from five zeros before its digits up to
    sixteen digits before it. -/
def renderDigits (d : Nat) (j : Int) : List Char :=
  let digits := Text.numeral d
  let point := (digits.length : Int) + j
  if 0 ≤ j ∧ point ≤ 16 then Decimal.positional d j ++ ['.', '0']
  else if -5 < point ∧ point ≤ 16 then Decimal.positional d j
  else
    let power := point - 1
    let powerText := Decimal.sign (power < 0) ++ Text.numeral power.natAbs
    digits.take 1 ++ (if digits.length = 1 then [] else '.' :: digits.drop 1) ++ 'e' :: powerText

/-- A double; one that is not finite is null. -/
def renderReal (x : Float) : List Char :=
  match Decimal.Binary64.ofFloat x with
  | .finite negative m e =>
    let digits := if m = 0 then ['0', '.', '0'] else
      let (d, j) := Decimal.shortest .even m e
      renderDigits d j
    Decimal.sign negative ++ digits
  | _ => ['n', 'u', 'l', 'l']

def renderNumber : Number → List Char
  | .word n => Text.numeral n.toNat
  | .negative n => '-' :: Text.numeral n
  | .real x => renderReal x

mutual

/-- The compact text of a value; a piece without a value is written as null. -/
def renderChars : Json → List Char
  | null => ['n', 'u', 'l', 'l']
  | bool true => ['t', 'r', 'u', 'e']
  | bool false => ['f', 'a', 'l', 's', 'e']
  | number n => renderNumber n
  | string s => renderString s
  | array items => '[' :: renderItems items ++ [']']
  | object members => '\x7b' :: renderMembers members ++ ['\x7d']
  | flawed => ['n', 'u', 'l', 'l']

/-- Items with commas between them. -/
def renderItems : List Json → List Char
  | [] => []
  | [v] => renderChars v
  | v :: r => renderChars v ++ ',' :: renderItems r

/-- Members with commas between them. -/
def renderMembers : List (String × Json) → List Char
  | [] => []
  | [(name, v)] => renderString name ++ ':' :: renderChars v
  | (name, v) :: r => renderString name ++ ':' :: renderChars v ++ ',' :: renderMembers r

end

def render (v : Json) : String := String.ofList v.renderChars

/-! ### Sorted members -/

/-- Puts a member into a list that is sorted by name, in place of one of the same name. -/
def insertMember (name : String) (v : Json) : List (String × Json) → List (String × Json)
  | [] => [(name, v)]
  | (other, w) :: r =>
    if name = other then (name, v) :: r
    else if name < other then (name, v) :: (other, w) :: r
    else (other, w) :: insertMember name v r

mutual

/-- The same value with the members of every object sorted by name, the last of each name. -/
def sorted : Json → Json
  | array items => .array (sortedItems items)
  | object members => .object (sortedMembers members)
  | v => v

def sortedItems : List Json → List Json
  | [] => []
  | v :: r => sorted v :: sortedItems r

/-- Later members replace earlier ones of the same name. -/
def sortedMembers : List (String × Json) → List (String × Json)
  | [] => []
  | (name, v) :: r =>
    let rest := sortedMembers r
    -- A later member of the same name is already in `rest`.
    if rest.any (·.1 == name) then rest else insertMember name (sorted v) rest

end

end TxLoad.Json
