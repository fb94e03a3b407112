import TxLoad.Json.Basic
import TxLoad.Decimal.Read
import TxLoad.Decimal.Scaled

namespace TxLoad.Json

/-!
# Reading JSON

A reader for JSON texts over lists of characters. Each function reads a construct at the start of
its input and returns what follows it.

* `readString` reads the inside of a string as pieces, which `joinPieces` turns into characters;
* `readNumber` reads a number and sorts it into word, negative and double;
* `parseValue` reads a value, with fuel for its nesting and length;
* `parse` reads a whole text.
-/

/-- The four characters that may stand between tokens. -/
def isSpace (c : Char) : Bool := c == ' ' || c == '\n' || c == '\t' || c == '\r'

def skipSpace (s : List Char) : List Char := s.dropWhile isSpace

/-! ### Strings -/

/-- A piece of a string: a character, or a 16-bit unit given by its number. -/
inductive Piece where
  | char (c : Char)
  | unit (n : Nat)
  deriving DecidableEq, Repr

/-- The character of a one-letter escape. -/
def escapedChar? : Char → Option Char
  | '"' => some '"'
  | '\\' => some '\\'
  | '/' => some '/'
  | 'b' => some '\x08'
  | 'f' => some '\x0c'
  | 'n' => some '\n'
  | 'r' => some '\r'
  | 't' => some '\t'
  | _ => none

/-- The pieces of a string after its opening quote, and what follows the closing quote. -/
def readPieces : List Char → Option (List Piece × List Char)
  | [] => none
  | '"' :: r => some ([], r)
  | '\\' :: 'u' :: a :: b :: c :: d :: r =>
    match Text.readDigits 16 [a, b, c, d] with
    | some n => (readPieces r).map fun p => (.unit n :: p.1, p.2)
    | none => none
  | '\\' :: e :: r =>
    match escapedChar? e with
    | some c => (readPieces r).map fun p => (.char c :: p.1, p.2)
    | none => none
  | c :: r =>
    -- A backslash gets here only if nothing follows it.
    if c.toNat < 0x20 ∨ c = '\\' then none
    else (readPieces r).map fun p => (.char c :: p.1, p.2)

/-- The characters of the pieces: a pair of surrogates is one character, half a pair is none. -/
def joinPieces : List Piece → Option (List Char)
  | [] => some []
  | .char c :: r => (joinPieces r).map (c :: ·)
  | .unit n :: .unit m :: r =>
    if 0xD800 ≤ n ∧ n < 0xDC00 then
      if 0xDC00 ≤ m ∧ m < 0xE000 then
        (joinPieces r).map (Char.ofNat (0x10000 + (n - 0xD800) * 0x400 + (m - 0xDC00)) :: ·)
      else none
    else if 0xDC00 ≤ n ∧ n < 0xE000 then none
    else (joinPieces (.unit m :: r)).map (Char.ofNat n :: ·)
  | .unit n :: r =>
    if 0xD800 ≤ n ∧ n < 0xE000 then none else (joinPieces r).map (Char.ofNat n :: ·)

/-- A string after its opening quote; no characters if it holds half a surrogate pair. -/
def readString (s : List Char) : Option (Option String × List Char) :=
  (readPieces s).map fun p => ((joinPieces p.1).map String.ofList, p.2)

/-! ### Numbers -/

/-- The digits of a text as numbers. -/
def digitValues (s : List Char) : List Nat := s.filterMap (Text.digitValue? 10)

/-- The double that a number stands for; beyond the doubles it has no value. -/
def real (negative : Bool) (n : Decimal.Scaled) : Json :=
  match n.toFloat? with
  | some x => .number (.real (if negative then -x else x))
  | none => .flawed

/-- The value of an integer: a word or a negative number where it fits into 64 bits, otherwise a
    double. Minus zero is a double. -/
def integer (negative : Bool) (n : Decimal.Scaled) : Json :=
  if n.full then real negative n
  else if !negative then .number (.word (UInt64.ofNat n.word))
  else if 0 < n.word ∧ n.word ≤ Nat.pow 2 63 then .number (.negative n.word)
  else real true n

/-- The digits after a point, if there is one: at least one digit. -/
def readPlaces : List Char → Option (List Char × List Char)
  | '.' :: r =>
    let (digits, r) := Decimal.splitDigits r
    if digits.isEmpty then none else some (digits, r)
  | r => some ([], r)

/-- The exponent after `e`, if there is one: a sign and at least one digit. -/
def readPower : List Char → Option (Option Int × List Char)
  | [] => some (none, [])
  | c :: r =>
    if c = 'e' ∨ c = 'E' then
      let (negative, r) := Decimal.splitSign r
      let (digits, r) := Decimal.splitDigits r
      (Text.readDigits 10 digits).map fun n =>
        (some (if negative then -(n : Int) else n), r)
    else some (none, c :: r)

/-- The integer part of a number: a single zero, or digits that do not start with zero. -/
def readWhole : List Char → Option (List Char × List Char)
  | '0' :: r => some (['0'], r)
  | s =>
    let (digits, r) := Decimal.splitDigits s
    if digits.isEmpty then none else some (digits, r)

def readNumber (s : List Char) : Option (Json × List Char) :=
  let (negative, s) := match s with
    | '-' :: r => (true, r)
    | r => (false, r)
  match readWhole s with
  | none => none
  | some (whole, s) =>
    match readPlaces s with
    | none => none
    | some (places, s) =>
      match readPower s with
      | none => none
      | some (power, s) =>
        let n := Decimal.Scaled.ofWhole (digitValues whole)
        if places.isEmpty ∧ power.isNone then some (integer negative n, s)
        else
          let n := n.withPlaces (digitValues places)
          some (real negative (n.shift (power.getD 0)), s)

/-! ### Values -/

/-- The object with the given members; without a value if a name has none. -/
def ofMembers (members : List (Option String × Json)) : Json :=
  match members.mapM fun m => m.1.map fun name => (name, m.2) with
  | some members => .object members
  | none => .flawed

mutual

/-- Reads a value, blanks before it included. -/
def parseValue : Nat → List Char → Option (Json × List Char)
  | 0, _ => none
  | fuel + 1, s =>
    match skipSpace s with
    | '"' :: r => (readString r).map fun p => ((p.1.map Json.string).getD .flawed, p.2)
    | '[' :: r =>
      match skipSpace r with
      | ']' :: r => some (.array [], r)
      | r => (parseItems fuel r).map fun p => (.array p.1, p.2)
    | '\x7b' :: r =>
      match skipSpace r with
      | '\x7d' :: r => some (.object [], r)
      | r => (parseMembers fuel r).map fun p => (ofMembers p.1, p.2)
    | 'n' :: 'u' :: 'l' :: 'l' :: r => some (.null, r)
    | 't' :: 'r' :: 'u' :: 'e' :: r => some (.bool true, r)
    | 'f' :: 'a' :: 'l' :: 's' :: 'e' :: r => some (.bool false, r)
    | r => readNumber r

/-- Reads the items of an array that is not empty, through its closing bracket. -/
def parseItems : Nat → List Char → Option (List Json × List Char)
  | 0, _ => none
  | fuel + 1, s =>
    match parseValue fuel s with
    | none => none
    | some (v, r) =>
      match skipSpace r with
      | ',' :: r => (parseItems fuel r).map fun p => (v :: p.1, p.2)
      | ']' :: r => some ([v], r)
      | _ => none

/-- Reads the members of an object that is not empty, through its closing brace. -/
def parseMembers : Nat → List Char → Option (List (Option String × Json) × List Char)
  | 0, _ => none
  | fuel + 1, s =>
    match skipSpace s with
    | '"' :: r =>
      match readString r with
      | none => none
      | some (name, r) =>
        match skipSpace r with
        | ':' :: r =>
          match parseValue fuel r with
          | none => none
          | some (v, r) =>
            match skipSpace r with
            | ',' :: r => (parseMembers fuel r).map fun p => ((name, v) :: p.1, p.2)
            | '\x7d' :: r => some ([(name, v)], r)
            | _ => none
        | _ => none
    | _ => none

end

/-- Fuel that no text of the given length exhausts: a level of nesting, an item or a member
    takes at least one character. -/
def fuelFor (s : List Char) : Nat := 2 * s.length + 2

/-- Reads a whole text, which holds exactly one value. -/
def parse (text : String) : Option Json :=
  let s := text.toList
  match parseValue (fuelFor s) s with
  | some (v, r) => if (skipSpace r).isEmpty then some v else none
  | none => none

end TxLoad.Json
