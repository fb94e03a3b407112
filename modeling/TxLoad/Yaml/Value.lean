import TxLoad.Decimal.Read
import TxLoad.Decimal.Shortest
import TxLoad.Yaml.Document

namespace TxLoad.Yaml

/-!
# Values of a document

A scalar has no type of its own: the reader of a field decides what it accepts. A number or a truth
value must be plain, a text may be any scalar, and nothing at all is an empty plain scalar.

* `Event.mismatch` says what a value is where another one is expected;
* `word`, `text` and their like read a single value;
* `record` reads a record of named fields, and `readDocument` a whole text.
-/

/-! ### Plain scalars -/

/-- The words for null. -/
def isNullWord (s : String) : Bool := ["~", "null", "Null", "NULL"].contains s

/-- Whether a plain scalar is nothing or a word for null. -/
def isNullText (s : String) : Bool := s.isEmpty || isNullWord s

/-- Reads a truth value. -/
def boolOfText? (s : String) : Option Bool :=
  if ["true", "True", "TRUE"].contains s then some true
  else if ["false", "False", "FALSE"].contains s then some false
  else none

/-- Whether digits start with a zero although there are several, which makes them a text. -/
def hasLeadingZero (digits : List Char) : Bool :=
  digits.head? == some '0' && 1 < digits.length && digits.all Char.isDigit

/-- Reads decimal digits without a leading zero, or digits after `0x`, `0o` or `0b`. -/
def natOfDigits? : List Char → Option Nat
  | '0' :: 'x' :: r => Text.readDigits 16 r
  | '0' :: 'o' :: r => Text.readDigits 8 r
  | '0' :: 'b' :: r => Text.readDigits 2 r
  | digits => if hasLeadingZero digits then none else Text.readDigits 10 digits

/-- Reads a natural number, perhaps after a plus sign. -/
def natOfText? (s : String) : Option Nat :=
  match s.toList with
  | '+' :: r => natOfDigits? r
  | r => natOfDigits? r

/-- Reads an integer: a natural number, or one after a minus sign. -/
def intOfText? (s : String) : Option Int :=
  match s.toList with
  | '-' :: r => (natOfDigits? r).map fun n => -(n : Int)
  | _ => (natOfText? s).map fun n => (n : Int)

/-- Reads a natural number as a 64-bit word. -/
def wordOfText? (s : String) : Option UInt64 :=
  (natOfText? s).bind fun n => if n ≤ Text.wordMax then some (UInt64.ofNat n) else none

/-! ### What a value is -/

/-- An integer of at most 128 bits; beyond 64 bits its width is told. -/
def describeInt? (n : Int) : Option String :=
  let sign := if n < 0 then "-" else ""
  let digits := "integer \x60" ++ sign ++ Text.decimal n.natAbs ++ "\x60"
  if -(Nat.pow 2 63 : Nat) ≤ n ∧ n < (Nat.pow 2 64 : Nat) then some digits
  else if 0 ≤ n ∧ n < (Nat.pow 2 128 : Nat) then some (digits ++ " as u128")
  else if -(Nat.pow 2 127 : Nat) ≤ n ∧ n < 0 then some (digits ++ " as i128")
  else none

/-- A finite number as its shortest digits, with a point. -/
def pointedText? (x : Float) : Option String :=
  match Decimal.Binary64.ofFloat x with
  | .finite .. =>
    let digits := Decimal.display x
    some (if digits.toList.contains '.' then digits else digits ++ ".0")
  | _ => none

/-- A plain scalar that is a number with a fraction or an exponent, or a word for a limit. -/
def floatText? (s : String) : Option String :=
  let unsigned := match s.toList with
    | '+' :: r => if r.head?.any "+-".toList.contains then none else some r
    | r => some r
  unsigned.bind fun digits =>
    if [".inf", ".Inf", ".INF"].contains (String.ofList digits) then some "inf"
    else if ["-.inf", "-.Inf", "-.INF"].contains s then some "-inf"
    else if [".nan", ".NaN", ".NAN"].contains s then some "NaN"
    else (Decimal.read digits).bind pointedText?

/-- A truth value as such. -/
def describeBool (b : Bool) : String :=
  if b then "boolean \x60true\x60" else "boolean \x60false\x60"

/-- Nothing or null as such. -/
def describeNull : String := "unit value"

/-- A number with a fraction or an exponent as such. -/
def describeFloat (digits : String) : String := "floating point \x60" ++ digits ++ "\x60"

/-- A text as such. -/
def describeText (s : String) : String := "string " ++ Text.quoted s

/-- Whether a text is digits with a leading zero, perhaps after a sign. -/
def isPaddedNumber (s : String) : Bool :=
  match s.toList with
  | '+' :: r => hasLeadingZero r
  | '-' :: r => hasLeadingZero r
  | r => hasLeadingZero r

/-- What a plain scalar is, as far as its text tells. -/
def describePlain (s : String) : String :=
  if isNullText s then describeNull
  else
    let number := (intOfText? s).bind describeInt?
    let float := if isPaddedNumber s then none else (floatText? s).map describeFloat
    ((boolOfText? s).map describeBool).or (number.or float) |>.getD (describeText s)

/-- The standard types, by the names in their tags: what a text of the type is, and what is
    expected of it. -/
def standardTypes : List (String × (String → Option String) × String) :=
  [("bool", fun s => (boolOfText? s).map describeBool, "a boolean"),
   ("int", fun s => (intOfText? s).bind describeInt?, "an integer"),
   ("float", fun s => (floatText? s).map describeFloat, "a float"),
   ("null", fun s => if isNullWord s then some describeNull else none, "null")]

/-- What is wrong with a scalar where something else is expected. -/
def scalarMismatch (style : Style) (tag : Option Tag) (s expected : String) : Mismatch :=
  match standardTypes.find? fun t => tag = some (Tag.standard t.1) with
  | some (_, describe?, name) =>
    match describe? s with
    | some found => .type found expected
    | none => .value s name
  | none =>
    -- A tag of the document's own does not make a text of a plain scalar.
    let own := tag.all fun t => t.head? = some 0x21
    .type (if style = .plain ∧ own = true then describePlain s else describeText s) expected

/-- What is wrong with a value where something else is expected. -/
def Event.mismatch (expected : String) : Event → Mismatch
  | .scalar style tag s => scalarMismatch style tag s expected
  | .sequenceStart _ => .type "sequence" expected
  | .mappingStart _ => .type "map" expected
  -- No value starts like this.
  | _ => .type "nothing" expected

/-- The fault of a value that stands in the given field. -/
def Placed.unsuited (e : Placed) (path expected : String) : Fault :=
  .unsuited (e.event.mismatch expected) (some (path, e.position))

/-! ### Single values -/

/-- Reads the value of a field of the given path at the start of some events. -/
abbrev ValueReader (α : Type) := Document → (path : String) → List Placed → Except Fault α

/-- A text of any style. -/
def text (expected : String) : ValueReader String := fun d path events => do
  let (e, _) ← d.value events
  match e.event with
  | .scalar _ _ s => return s
  | _ => throw (e.unsuited path expected)

/-- The text of a plain scalar, or of a literal one with the tag of the given type. -/
def Event.plainText? (type : String) : Event → Option String
  | .scalar .plain _ s => some s
  | .scalar .literal tag s => if tag = some (Tag.standard type) then some s else none
  | _ => none

/-- A plain 64-bit word. -/
def word (expected : String) : ValueReader UInt64 := fun d path events => do
  let (e, _) ← d.value events
  match (e.event.plainText? "int").bind wordOfText? with
  | some n => return n
  | none => throw (e.unsuited path expected)

/-- A plain truth value. -/
def bool : ValueReader Bool := fun d path events => do
  let (e, _) ← d.value events
  match (e.event.plainText? "bool").bind boolOfText? with
  | some b => return b
  | none => throw (e.unsuited path "a boolean")

/-- Whether a value is null: a plain scalar that is nothing or a word for null. With a tag it must
    be the tag of null and such a word. -/
def Event.isNull : Event → Except Mismatch Bool
  | .scalar .plain none s => .ok (isNullText s)
  | .scalar .plain (some tag) s =>
    if tag ≠ Tag.standard "null" then .ok false
    else if isNullWord s then .ok true
    else .error (.value s "null")
  | _ => .ok false

/-- A value that may be null. -/
def nullable (read : ValueReader α) : ValueReader (Option α) := fun d path events => do
  let (e, _) ← d.value events
  match e.event.isNull with
  | .ok true => return none
  | .ok false => return some (← read d path events)
  | .error mismatch => throw (.unsuited mismatch none)

/-- The tag of a value. -/
def Event.tag? : Event → Option Tag
  | .scalar _ tag _ => tag
  | .sequenceStart tag => tag
  | .mappingStart tag => tag
  | _ => none

/-- Where the reference stands that some events start with, if they do. -/
def referencePlace? (path : String) : List Placed → Option (String × Position)
  | ⟨.reference _, p, _⟩ :: _ => some (path, p)
  | _ => none

/-- A variant without content: a tag of the document's own before nothing or null, or else a text.
    The name must be a known one. -/
def variant (names : List String) : ValueReader String := fun d path events => do
  let (e, _) ← d.value events
  let here := some (path, e.position)
  match e.event.tag?.bind Tag.localName?, e.event with
  | some name, event =>
    if !names.contains name then
      throw (.unsuited (.unknownVariant name names) (referencePlace? path events))
    else
      match event with
      | .scalar style _ s =>
        if style = .plain ∧ isNullText s = true then return name
        else throw (.unsuited (.value s "null") here)
      | _ => throw (e.unsuited path "unit")
  | none, .scalar _ _ s =>
    if names.contains s then return s
    else throw (.unsuited (.unknownVariant s names) here)
  | none, _ => throw (e.unsuited path "a YAML tag starting with '!'")

/-! ### Collections -/

/-- The texts of a sequence, of which so many have been read. -/
def itemsFrom (d : Document) (path : String) : (index : Nat) → List Placed →
    Except Fault (List String)
  | _, [] => .error d.ending
  | index, e :: r => do
    if e.event = .sequenceEnd then return []
    else
      let s ← text "a string" d (path ++ "[" ++ Text.decimal index ++ "]") (e :: r)
      return s :: (← itemsFrom d path (index + 1) r)

/-- Whether a value is nothing. -/
def Event.isEmpty : Event → Bool
  | .scalar .plain _ s => s.isEmpty
  | _ => false

/-- A sequence of texts. -/
def texts : ValueReader (List String) := fun d path events => do
  let (e, r) ← d.value events
  match e.event with
  | .sequenceStart _ => itemsFrom d path 0 r
  | event => if event.isEmpty then return [] else throw (e.unsuited path "a sequence")

/-- The fields of a mapping whose keys are texts, read one after the other into a record. Unknown
    keys are skipped, and none may be given twice. An entry has two events at least. -/
def fieldsFrom (d : Document) (names : List String)
    (read : String → List Placed → α → Except Fault α) :
    (fuel : Nat) → (seen : List String) → α → List Placed → Except Fault α
  | 0, _, _, _ => .error d.ending
  | _, _, _, [] => .error d.ending
  | fuel + 1, seen, a, e :: r => do
    if e.event = .mappingEnd then return a
    else
      let key ← text "field identifier" d "" (e :: r)
      if !names.contains key then fieldsFrom d names read fuel seen a (← d.skip 0 r)
      else if seen.contains key then throw (.unsuited (.duplicateField key) none)
      else
        let a ← read key r a
        fieldsFrom d names read fuel (key :: seen) a (← d.skip 0 r)

/-- Reads a document as a record with the given fields: a mapping, or nothing at all, which leaves
    the record as it is. -/
def record (expected : String) (names : List String)
    (read : Document → String → List Placed → α → Except Fault α) (a : α) (d : Document) :
    Except Fault α := do
  match d.events with
  | [] => if d.fault.isNone then return a else throw d.ending
  | e :: r =>
    let result := match e.event with
      | .mappingStart _ => fieldsFrom d names (read d) (r.length + 1) [] a r
      | event => if event.isEmpty then .ok a else .error (e.unsuited "" expected)
    result.mapError fun fault => fault.within "" e.position

/-- What a text holds as its only document, read by the given reader. What does not suit is found
    before what is wrong behind it, and that before a further document. -/
def readDocument (read : Document → Except Fault α) (s : String) : Except Fault α := do
  let d := Document.read s
  let a ← read d
  match d.fault with
  | some fault => throw fault
  | none => if d.continues then throw .severalDocuments else return a

/-! ### Nothing at all -/

/-- A record of a document without events has its defaults. -/
theorem record_empty (expected : String) (names : List String)
    (read : Document → String → List Placed → α → Except Fault α) (a : α) :
    record expected names read a {} = .ok a := rfl

end TxLoad.Yaml
