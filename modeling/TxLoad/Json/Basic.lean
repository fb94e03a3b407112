namespace TxLoad

/-!
# JSON values

`Json` is a JSON text's value. Two properties of texts survive in it: members stay in the order
written, duplicates included, and a piece that is written correctly but has no value (a number
beyond the range of a double, half a surrogate pair) is kept as `flawed`, because a reader that
skips such a piece must not fail on it.

* `Json.depth` and `Json.isSound` are what a reader that keeps everything asks of a value;
* `Json.record?` reads a record of named fields, from an object or from an array of the fields
  in their order;
* `Json.word?`, `Json.string?` and their like read a single field without any coercion.
-/

/-- A number: a 64-bit word, the negative of a positive number, or a double. -/
inductive Json.Number where
  | word (n : UInt64)
  | negative (n : Nat)
  | real (x : Float)
  deriving Repr, Inhabited

inductive Json where
  | null
  | bool (b : Bool)
  | number (n : Json.Number)
  | string (s : String)
  | array (items : List Json)
  | object (members : List (String × Json))
  | flawed
  deriving Repr, Inhabited

namespace Json

/-! ### Shape -/

mutual

/-- How deeply arrays and objects are nested. -/
def depth : Json → Nat
  | array items => depthItems items + 1
  | object members => depthMembers members + 1
  | _ => 0

def depthItems : List Json → Nat
  | [] => 0
  | v :: r => max v.depth (depthItems r)

def depthMembers : List (String × Json) → Nat
  | [] => 0
  | (_, v) :: r => max v.depth (depthMembers r)

end

mutual

/-- Whether every piece of a value has a value. -/
def isSound : Json → Bool
  | array items => isSoundItems items
  | object members => isSoundMembers members
  | flawed => false
  | _ => true

def isSoundItems : List Json → Bool
  | [] => true
  | v :: r => v.isSound && isSoundItems r

def isSoundMembers : List (String × Json) → Bool
  | [] => true
  | (_, v) :: r => v.isSound && isSoundMembers r

end

/-- The deepest nesting that is read. -/
def maxDepth : Nat := 127

/-- Whether a value may be kept as a whole. -/
def isAdmissible (v : Json) : Bool := v.isSound && v.depth ≤ maxDepth

/-! ### Members and records -/

/-- The values of all members of the given name, in order. -/
def valuesOf (name : String) (members : List (String × Json)) : List Json :=
  members.filterMap fun m => if m.1 = name then some m.2 else none

/-- The last member of the given name of an object. -/
def member? (name : String) : Json → Option Json
  | object members => (valuesOf name members).getLast?
  | _ => none

/-- The fields of a record: whether they were given by position, and each field's value, if it
    has one. -/
structure Record where
  positional : Bool
  values : List (Option Json)

/-- The single value of a field of an object; a field given twice is a fault. -/
def field? (members : List (String × Json)) (name : String) : Option (Option Json) :=
  match valuesOf name members with
  | [] => some none
  | [v] => some (some v)
  | _ => none

/-- Reads a record with the given fields: an object, where unknown members are skipped, or an
    array with the fields in order, where fields at the end may be missing. -/
def record? (names : List String) : Json → Option Record
  | object members => (names.mapM (field? members)).map fun values => ⟨false, values⟩
  | array items =>
    if items.length ≤ names.length then
      some ⟨true, items.map some ++ List.replicate (names.length - items.length) none⟩
    else none
  | _ => none

/-! ### Single fields -/

def word? : Json → Option UInt64
  | number (.word n) => some n
  | _ => none

def bool? : Json → Option Bool
  | bool b => some b
  | _ => none

def string? : Json → Option String
  | string s => some s
  | _ => none

/-- A field that may be null. -/
def nullable? (read : Json → Option α) : Json → Option (Option α)
  | null => some none
  | v => (read v).map some

def strings? : Json → Option (List String)
  | array items => items.mapM string?
  | _ => none

/-- The name of a variant without content: the name itself or an object whose only member is the
    name with null. Inside a value that was kept as a whole, an empty object stands for null. -/
def variant? (emptyIsNull : Bool) : Json → Option String
  | string s => some s
  | object [(name, null)] => some name
  | object [(name, object [])] => if emptyIsNull then some name else none
  | _ => none

/-- A field with a default: the default if it is absent, otherwise its value. -/
def orDefault (read : Json → Option α) (default : α) : Option Json → Option α
  | none => some default
  | some v => read v

end Json

end TxLoad
