import TxLoad.Text.Numeral
import TxLoad.Yaml.Fault

namespace TxLoad.Yaml

/-!
# Tags and directives

A tag names the type of a value. It is written whole between angle brackets, or as a *handle*, which
stands for the start of the name, and the rest. Directives before a document say what the handles
stand for, and to which version of the language the document keeps.

* `uriFrom` reads the characters of a name, octets by their numbers included;
* `TagWord.read` takes a written tag apart, and `TagWord.resolve?` makes a name of it;
* `Directive.read` reads a directive, `Directives.add` collects them.
-/

/-- The name of a type, as octets. -/
abbrev Tag := List UInt8

def Tag.ofString (s : String) : Tag := s.toUTF8.toList

/-- The start of the names of the standard types. -/
def standardStart : Tag := Tag.ofString "tag:yaml.org,2002:"

/-- The tag of a standard type. -/
def Tag.standard (type : String) : Tag := standardStart ++ Tag.ofString type

/-- The name of a type of the document's own, which starts with an exclamation mark; the mark alone
    is a name as well. -/
def Tag.localName? : Tag → Option String
  | [] => none
  | mark :: name =>
    if mark = 0x21 then
      String.fromUTF8? (ByteArray.mk (if name.isEmpty then [mark] else name).toArray)
    else none

/-! ### Names -/

/-- The characters of a name; where it is delimited, also those with a meaning in flow style. -/
def isUriChar (delimited : Bool) (c : Char) : Bool :=
  isNameChar c || ";/?:@&=+$.!~*'()".toList.contains c || (delimited && ",[]".toList.contains c)

/-- The number of octets of a character that starts with the given one. -/
def octetsOf? (n : Nat) : Option Nat :=
  if n < 0x80 then some 1
  else if 0xC0 ≤ n ∧ n < 0xE0 then some 2
  else if 0xE0 ≤ n ∧ n < 0xF0 then some 3
  else if 0xF0 ≤ n ∧ n < 0xF8 then some 4
  else none

/-- How many octets of the character follow one of the given value, of which `left` were to
    follow before it. -/
def octetsAfter (left n : Nat) : Except Problem Nat :=
  match left, octetsOf? n with
  | 0, some count => .ok (count - 1)
  | 0, none => .error .badFirstOctet
  | left + 1, _ => if 0x80 ≤ n ∧ n < 0xC0 then .ok left else .error .badLaterOctet

/-- The octets of a name at the start of a text, and the place behind it. A percent sign and two
    digits give an octet, and the `left` next ones must be the rest of a character. -/
def uriFrom (reading : Reading) (delimited : Bool) :
    (left : Nat) → Position → List Char → Except Flaw (List UInt8 × Cursor)
  | left, p, '%' :: a :: b :: r =>
    match Text.readDigits 16 [a, b] with
    | none => .error ⟨reading, .noOctet, p⟩
    | some n =>
      match octetsAfter left n with
      | .error problem => .error ⟨reading, problem, p⟩
      | .ok left =>
        (uriFrom reading delimited left (p.skip 3) r).map fun u => (UInt8.ofNat n :: u.1, u.2)
  | 0, p, [] => .ok ([], ⟨p, []⟩)
  | 0, p, c :: r =>
    if c = '%' then .error ⟨reading, .noOctet, p⟩
    else if isUriChar delimited c then
      (uriFrom reading delimited 0 (p.next c) r).map fun u => (UInt8.ofNat c.toNat :: u.1, u.2)
    else .ok ([], ⟨p, c :: r⟩)
  | _ + 1, p, _ => .error ⟨reading, .noOctet, p⟩

/-- The octets of a name at a place, and the place behind it. -/
def uri (reading : Reading) (delimited : Bool) (c : Cursor) : Except Flaw (List UInt8 × Cursor) :=
  uriFrom reading delimited 0 c.position c.rest

/-- A name up to its first zero octet, which ends it. -/
def untilZero (name : Tag) : Tag := name.takeWhile (· != 0)

/-- A name that must not be missing. -/
def someName (reading : Reading) (delimited : Bool) (c : Cursor) : Except Flaw (Tag × Cursor) := do
  let (name, rest) ← uri reading delimited c
  if name.isEmpty then throw ⟨reading, .noTagName, rest.position⟩
  else return (untilZero name, rest)

/-! ### Written tags -/

/-- A tag as it is written. Without a handle, the rest is the whole name. -/
structure TagWord where
  handle : Option String
  rest : Tag
  deriving DecidableEq, Repr

/-- A handle with both of its exclamation marks at a place, and the place behind it. -/
def handle? (c : Cursor) : Option (String × Cursor) :=
  let (name, behind) := (c.skip 1).span isNameChar
  if c.rest.head? = some '!' ∧ behind.rest.head? = some '!' then
    some (String.ofList ('!' :: name ++ ['!']), behind.skip 1)
  else none

/-- Reads a tag at its exclamation mark, and the place behind it. -/
def TagWord.read (c : Cursor) : Except Flaw (TagWord × Cursor) :=
  if (c.rest.drop 1).head? = some '<' then do
    let (name, c) ← someName .tagName true (c.skip 2)
    if c.rest.head? = some '>' then return (⟨none, name⟩, c.skip 1)
    else throw ⟨.tag, .noClosingBracket, c.position⟩
  else
    match handle? c with
    | some (handle, c) => do
      let (name, c) ← someName .tagName false c
      return (⟨some handle, name⟩, c)
    | none => do
      let (name, c) ← uri .tagName false (c.skip 1)
      let name := untilZero name
      -- An exclamation mark alone is a name of its own.
      return (if name.isEmpty then ⟨none, Tag.ofString "!"⟩ else ⟨some "!", name⟩, c)

/-- What the handles of a document stand for. -/
abbrev Handles := List (String × Tag)

/-- What handles stand for unless a directive says otherwise. -/
def Handles.defaults : Handles := [("!", Tag.ofString "!"), ("!!", standardStart)]

/-- The name that a written tag stands for; its handle must be known. -/
def TagWord.resolve? (handles : Handles) (w : TagWord) : Option Tag :=
  match w.handle with
  | none => some w.rest
  | some handle => (handles.lookup handle).map (· ++ w.rest)

/-! ### Directives -/

inductive Directive where
  | version (major minor : Nat)
  | handle (name : String) (meaning : Tag)
  deriving DecidableEq, Repr

/-- The most digits of a version number. -/
def maxVersionDigits : Nat := 9

/-- Reads a version number. -/
def versionNumber (c : Cursor) : Except Flaw (Nat × Cursor) :=
  let (digits, behind) := c.span Char.isDigit
  if maxVersionDigits < digits.length then
    .error ⟨.versionDirective, .longVersion, (c.skip maxVersionDigits).position⟩
  else
    match Text.readDigits 10 digits with
    | some n => .ok (n, behind)
    | none => .error ⟨.versionDirective, .noVersion, c.position⟩

/-- Reads a version: two numbers with a point between them. -/
def Directive.readVersion (c : Cursor) : Except Flaw (Directive × Cursor) := do
  let (major, c) ← versionNumber c
  if c.rest.head? ≠ some '.' then throw ⟨.versionDirective, .noVersionPoint, c.position⟩
  else
    let (minor, c) ← versionNumber (c.skip 1)
    return (.version major minor, c)

/-- Reads the handle that a directive gives a meaning: one with both exclamation marks, or an
    exclamation mark alone. -/
def Directive.readHandle (c : Cursor) : Except Flaw (String × Cursor) :=
  if c.rest.head? ≠ some '!' then .error ⟨.directive, .noExclamationMark, c.position⟩
  else
    match handle? c with
    | some found => .ok found
    | none =>
      let (name, c) := (c.skip 1).span isNameChar
      if name.isEmpty then .ok ("!", c)
      else .error ⟨.directiveHandle, .noExclamationMark, c.position⟩

/-- Reads a handle and its meaning. -/
def Directive.readMeaning (c : Cursor) : Except Flaw (Directive × Cursor) := do
  let (name, c) ← readHandle c
  if !c.rest.head?.any isBlank then throw ⟨.tagDirective, .noBlank, c.position⟩
  else
    let (meaning, c) ← someName .tagDirectiveName true c.skipBlanks
    if atGap c.rest then return (.handle name meaning, c)
    else throw ⟨.tagDirective, .noGap, c.position⟩

/-- Reads a directive behind its percent sign, through the end of its line. -/
def Directive.read (c : Cursor) : Except Flaw (Directive × Cursor) := do
  let (name, c) := c.span isNameChar
  if name.isEmpty then throw ⟨.directive, .noDirectiveName, c.position⟩
  else if !atGap c.rest then throw ⟨.directive, .badDirectiveName, c.position⟩
  else
    let (directive, c) ←
      if name = "YAML".toList then readVersion c.skipBlanks
      else if name = "TAG".toList then readMeaning c.skipBlanks
      else throw ⟨.directive, .unknownDirective, c.position⟩
    match c.endLine? with
    | some c => return (directive, c)
    | none => throw ⟨.directive, .noLineEnd, c.skipBlanks.position⟩

/-- The directives of a document. -/
structure Directives where
  hasVersion : Bool := false
  handles : Handles := []

/-- One more directive: there is at most one version, which must be known, and one meaning of each
    handle. -/
def Directives.add (d : Directives) : Directive → Except Problem Directives
  | .version major minor =>
    if d.hasVersion then .error .secondVersion
    else if major != 1 || (minor != 1 && minor != 2) then .error .unknownVersion
    else .ok { d with hasVersion := true }
  | .handle name meaning =>
    if (d.handles.lookup name).isSome then .error .secondHandle
    else .ok { d with handles := d.handles ++ [(name, meaning)] }

/-- What handles stand for after the directives. -/
def Directives.meanings (d : Directives) : Handles := d.handles ++ Handles.defaults

/-- The default handles are known. -/
theorem resolve?_defaults (rest : Tag) :
    TagWord.resolve? ({} : Directives).meanings ⟨some "!", rest⟩ =
      some (Tag.ofString "!" ++ rest) := rfl

end TxLoad.Yaml
