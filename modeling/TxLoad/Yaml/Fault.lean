import TxLoad.Text.Quoted
import TxLoad.Yaml.Cursor

namespace TxLoad.Yaml

/-!
# What can be wrong with a document

A document that cannot be read is refused for one cause: the first on its way from the characters
through the structure to the values.

* `Problem` is what was found, `Reading` what was being read when it was found;
* `Flaw` is a problem in what is being read, wherever that started;
* `Mismatch` is a value that does not suit its field;
* `Fault` is the cause, and `Fault.text` its wording.

A fault tells its place by line and column, but for the very start of a document.
-/

/-! ### Problems of the structure -/

/-- What is found to be wrong. -/
inductive Problem where
  | noToken
  | noColon
  | strayItem
  | strayKey
  | strayValue
  | noDirectiveName
  | badDirectiveName
  | unknownDirective
  | noVersion
  | longVersion
  | noVersionPoint
  | noBlank
  | noGap
  | noLineEnd
  | noExclamationMark
  | noClosingBracket
  | noTagName
  | noOctet
  | badFirstOctet
  | badLaterOctet
  | noName
  | zeroIndent
  | tabInBlock
  | tabInPlain
  | looseColon
  | markerInQuotes
  | openQuotes
  | unknownEscape
  | noNumber
  | noCharacter
  | secondVersion
  | unknownVersion
  | secondHandle
  | unknownHandle
  | noDocumentStart
  | noContent
  | noItem
  | noKey
  | openSequence
  | openMapping
  deriving DecidableEq, Repr

/-- The wording of a problem. -/
def Problem.text : Problem → String
  | noToken => "found character that cannot start any token"
  | noColon => "could not find expected ':'"
  | strayItem => "block sequence entries are not allowed in this context"
  | strayKey => "mapping keys are not allowed in this context"
  | strayValue => "mapping values are not allowed in this context"
  | noDirectiveName => "could not find expected directive name"
  | badDirectiveName => "found unexpected non-alphabetical character"
  | unknownDirective => "found unknown directive name"
  | noVersion => "did not find expected version number"
  | longVersion => "found extremely long version number"
  | noVersionPoint => "did not find expected digit or '.' character"
  | noBlank => "did not find expected whitespace"
  | noGap => "did not find expected whitespace or line break"
  | noLineEnd => "did not find expected comment or line break"
  | noExclamationMark => "did not find expected '!'"
  | noClosingBracket => "did not find expected '>'"
  | noTagName => "did not find expected tag URI"
  | noOctet => "did not find URI escaped octet"
  | badFirstOctet => "found an incorrect leading UTF-8 octet"
  | badLaterOctet => "found an incorrect trailing UTF-8 octet"
  | noName => "did not find expected alphabetic or numeric character"
  | zeroIndent => "found an indentation indicator equal to 0"
  | tabInBlock => "found a tab character where an indentation space is expected"
  | tabInPlain => "found a tab character that violates indentation"
  | looseColon => "found unexpected ':'"
  | markerInQuotes => "found unexpected document indicator"
  | openQuotes => "found unexpected end of stream"
  | unknownEscape => "found unknown escape character"
  | noNumber => "did not find expected hexdecimal number"
  | noCharacter => "found invalid Unicode character escape code"
  | secondVersion => "found duplicate %YAML directive"
  | unknownVersion => "found incompatible YAML document"
  | secondHandle => "found duplicate %TAG directive"
  | unknownHandle => "found undefined tag handle"
  | noDocumentStart => "did not find expected <document start>"
  | noContent => "did not find expected node content"
  | noItem => "did not find expected '-' indicator"
  | noKey => "did not find expected key"
  | openSequence => "did not find expected ',' or ']'"
  | openMapping => "did not find expected ',' or '\x7d'"

/-- What was being read when a problem was found. -/
inductive Reading where
  | token
  | simpleKey
  | directive
  | directiveHandle
  | versionDirective
  | tagDirective
  | tagDirectiveName
  | tag
  | tagName
  | anchor
  | reference
  | plainScalar
  | quotedScalar
  | escape
  | blockScalar
  | node
  | blockNode
  | flowNode
  | blockSequence
  | blockMapping
  | flowSequence
  | flowMapping
  deriving DecidableEq, Repr

/-- The wording of what was being read. -/
def Reading.text : Reading → String
  | token => "while scanning for the next token"
  | simpleKey => "while scanning a simple key"
  | directive => "while scanning a directive"
  | directiveHandle => "while parsing a directive"
  | versionDirective => "while scanning a %YAML directive"
  | tagDirective => "while scanning a %TAG directive"
  | tagDirectiveName => "while parsing a %TAG directive"
  | tag => "while scanning a tag"
  | tagName => "while parsing a tag"
  | anchor => "while scanning an anchor"
  | reference => "while scanning an alias"
  | plainScalar => "while scanning a plain scalar"
  | quotedScalar => "while scanning a quoted scalar"
  | escape => "while parsing a quoted scalar"
  | blockScalar => "while scanning a block scalar"
  | node => "while parsing a node"
  | blockNode => "while parsing a block node"
  | flowNode => "while parsing a flow node"
  | blockSequence => "while parsing a block collection"
  | blockMapping => "while parsing a block mapping"
  | flowSequence => "while parsing a flow sequence"
  | flowMapping => "while parsing a flow mapping"

/-- A problem at a position, in what is being read. -/
structure Flaw where
  reading : Reading
  problem : Problem
  position : Position
  deriving DecidableEq, Repr

/-! ### Values that do not suit -/

inductive Mismatch where
  /-- A value of one type where one of another type is expected. -/
  | type (found expected : String)
  /-- A text that is no value of the type that its tag names. -/
  | value (text expected : String)
  | unknownVariant (name : String) (names : List String)
  | duplicateField (name : String)
  deriving DecidableEq, Repr

/-- The wording of a mismatch. -/
def Mismatch.text : Mismatch → String
  | type found expected => "invalid type: " ++ found ++ ", expected " ++ expected
  | value text expected =>
    "invalid value: string " ++ Text.quoted text ++ ", expected " ++ expected
  | unknownVariant name names =>
    "unknown variant \x60" ++ name ++ "\x60, expected one of " ++
      ", ".intercalate (names.map fun n => "\x60" ++ n ++ "\x60")
  | duplicateField name => "duplicate field \x60" ++ name ++ "\x60"

/-! ### Faults -/

/-- Why a document cannot be read. -/
inductive Fault where
  /-- A character that no document may hold, behind so many octets. -/
  | control (offset : Nat)
  /-- A problem of the structure, and perhaps what was being read and where that started. -/
  | malformed (problem : Problem) (position : Position) (reading : Option (Reading × Position))
  /-- A reference to a value that does not stand before it. -/
  | unknownAnchor (position : Position)
  /-- Nothing is left where a value is expected. -/
  | incomplete
  | severalDocuments
  /-- A value that does not suit, and perhaps the field that it belongs to and where it stands. -/
  | unsuited (mismatch : Mismatch) (place : Option (String × Position))
  deriving DecidableEq, Repr

/-- The fault of a flaw in what started at a position. -/
def Flaw.since (f : Flaw) (start : Position) : Fault :=
  .malformed f.problem f.position (some (f.reading, start))

/-- A position as the end of a sentence; the very start of a document is not told. -/
def Position.text (p : Position) : String :=
  if p.line = 0 ∧ p.column = 0 then ""
  else " at line " ++ Text.decimal (p.line + 1) ++ " column " ++ Text.decimal (p.column + 1)

/-- Whether two positions are the same place of a text. -/
def Position.isAt (p q : Position) : Bool := p.line == q.line && p.column == q.column

/-- The wording of a fault. -/
def Fault.text : Fault → String
  | control offset =>
    let place := if offset = 0 then "" else " at position " ++ Text.decimal offset
    "control characters are not allowed" ++ place
  | malformed problem position none => problem.text ++ position.text
  | malformed problem position (some (reading, start)) =>
    let since := if start.isAt position then "" else start.text
    problem.text ++ position.text ++ ", " ++ reading.text ++ since
  | unknownAnchor position => "unknown anchor" ++ position.text
  | incomplete => "EOF while parsing a value"
  | severalDocuments =>
    "deserializing from YAML containing more than one document is not supported"
  | unsuited mismatch none => mismatch.text
  | unsuited mismatch (some (path, position)) =>
    let field := if path.isEmpty then "" else path ++ ": "
    field ++ mismatch.text ++ position.text

/-- A fault of a value that has no place yet is told to be at the given one. -/
def Fault.within (f : Fault) (path : String) (position : Position) : Fault :=
  match f with
  | unsuited mismatch none => unsuited mismatch (some (path, position))
  | f => f

/-- A fault is given a place once. -/
theorem Fault.within_within (f : Fault) (path outer : String) (p q : Position) :
    (f.within path p).within outer q = f.within path p := by
  cases f with
  | unsuited mismatch place => cases place <;> rfl
  | _ => rfl

end TxLoad.Yaml
