import TxLoad.Text.Numeral
import TxLoad.Yaml.Fault

namespace TxLoad.Yaml

/-!
# Block scalars

A block scalar is the text that is indented below its header. The header says whether lines are
kept or joined, what becomes of the line ends behind the text, and perhaps how far it is indented.

* `BlockHeader.read` reads a header;
* `blockIndent` finds the indentation where the header does not give it;
* `blockText` reads the text, and `blockScalar` all of it.
-/

/-- What becomes of the line ends behind a text: none is kept, or the first one, or all. -/
inductive Chomping where
  | strip
  | clip
  | keep
  deriving DecidableEq, Repr

/-- What the header of a block scalar says. -/
structure BlockHeader where
  chomping : Chomping := .clip
  /-- By how much the text is indented, if that is said. -/
  indent : Option Nat := none
  deriving DecidableEq, Repr

def Chomping.ofChar? : Char → Option Chomping
  | '+' => some .keep
  | '-' => some .strip
  | _ => none

/-- Reads a sign, if one comes next. -/
def BlockHeader.sign (c : Cursor) : Option Chomping × Cursor :=
  match c.rest.head?.bind Chomping.ofChar? with
  | some chomping => (some chomping, c.skip 1)
  | none => (none, c)

/-- Reads a digit, if one comes next. A zero is not an indentation. -/
def BlockHeader.digit (c : Cursor) : Except Flaw (Option Nat × Cursor) :=
  match c.rest.head?.bind (Text.digitValue? 10) with
  | some 0 => .error ⟨.blockScalar, .zeroIndent, c.position⟩
  | some n => .ok (some n, c.skip 1)
  | none => .ok (none, c)

/-- Reads a header behind its first character: a sign and a digit in either order, each of which
    may be missing, and nothing else on the line. -/
def BlockHeader.read (c : Cursor) : Except Flaw (BlockHeader × Cursor) := do
  let (first, c) := sign c
  let (indent, c) ← digit c
  -- Behind a digit there may be a sign if none was before it.
  let (second, c) := if first.isNone && indent.isSome then sign c else (none, c)
  match c.endLine? with
  | some c => return ({ chomping := (first.or second).getD .clip, indent }, c)
  | none => throw ⟨.blockScalar, .noLineEnd, c.skipBlanks.position⟩

/-- The indentation of a text: that of its first line, or of an empty line before it that is
    longer, but at least `least`. A tab must not stand in it. -/
def blockIndent (least : Nat) : Position → List Char → Except Flaw Nat
  | p, [] => .ok (max least p.column)
  | p, c :: r =>
    if c = ' ' then blockIndent least (p.next c) r
    else if c = '\t' then .error ⟨.blockScalar, .tabInBlock, p⟩
    else if isBreak c then blockIndent (max least p.column) (p.next c) r
    else .ok (max least p.column)

/-- Where the reading of a text is: inside a line, or before one. -/
structure BlockState where
  inside : Bool := false
  /-- The end of the last line of text. -/
  lineEnd : List Char := []
  /-- The ends of the empty lines behind it, the latest first. -/
  emptyEnds : List Char := []
  /-- Whether the last line of text starts with a blank. -/
  startsBlank : Bool := false
  deriving DecidableEq, Repr

/-- What stands between two lines of text: in a joined text, a single line feed between two lines
    that do not start with a blank becomes a space, and does not count if empty lines follow. -/
def BlockState.separator (s : BlockState) (literal : Bool) (startsBlank : Bool) : List Char :=
  if !literal && s.lineEnd == ['\n'] && !s.startsBlank && !startsBlank then
    if s.emptyEnds.isEmpty then [' '] else s.emptyEnds.reverse
  else s.lineEnd ++ s.emptyEnds.reverse

/-- What stands behind the last line of text. -/
def BlockState.tail (s : BlockState) : Chomping → List Char
  | .strip => []
  | .clip => s.lineEnd
  | .keep => s.lineEnd ++ s.emptyEnds.reverse

/-- Reads the text with the given indentation: the text and the place of the first character that
    is not part of it. -/
def blockText (literal : Bool) (chomping : Chomping) (indent : Nat) :
    BlockState → Position → List Char → Except Flaw (List Char × Cursor)
  | s, p, [] => .ok (s.tail chomping, ⟨p, []⟩)
  | s, p, c :: r =>
    if s.inside then
      if isBreak c then
        blockText literal chomping indent { s with inside := false, lineEnd := [c] } (p.next c) r
      else
        (blockText literal chomping indent s (p.next c) r).map fun t => (c :: t.1, t.2)
    else if p.column < indent ∧ c = ' ' then
      blockText literal chomping indent s (p.next c) r
    else if p.column < indent ∧ c = '\t' then .error ⟨.blockScalar, .tabInBlock, p⟩
    else if isBreak c then
      blockText literal chomping indent { s with emptyEnds := c :: s.emptyEnds } (p.next c) r
    else if p.column = indent then
      let between := s.separator literal (isBlank c)
      let s : BlockState := { inside := true, startsBlank := isBlank c }
      (blockText literal chomping indent s (p.next c) r).map fun t => (between ++ c :: t.1, t.2)
    else .ok (s.tail chomping, ⟨p, c :: r⟩)

/-- Reads a block scalar behind the first character of its header. `floor` is the least column of
    what belongs to the value. -/
def blockScalar (literal : Bool) (floor : Nat) (c : Cursor) :
    Except Flaw (List Char × Cursor) := do
  let (header, c) ← BlockHeader.read c
  let indent ← match header.indent with
    -- Said is the distance to the block that the value belongs to.
    | some n => pure (floor - 1 + n)
    | none => blockIndent (max floor 1) c.position c.rest
  blockText literal header.chomping indent {} c.position c.rest

end TxLoad.Yaml
