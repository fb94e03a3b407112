namespace TxLoad.Yaml

/-!
# Places in a document

A document is read character by character, and its meaning depends on where a character stands.

* `Position` counts characters, lines and columns; `Cursor` is a position with what follows it;
* `isBlank`, `isBreak` and `isGap` are the characters between words;
* `normalLines` gives line ends one form, and `isPrintable` says what a document may hold.
-/

/-! ### Characters -/

/-- Whether a character separates the words of a line. -/
def isBlank (c : Char) : Bool := c == ' ' || c == '\t'

/-- Whether a character ends a line: the line feed, or one of the two separators of Unicode, which,
    unlike it, are kept where lines are joined. -/
def isBreak (c : Char) : Bool := c == '\n' || c == '\u2028' || c == '\u2029'

/-- Whether a character stands between words. -/
def isGap (c : Char) : Bool := isBlank c || isBreak c

/-- Whether a gap or the end of the document comes next. -/
def atGap : List Char → Bool
  | [] => true
  | c :: _ => isGap c

/-- Whether a line end or the end of the document comes next. -/
def atLineEnd : List Char → Bool
  | [] => true
  | c :: _ => isBreak c

/-- The characters of the names of anchors, directives and shorthands. -/
def isNameChar (c : Char) : Bool := c.isAlphanum || c == '_' || c == '-'

/-- Whether a character may stand in a document. -/
def isPrintable (c : Char) : Bool :=
  let n := c.toNat
  n == 9 || n == 10 || n == 13 || (0x20 ≤ n && n ≤ 0x7E) || n == 0x85 ||
    (0xA0 ≤ n && n ≤ 0xFFFD) || 0x10000 ≤ n

/-- A text whose lines end with line feeds instead of carriage returns, pairs of both, or the next
    line control. -/
def normalLines : List Char → List Char
  | [] => []
  | '\r' :: '\n' :: r => '\n' :: normalLines r
  | '\r' :: r => '\n' :: normalLines r
  | '\u0085' :: r => '\n' :: normalLines r
  | c :: r => c :: normalLines r

/-- The mark that may stand before the first character of a line. -/
def byteOrderMark : Char := '\uFEFF'

/-! ### Positions -/

/-- Where a character stands: the number of characters before it in the document, of lines before
    its own, and of characters before it on its line. -/
structure Position where
  index : Nat := 0
  line : Nat := 0
  column : Nat := 0
  deriving DecidableEq, Repr

/-- The position behind a character. -/
def Position.next (p : Position) (c : Char) : Position :=
  if isBreak c then ⟨p.index + 1, p.line + 1, 0⟩ else ⟨p.index + 1, p.line, p.column + 1⟩

/-- The position behind so many characters of a line. -/
def Position.skip (p : Position) (n : Nat) : Position := ⟨p.index + n, p.line, p.column + n⟩

/-- A place in a document: a position and what follows it. -/
structure Cursor where
  position : Position
  rest : List Char
  deriving DecidableEq, Repr

namespace Cursor

def column (c : Cursor) : Nat := c.position.column

/-- The place behind so many characters of a line. -/
def skip (c : Cursor) (n : Nat) : Cursor := ⟨c.position.skip n, c.rest.drop n⟩

/-- The longest run of characters of a class, none of which ends a line, and the place behind
    it. -/
def span (c : Cursor) (p : Char → Bool) : List Char × Cursor :=
  let run := c.rest.takeWhile fun x => p x && !isBreak x
  (run, c.skip run.length)

/-- The place behind the blanks of the line. -/
def skipBlanks (c : Cursor) : Cursor := (c.span isBlank).2

/-- The place behind the line end that comes next, if one does. -/
def skipBreak (c : Cursor) : Cursor :=
  match c.rest with
  | x :: r => if isBreak x then ⟨c.position.next x, r⟩ else c
  | [] => c

/-- The first place of the next line, if nothing but blanks and a comment is left of this one. -/
def endLine? (c : Cursor) : Option Cursor :=
  let c := c.skipBlanks
  let c := if c.rest.head? = some '#' then (c.span fun _ => true).2 else c
  if atLineEnd c.rest then some c.skipBreak else none

end Cursor

/-- Whether three times the given character, with a gap behind it, comes next. -/
def isMarker (c : Char) : List Char → Bool
  | a :: b :: d :: r => a == c && b == c && d == c && atGap r
  | _ => false

/-- Whether a marker between documents comes next: three dashes or dots at the start of a line. -/
def atMarker (p : Position) (s : List Char) : Bool :=
  p.column == 0 && (isMarker '-' s || isMarker '.' s)

/-! ### Moving on -/

/-- Skipping no character stays where it is. -/
theorem Cursor.skip_zero (c : Cursor) : c.skip 0 = c := rfl

/-- A line in normal form stays as it is. -/
theorem normalLines_eq_self {s : List Char} (h : ∀ c ∈ s, c ≠ '\r' ∧ c ≠ '\u0085') :
    normalLines s = s := by
  induction s with
  | nil => rfl
  | cons c r ih =>
    have hc := h c (by simp)
    rw [normalLines, ih fun x hx => h x (List.mem_cons_of_mem c hx)]
    · intro r' e
      exact absurd e hc.1
    · intro e
      exact absurd e hc.1
    · intro e
      exact absurd e hc.2

end TxLoad.Yaml
