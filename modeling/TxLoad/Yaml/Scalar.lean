import TxLoad.Text.Numeral
import TxLoad.Yaml.Fault

namespace TxLoad.Yaml

/-!
# Scalars on one or more lines

A plain or quoted scalar may go on over several lines, which are then joined.

* `Gap` is what stands between two characters of a scalar, and `Gap.text` what it comes to;
* `plainFrom` reads a plain scalar, `quotedFrom` a quoted one behind its opening quote.

In both a gap is kept back until a character follows it, since a gap at the end is no part of a
plain scalar.
-/

/-! ### Gaps -/

/-- Blanks and line ends between two characters of a scalar, the latest first. `joined` says that
    a line end was escaped, so that it does not count. -/
structure Gap where
  blanks : List Char := []
  breaks : List Char := []
  joined : Bool := false
  deriving DecidableEq, Repr

namespace Gap

def isEmpty (g : Gap) : Bool := g.blanks.isEmpty && g.breaks.isEmpty

/-- Whether a line has ended in a gap. -/
def hasBreak (g : Gap) : Bool := g.joined || !g.breaks.isEmpty

/-- A gap with one more character. Blanks beside a line end do not count. -/
def push (g : Gap) (c : Char) : Gap :=
  if isBreak c then { g with blanks := [], breaks := c :: g.breaks }
  else if g.hasBreak then g
  else { g with blanks := c :: g.blanks }

/-- What a gap comes to: blanks stay as they are, a single line feed becomes a space, and the first
    of several does not count. Where the first line end is none, or was escaped, all others stay. -/
def text (g : Gap) : List Char :=
  match g.joined, g.breaks.reverse with
  | false, [] => g.blanks.reverse
  | false, ['\n'] => [' ']
  | false, '\n' :: more => more
  | _, all => all

/-- An empty gap comes to nothing. -/
theorem text_empty : ({} : Gap).text = [] := rfl

/-- A single line end joins two lines by a space. -/
theorem text_push_newline : (({} : Gap).push '\n').text = [' '] := rfl

end Gap

/-- Puts a text before that of a scalar. -/
def andThen (text : List Char) (r : Except Flaw (List Char × α)) : Except Flaw (List Char × α) :=
  r.map fun p => (text ++ p.1, p.2)

/-! ### Plain scalars -/

/-- The characters that stand for something in flow style. -/
def isFlowIndicator (c : Char) : Bool := ",[]\x7b\x7d".toList.contains c

/-- The characters that stand for something where a token may start. -/
def isIndicator (c : Char) : Bool := "-?:,[]\x7b\x7d#&*!|>'\"%@\x60".toList.contains c

/-- Whether a plain scalar may start here: with a character that stands for nothing, with a dash
    that does not stand alone, or, in block style, with such a question mark or colon. -/
def startsPlain (flow : Bool) : List Char → Bool
  | [] => false
  | c :: r =>
    if c = '-' then !atGap r
    else if c = '?' ∨ c = ':' then !flow && !atGap r
    else !isIndicator c && !isGap c

/-- Whether a plain scalar ends before what follows a gap: a comment, a marker between documents or,
    in block style, a text too far to the left. -/
def endsAfterGap (flow : Bool) (floor : Nat) (p : Position) (s : List Char) : Bool :=
  s.head? == some '#' || atMarker p s || (!flow && decide (p.column < floor))

/-- Whether a plain scalar ends before a character, given what follows it: a colon that stands
    alone, or something that has a meaning in flow style. -/
def endsPlain (flow : Bool) (c : Char) (r : List Char) : Bool :=
  (c == ':' && atGap r) || (flow && isFlowIndicator c)

/-- Whether a colon stands before something that, in flow style, must not follow it. -/
def isLooseColon (flow : Bool) (c : Char) (r : List Char) : Bool :=
  flow && c == ':' && r.head?.any fun x => x == '?' || isFlowIndicator x

/-- Reads a plain scalar whose further lines are indented to `floor` or more: its text, the gap
    behind it, and the place behind that gap. A tab must not stand in the indentation. -/
def plainFrom (flow : Bool) (floor : Nat) :
    Gap → Position → List Char → Except Flaw (List Char × Gap × Cursor)
  | gap, p, [] => .ok ([], gap, ⟨p, []⟩)
  | gap, p, c :: r =>
    if isGap c then
      if c = '\t' ∧ gap.hasBreak ∧ p.column < floor then .error ⟨.plainScalar, .tabInPlain, p⟩
      else plainFrom flow floor (gap.push c) (p.next c) r
    else if !gap.isEmpty && endsAfterGap flow floor p (c :: r) then .ok ([], gap, ⟨p, c :: r⟩)
    else if isLooseColon flow c r then .error ⟨.plainScalar, .looseColon, p⟩
    else if endsPlain flow c r then .ok ([], gap, ⟨p, c :: r⟩)
    else andThen (gap.text ++ [c]) (plainFrom flow floor {} (p.next c) r)

/-! ### Quoted scalars -/

/-- The character of a one-letter escape. -/
def escapedChar? : Char → Option Char
  | '0' => some '\x00'
  | 'a' => some '\x07'
  | 'b' => some '\x08'
  | 't' => some '\t'
  | '\t' => some '\t'
  | 'n' => some '\n'
  | 'v' => some '\x0b'
  | 'f' => some '\x0c'
  | 'r' => some '\r'
  | 'e' => some '\x1b'
  | ' ' => some ' '
  | '"' => some '"'
  | '/' => some '/'
  | '\\' => some '\\'
  | 'N' => some '\u0085'
  | '_' => some '\u00a0'
  | 'L' => some '\u2028'
  | 'P' => some '\u2029'
  | _ => none

/-- The character with the given number in base sixteen, which must not be half a surrogate
    pair. -/
def numberedChar (digits : List Char) : Except Problem Char :=
  match Text.readDigits 16 digits with
  | none => .error .noNumber
  | some n =>
    if n < 0xD800 ∨ (0xE000 ≤ n ∧ n < 0x110000) then .ok (Char.ofNat n) else .error .noCharacter

/-- The character that a letter or a number behind a backslash at a position stands for. A number
    has its own letter before it, and a problem of a number is found behind that letter. -/
def escaped (p : Position) (letter : Char) (digits : List Char) : Except Flaw Char :=
  match escapedChar? letter with
  | some c => .ok c
  | none =>
    if "xuU".toList.contains letter then
      (numberedChar digits).mapError fun problem => ⟨.escape, problem, p.skip 2⟩
    else .error ⟨.escape, .unknownEscape, p⟩

/-- Reads a scalar in single or double quotes, behind the opening one: its text and the place behind
    the closing one. A quote in single quotes is written twice, and in double quotes a backslash
    starts an escape. -/
def quotedFrom (double : Bool) : Gap → Position → List Char → Except Flaw (List Char × Cursor)
  | _, p, [] => .error ⟨.quotedScalar, .openQuotes, p⟩
  | gap, p, c :: r =>
    if isGap c then quotedFrom double (gap.push c) (p.next c) r
    else if atMarker p (c :: r) then .error ⟨.quotedScalar, .markerInQuotes, p⟩
    else if !double && c == '\'' then
      match r with
      | '\'' :: r => andThen (gap.text ++ ['\'']) (quotedFrom double {} (p.skip 2) r)
      | r => .ok (gap.text, ⟨p.next c, r⟩)
    else if double && c == '"' then .ok (gap.text, ⟨p.next c, r⟩)
    else if double && c == '\\' then
      match r with
      | [] => .error ⟨.escape, .unknownEscape, p⟩
      | 'x' :: a :: b :: r =>
        (escaped p 'x' [a, b]).bind fun x =>
          andThen (gap.text ++ [x]) (quotedFrom double {} (p.skip 4) r)
      | 'u' :: a :: b :: d :: e :: r =>
        (escaped p 'u' [a, b, d, e]).bind fun x =>
          andThen (gap.text ++ [x]) (quotedFrom double {} (p.skip 6) r)
      | 'U' :: a :: b :: d :: e :: f :: g :: h :: i :: r =>
        (escaped p 'U' [a, b, d, e, f, g, h, i]).bind fun x =>
          andThen (gap.text ++ [x]) (quotedFrom double {} (p.skip 10) r)
      | e :: r =>
        -- An escaped line end joins two lines without a space.
        if isBreak e then
          andThen gap.text (quotedFrom double { joined := true } ((p.next c).next e) r)
        else
          (escaped p e []).bind fun x =>
            andThen (gap.text ++ [x]) (quotedFrom double {} (p.skip 2) r)
    else andThen (gap.text ++ [c]) (quotedFrom double {} (p.next c) r)

end TxLoad.Yaml
