import TxLoad.Text.Numeral

namespace TxLoad.Uri

/-!
# The authority of a URI

Only the authority of an address text matters, but the whole text has to be a URI.

* `schemeLength` finds the scheme, `splitAuthority` the end of the authority;
* `hostOf` and `portOf` take the authority apart;
* `parse` reads an absolute URI, or an authority alone.

Characters outside ASCII may stand in the path and in the query only.
-/

/-- The longest URI, in bytes. -/
def maxLength : Nat := 65534

/-- The longest scheme. -/
def maxSchemeLength : Nat := 64

/-- The most colons that may stand together outside brackets before the authority is refused. -/
def maxColons : Nat := 8

/-- The characters of a scheme, the colon that ends it included. -/
def isSchemeChar (c : Char) : Bool := c.isAlphanum || "+-.:~".toList.contains c

/-- The characters of an authority and those that end it. -/
def isUriChar (c : Char) : Bool := c.isAlphanum || "!#$&'()*+,-./:;=?@[]_~".toList.contains c

/-- The length of a scheme that is followed by `://`; `none` if the text has no scheme, and a
    fault if the scheme is too long. -/
def schemeLength (s : List Char) : Except Unit (Option Nat) :=
  let scheme := s.takeWhile fun c => isSchemeChar c && c != ':'
  match s.drop scheme.length with
  | ':' :: '/' :: '/' :: _ =>
    if maxSchemeLength < scheme.length then .error () else .ok (some scheme.length)
  | _ => .ok none

/-- What the scan of an authority has seen so far. -/
structure Scan where
  colons : Nat
  opened : Bool
  closed : Bool
  percent : Bool
  /-- Whether the character just read is an at sign. -/
  atSign : Bool

/-- Reads one character of an authority; nothing if it may not stand there. -/
def Scan.step (t : Scan) (c : Char) : Option Scan :=
  if c = ':' then
    -- More colons than this are refused even where a bracket would forgive them.
    if maxColons ≤ t.colons then none else some { t with colons := t.colons + 1, atSign := false }
  else if c = '[' then
    if t.percent || t.opened then none else some { t with opened := true, atSign := false }
  else if c = ']' then
    if !t.opened || t.closed then none
    -- The colons of an address in brackets are not those of a port.
    else some { t with closed := true, colons := 0, percent := false, atSign := false }
  else if c = '@' then some { t with colons := 0, percent := false, atSign := true }
  else if c = '%' then some { t with percent := true, atSign := false }
  else if isUriChar c then some { t with atSign := false }
  else none

/-- Whether an authority may end here: brackets are paired, at most one colon stands before the
    port, something follows the at sign, and a percent sign occurs in the user information only. -/
def Scan.accepts (t : Scan) : Bool :=
  t.opened == t.closed && t.colons ≤ 1 && !t.atSign && !t.percent

/-- The characters that end an authority. -/
def endsAuthority (c : Char) : Bool := c == '/' || c == '?' || c == '#'

/-- The authority at the start of a text, and what follows it. -/
def splitAuthority (s : List Char) : Option (List Char × List Char) :=
  let authority := s.takeWhile fun c => !endsAuthority c
  match authority.foldlM Scan.step ⟨0, false, false, false, false⟩ with
  | some t => if t.accepts then some (authority, s.drop authority.length) else none
  | none => none

/-- The characters of a path: those that can be seen, without the angle brackets and the
    backquote, and all beyond ASCII. -/
def isPathChar (c : Char) : Bool :=
  let n := c.toNat
  n == 0x21 || (0x24 ≤ n && n ≤ 0x3B) || n == 0x3D || (0x40 ≤ n && n ≤ 0x5F) ||
    (0x61 ≤ n && n ≤ 0x7A) || n == 0x7C || n == 0x7E || 0x80 ≤ n || c == '"' || c == '\x7b' ||
    c == '\x7d'

/-- The characters of a query: more than those of a path, but no control character either. -/
def isQueryChar (c : Char) : Bool :=
  let n := c.toNat
  n == 0x21 || (0x24 ≤ n && n ≤ 0x3B) || n == 0x3D || (0x3F ≤ n && n != 0x7F)

/-- Whether a text is a path with an optional query and fragment; a fragment may hold anything. -/
def isPathAndQuery (s : List Char) : Bool :=
  let path := s.takeWhile fun c => c != '?' && c != '#'
  path.all isPathChar &&
    match s.drop path.length with
    | '?' :: r => (r.takeWhile (· != '#')).all isQueryChar
    | _ => true

/-- The host of an authority: what follows the user information, without the port; an address in
    brackets keeps them. -/
def hostOf (authority : List Char) : List Char :=
  let hostPort := (authority.reverse.takeWhile (· != '@')).reverse
  match hostPort with
  | '[' :: _ => hostPort.takeWhile (· != ']') ++ [']']
  | _ => hostPort.takeWhile (· != ':')

/-- The port of an authority: the number after its last colon. -/
def portOf (authority : List Char) : Option Nat :=
  if authority.contains ':' then
    Text.readNumeral 65535 (authority.reverse.takeWhile (· != ':')).reverse
  else none

/-- The authority of a URI with a scheme, or of a text that is an authority alone. -/
def parse (s : List Char) : Option (List Char) :=
  if maxLength < (String.ofList s).utf8ByteSize then none
  else
    match schemeLength s with
    | .error _ => none
    | .ok none =>
      match splitAuthority s with
      | some (authority, []) => some authority
      | _ => none
    | .ok (some n) =>
      match splitAuthority (s.drop (n + 3)) with
      | some (authority, rest) =>
        -- Path and query are not kept, but they have to be well formed.
        if authority.isEmpty || !isPathAndQuery rest then none else some authority
      | none => none

end TxLoad.Uri
