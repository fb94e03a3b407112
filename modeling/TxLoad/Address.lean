import TxLoad.Text.Numeral

namespace TxLoad

/-!
# Socket addresses

An address to listen on: an IPv4 address in dotted form, or an IPv6 address in brackets with an
optional numeric zone, and a port.

* `Address.read` accepts exactly one address, with the usual shorthand for zeros;
* `Address.render` writes the canonical form, in which the longest run of two or more zero groups
  is left out.
-/

inductive Address where
  | v4 (octets : List Nat) (port : Nat)
  | v6 (groups : List Nat) (zone port : Nat)
  deriving DecidableEq, Repr

namespace Address

open Text

/-! ### Reading -/

/-- Reads a number in the given base: at most `width` digits (no bound if that is none), at most
    `max`, and without a leading zero unless allowed. -/
def readNumber (base : Nat) (width : Option Nat) (max : Nat) (leadingZero : Bool)
    (s : List Char) : Option (Nat × List Char) :=
  let isDigit := fun c => (digitValue? base c).isSome
  let digits := s.takeWhile isDigit
  let rest := s.dropWhile isDigit
  if width.any (· < digits.length) then none
  else if !leadingZero && digits.head? == some '0' && 1 < digits.length then none
  else
    match readDigits base digits with
    | some n => if n ≤ max then some (n, rest) else none
    | none => none

/-- Reads a given character. -/
def skipChar (c : Char) : List Char → Option (List Char)
  | d :: r => if c = d then some r else none
  | [] => none

/-- Reads a separator unless this is the first of several parts. -/
def skipSeparator (c : Char) (first : Bool) (s : List Char) : Option (List Char) :=
  if first then some s else skipChar c s

/-- Reads `n` further octets of a dotted address. -/
def readOctets : Nat → Bool → List Char → Option (List Nat × List Char)
  | 0, _, s => some ([], s)
  | n + 1, first, s =>
    (skipSeparator '.' first s).bind fun s =>
      (readNumber 10 (some 3) 255 false s).bind fun (octet, s) =>
        (readOctets n false s).map fun (octets, s) => (octet :: octets, s)

/-- The two 16-bit groups of four octets. -/
def groupsOf : List Nat → List Nat
  | [a, b, c, d] => [a * 256 + b, c * 256 + d]
  | _ => []

/-- Reads up to `limit` groups with colons between them; the last two may be a dotted address,
    in which case the second part of the answer is set. -/
def readGroups : (limit : Nat) → (first : Bool) → List Char → List Nat × Bool × List Char
  | 0, _, s => ([], false, s)
  | limit + 1, first, s =>
    -- A dotted address takes two groups, so that one group left is too few.
    let dotted := if limit = 0 then none
      else (skipSeparator ':' first s).bind (readOctets 4 true)
    match dotted with
    | some (octets, r) => (groupsOf octets, true, r)
    | none =>
      match (skipSeparator ':' first s).bind (readNumber 16 (some 4) 0xFFFF true) with
      | some (g, r) =>
        let (gs, dotted, r) := readGroups limit false r
        (g :: gs, dotted, r)
      | none => ([], false, s)

/-- Reads an IPv6 address: eight groups, or fewer with `::` in place of one or more zeros. -/
def readV6 (s : List Char) : Option (List Nat × List Char) :=
  let (head, dotted, r) := readGroups 8 true s
  if head.length = 8 then some (head, r)
  -- Nothing may follow a dotted address.
  else if dotted then none
  else
    (skipChar ':' r).bind fun r => (skipChar ':' r).map fun r =>
      let (tail, _, r) := readGroups (7 - head.length) true r
      (head ++ List.replicate (8 - head.length - tail.length) 0 ++ tail, r)

/-- Reads a colon and a port. -/
def readPort (s : List Char) : Option (Nat × List Char) :=
  (skipChar ':' s).bind (readNumber 10 none 65535 true)

/-- Reads the zone of an IPv6 address, zero if there is none. -/
def readZone (s : List Char) : Option (Nat × List Char) :=
  match s with
  | '%' :: r => readNumber 10 none (UInt32.size - 1) true r
  | _ => some (0, s)

def readV4Address (s : List Char) : Option (Address × List Char) :=
  (readOctets 4 true s).bind fun (octets, s) =>
    (readPort s).map fun (port, s) => (.v4 octets port, s)

def readV6Address (s : List Char) : Option (Address × List Char) :=
  (skipChar '[' s).bind fun s => (readV6 s).bind fun (groups, s) =>
    (readZone s).bind fun (zone, s) => (skipChar ']' s).bind fun s =>
      (readPort s).map fun (port, s) => (.v6 groups zone port, s)

/-- Reads a whole text as an address. -/
def read (text : String) : Option Address :=
  let s := text.toList
  match (readV4Address s).orElse fun _ => readV6Address s with
  | some (a, []) => some a
  | _ => none

/-! ### Writing -/

/-- The start and the length of the longest run of zeros in `groups`, which start at `i`; the
    first of several. `run` is the length of the run that ends just before. -/
def longestRun : (groups : List Nat) → (i run : Nat) → (best : Nat × Nat) → Nat × Nat
  | [], _, _, best => best
  | g :: gs, i, run, best =>
    if g = 0 then
      let run := run + 1
      longestRun gs (i + 1) run (if best.2 < run then (i + 1 - run, run) else best)
    else longestRun gs (i + 1) 0 best

/-- A number in base sixteen without leading zeros. -/
def hex (n : Nat) : List Char :=
  let digits := (hexPadded 4 n).dropWhile (· == '0')
  if digits.isEmpty then ['0'] else digits

/-- Texts with a separator between them. -/
def joined (c : Char) (parts : List (List Char)) : List Char :=
  (parts.intersperse [c]).flatten

def renderV6 (groups : List Nat) : List Char :=
  match groups with
  | [0, 0, 0, 0, 0, 0xFFFF, g, h] =>
    "::ffff:".toList ++ joined '.' ([g / 256, g % 256, h / 256, h % 256].map numeral)
  | _ =>
    let (start, length) := longestRun groups 0 0 (0, 0)
    if 1 < length then
      joined ':' ((groups.take start).map hex) ++ [':', ':'] ++
        joined ':' ((groups.drop (start + length)).map hex)
    else joined ':' (groups.map hex)

def render : Address → String
  | v4 octets port => String.ofList (joined '.' (octets.map numeral) ++ ':' :: numeral port)
  | v6 groups zone port =>
    let zoneText := if zone = 0 then [] else '%' :: numeral zone
    String.ofList ('[' :: renderV6 groups ++ zoneText ++ ']' :: ':' :: numeral port)

end Address

end TxLoad
