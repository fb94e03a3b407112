import TxLoad.Yaml.BlockScalar
import TxLoad.Yaml.Event
import TxLoad.Yaml.Scalar

namespace TxLoad.Yaml

/-!
# Tokens of a document

The structure of a document is in its indentation and in its punctuation. Both become tokens: a
block has a token at its start and one at its end, and a value that a colon turns into a key has a
token before it.

* `Token` is a token, `Lexeme` a token with its place;
* `Scanner` is the state in which a document is read, `Scanner.fetch` reads one token;
* `lexemes` reads a whole document.

A key is recognised only at its colon, after its own tokens. So each value that may be one leaves a
`KeyMark`, which says where the token is to be put; until it is clear what a value is, neither it
nor what follows it is *ready*. A key stands on one line, together with its colon, and within
`maxKeyLength` characters.
-/

inductive Token where
  | directive (d : Directive)
  | documentStart
  | documentEnd
  | textEnd
  | sequenceStart
  | mappingStart
  | blockEnd
  | flowSequenceStart
  | flowSequenceEnd
  | flowMappingStart
  | flowMappingEnd
  /-- The dash before an item of a sequence. -/
  | item
  /-- The comma between the entries of a collection in flow style. -/
  | comma
  | key
  | value
  /-- The name of a value that stands elsewhere. -/
  | reference (name : String)
  | anchor (name : String)
  | tag (word : TagWord)
  | scalar (style : Style) (text : String)
  deriving DecidableEq, Repr

/-- A token and where it starts. -/
structure Lexeme where
  token : Token
  start : Position
  deriving DecidableEq, Repr

/-- The place behind a token of one character. -/
def Lexeme.behind (l : Lexeme) : Position := l.start.skip 1

/-- The tokens of a text as far as they can be told, and what is wrong behind them. -/
structure Lexemes where
  list : List Lexeme
  fault : Option Fault := none

/-- Where a value stands that may turn out to be a key, and how many tokens were before it. In a
    mapping in block style it is required to be one. -/
structure KeyMark where
  required : Bool
  number : Nat
  position : Position
  deriving DecidableEq, Repr

/-- The longest key, its colon included. -/
def maxKeyLength : Nat := 1024

/-- Whether a key can no longer end at a position. -/
def KeyMark.isStale (k : KeyMark) (p : Position) : Bool :=
  decide (k.position.line < p.line) || decide (k.position.index + maxKeyLength < p.index)

/-- The state of a reader of tokens. -/
structure Scanner where
  cursor : Cursor
  /-- The least column of what belongs to a value of the current block, and that of the blocks
      around it. -/
  floor : Nat := 0
  outerFloors : List Nat := []
  /-- Whether a key may start here. -/
  keyAllowed : Bool := true
  /-- The value that may turn out to be a key, and those of the collections in flow style around
      it. -/
  keyMark : Option KeyMark := none
  outerMarks : List (Option KeyMark) := []
  /-- The tokens, the latest first, and their number. -/
  tokens : List Lexeme := []
  count : Nat := 0

namespace Scanner

/-- Whether the place is inside a collection in flow style. -/
def inFlow (s : Scanner) : Bool := !s.outerMarks.isEmpty

def position (s : Scanner) : Position := s.cursor.position

def column (s : Scanner) : Nat := s.cursor.column

/-- The state behind so many characters of the line. -/
def skip (s : Scanner) (n : Nat) : Scanner := { s with cursor := s.cursor.skip n }

def push (s : Scanner) (l : Lexeme) : Scanner :=
  { s with tokens := l :: s.tokens, count := s.count + 1 }

/-- Reads so many characters as a token. -/
def take (s : Scanner) (n : Nat) (t : Token) : Scanner := (s.push ⟨t, s.position⟩).skip n

/-- Puts a token behind the given number of tokens. -/
def insert (s : Scanner) (number : Nat) (l : Lexeme) : Scanner :=
  let later := s.count - number
  { s with tokens := s.tokens.take later ++ l :: s.tokens.drop later, count := s.count + 1 }

def allowKey (s : Scanner) (allowed : Bool) : Scanner := { s with keyAllowed := allowed }

/-- A problem at the place of the scanner. -/
def problem (s : Scanner) (p : Problem) : Fault := .malformed p s.position none

/-! ### Keys -/

/-- The fault of a value that was required to be a key. -/
def missingColon (s : Scanner) (k : KeyMark) : Fault :=
  (Flaw.mk .simpleKey .noColon s.position).since k.position

/-- Gives up the value that might have been a key. -/
def dropKey (s : Scanner) : Except Fault Scanner :=
  match s.keyMark.filter (·.required) with
  | some k => .error (s.missingColon k)
  | none => .ok { s with keyMark := none }

/-- Marks what comes next as a possible key. -/
def markKey (s : Scanner) : Except Fault Scanner :=
  if !s.keyAllowed then .ok s
  else
    s.dropKey.map fun s =>
      let required := !s.inFlow && s.floor == s.column + 1
      { s with keyMark := some ⟨required, s.count, s.position⟩ }

/-- The values that may turn out to be keys. -/
def keyMarks (s : Scanner) : List KeyMark := (s.keyMark :: s.outerMarks).filterMap id

/-- Whether a value that may turn out to be a key can no longer be one. -/
def hasStale (s : Scanner) : Bool :=
  let stale := fun (k : Option KeyMark) => k.any (·.isStale s.position)
  stale s.keyMark || s.outerMarks.any stale

/-- Gives up the values that can no longer be keys. -/
def dropStale (s : Scanner) : Except Fault Scanner :=
  -- Collections can lie deep in each other, so that their marks are copied only if they change.
  if !s.hasStale then .ok s
  else
    let stale := fun (k : KeyMark) => k.isStale s.position
    match s.keyMarks.find? fun k => k.required && stale k with
    | some k => .error (s.missingColon k)
    | none =>
      let fresh := fun (k : Option KeyMark) => k.filter fun k => !stale k
      .ok { s with keyMark := fresh s.keyMark, outerMarks := s.outerMarks.map fresh }

/-- The number of tokens before a value, if it may turn out to be a key, and at most `n`. -/
def readyBefore (n : Nat) : Option KeyMark → Nat
  | some k => min n k.number
  | none => n

/-- How many tokens are ready: those before the first value that may turn out to be a key. -/
def ready (s : Scanner) : Nat := s.outerMarks.foldl readyBefore (readyBefore s.count s.keyMark)

/-! ### Blocks -/

/-- Starts a block at the given position, unless the current one starts at its column. Its token is
    put behind the given number of tokens. -/
def openBlock (s : Scanner) (p : Position) (number : Nat) (t : Token) : Scanner :=
  if s.inFlow || p.column < s.floor then s
  else
    { s.insert number ⟨t, p⟩ with floor := p.column + 1, outerFloors := s.floor :: s.outerFloors }

/-- The number of blocks that end where the least column falls to `limit`, and the floors that are
    left. -/
def closing (limit : Nat) : (floor : Nat) → (outer : List Nat) → Nat × Nat × List Nat
  | floor, [] => (0, floor, [])
  | floor, o :: outer =>
    if limit < floor then
      let (n, rest) := closing limit o outer
      (n + 1, rest)
    else (0, floor, o :: outer)

/-- Ends the blocks that do not reach to `limit`. In flow style columns do not count. -/
def closeBlocks (s : Scanner) (limit : Nat) : Scanner :=
  if s.inFlow then s
  else
    let (n, floor, outerFloors) := closing limit s.floor s.outerFloors
    { s with
      floor, outerFloors
      tokens := List.replicate n ⟨.blockEnd, s.position⟩ ++ s.tokens
      count := s.count + n }

/-! ### Between tokens -/

/-- Skips blanks, comments and line ends. A mark may stand at the start of a line. A tab must not
    stand where a key may start, and a new line in block style is such a place. -/
def gapFrom (flow : Bool) : (comment allowed : Bool) → Position → List Char → Bool × Cursor
  | _, allowed, p, [] => (allowed, ⟨p, []⟩)
  | comment, allowed, p, c :: r =>
    if isBreak c then gapFrom flow false (allowed || !flow) (p.next c) r
    else if comment || c == ' ' || (c == '\t' && (flow || !allowed)) ||
        (c == byteOrderMark && p.column == 0) then
      gapFrom flow comment allowed (p.next c) r
    else if c = '#' then gapFrom flow true allowed (p.next c) r
    else (allowed, ⟨p, c :: r⟩)

/-- Moves to the next token and ends the blocks that it does not belong to. -/
def toToken (s : Scanner) : Except Fault Scanner :=
  let (allowed, cursor) := gapFrom s.inFlow false s.keyAllowed s.cursor.position s.cursor.rest
  let here : Scanner := { s with cursor, keyAllowed := allowed }
  here.dropStale.map fun s => s.closeBlocks (s.column + 1)

/-! ### Single tokens -/

/-- Ends everything, as before a marker, a directive or the end. -/
def endDocument (s : Scanner) : Except Fault Scanner :=
  (s.closeBlocks 0).dropKey.map (·.allowKey false)

/-- The place where a text ends is the start of a line. -/
def endLine (s : Scanner) : Scanner :=
  let p := s.position
  if p.column = 0 then s
  else { s with cursor := { s.cursor with position := { p with line := p.line + 1, column := 0 } } }

/-- Ends the text. -/
def fetchEnd (s : Scanner) : Except Fault Scanner :=
  s.endLine.endDocument.bind fun s => (s.take 0 .textEnd).dropStale

/-- Reads what starts here, and makes a token of it. -/
def readHere (s : Scanner) (read : Cursor → Except Flaw (α × Cursor)) (token : α → Token) :
    Except Fault Scanner :=
  match read s.cursor with
  | .ok (a, cursor) => .ok { s.push ⟨token a, s.position⟩ with cursor }
  | .error flaw => .error (flaw.since s.position)

def fetchDirective (s : Scanner) : Except Fault Scanner :=
  s.endDocument.bind fun s => s.readHere (fun c => Directive.read (c.skip 1)) .directive

/-- The start of a collection in flow style, which may be a key as a whole. -/
def openFlow (s : Scanner) (t : Token) : Except Fault Scanner :=
  s.markKey.map fun s =>
    let s := { s with keyMark := none, outerMarks := s.keyMark :: s.outerMarks }
    (s.allowKey true).take 1 t

/-- The end of a collection in flow style. -/
def closeFlow (s : Scanner) (t : Token) : Except Fault Scanner :=
  s.dropKey.map fun s =>
    let s := match s.outerMarks with
      | k :: outer => { s with keyMark := k, outerMarks := outer }
      | [] => s
    (s.allowKey false).take 1 t

def fetchComma (s : Scanner) : Except Fault Scanner :=
  s.dropKey.map fun s => (s.allowKey true).take 1 .comma

/-- Starts the block of a token that must stand where a key may start. -/
def openBlockHere (s : Scanner) (t : Token) (stray : Problem) : Except Fault Scanner :=
  if s.inFlow then .ok s
  else if s.keyAllowed then .ok (s.openBlock s.position s.count t)
  else .error (s.problem stray)

def fetchItem (s : Scanner) : Except Fault Scanner :=
  (s.openBlockHere .sequenceStart .strayItem).bind fun s =>
    s.dropKey.map fun s => (s.allowKey true).take 1 .item

/-- A question mark before a key. -/
def fetchKey (s : Scanner) : Except Fault Scanner :=
  (s.openBlockHere .mappingStart .strayKey).bind fun s =>
    s.dropKey.map fun s => (s.allowKey !s.inFlow).take 1 .key

/-- A colon: what was marked before it is a key, and in block style starts a mapping. -/
def fetchValue (s : Scanner) : Except Fault Scanner :=
  let before : Except Fault Scanner := match s.keyMark with
    | some k =>
      let s := (s.insert k.number ⟨.key, k.position⟩).openBlock k.position k.number .mappingStart
      .ok (s.allowKey false)
    | none =>
      (s.openBlockHere .mappingStart .strayValue).map fun s => s.allowKey !s.inFlow
  before.map fun s => { s.take 1 .value with keyMark := none }

/-- Reads a name behind an ampersand or an asterisk. -/
def readName (reading : Reading) (c : Cursor) : Except Flaw (String × Cursor) :=
  let (name, cursor) := (c.skip 1).span isNameChar
  let ends := match cursor.rest with
    | [] => true
    | c :: _ => isGap c || "?:,]\x7d%@\x60".toList.contains c
  if name.isEmpty || !ends then .error ⟨reading, .noName, cursor.position⟩
  else .ok (String.ofList name, cursor)

def fetchAnchor (s : Scanner) : Except Fault Scanner :=
  s.markKey.bind fun s => (s.allowKey false).readHere (readName .anchor) .anchor

def fetchReference (s : Scanner) : Except Fault Scanner :=
  s.markKey.bind fun s => (s.allowKey false).readHere (readName .reference) .reference

/-- Reads a tag, behind which there is a gap or, in flow style, a comma. -/
def readTag (flow : Bool) (c : Cursor) : Except Flaw (TagWord × Cursor) := do
  let (word, c) ← TagWord.read c
  if atGap c.rest || (flow && c.rest.head? == some ',') then return (word, c)
  else throw ⟨.tag, .noGap, c.position⟩

def fetchTag (s : Scanner) : Except Fault Scanner :=
  s.markKey.bind fun s => (s.allowKey false).readHere (readTag s.inFlow) .tag

def fetchBlockScalar (s : Scanner) (style : Style) : Except Fault Scanner :=
  s.dropKey.bind fun s =>
    (s.allowKey true).readHere (fun c => blockScalar (style == .literal) s.floor (c.skip 1))
      fun text => .scalar style (String.ofList text)

def fetchQuoted (s : Scanner) (style : Style) : Except Fault Scanner :=
  s.markKey.bind fun s =>
    let read := fun (c : Cursor) =>
      let c := c.skip 1
      quotedFrom (style == .doubleQuoted) {} c.position c.rest
    (s.allowKey false).readHere read fun text => .scalar style (String.ofList text)

def fetchPlain (s : Scanner) : Except Fault Scanner :=
  s.markKey.bind fun s =>
    match plainFrom s.inFlow s.floor {} s.position s.cursor.rest with
    | .ok (text, gap, cursor) =>
      let s := s.push ⟨.scalar .plain (String.ofList text), s.position⟩
      -- Behind a line end, which the gap may hold, a key may start.
      .ok { s.allowKey gap.hasBreak with cursor }
    | .error flaw => .error (flaw.since s.position)

def fetchMarker (s : Scanner) (t : Token) : Except Fault Scanner :=
  s.endDocument.map fun s => s.take 3 t

/-- Reads the token that comes next. -/
def fetch (s : Scanner) : Except Fault Scanner :=
  let flow := s.inFlow
  match s.cursor.rest with
  | [] => s.fetchEnd
  | c :: r =>
    if s.column = 0 ∧ c = '%' then s.fetchDirective
    else if s.column = 0 ∧ isMarker '-' (c :: r) = true then s.fetchMarker .documentStart
    else if s.column = 0 ∧ isMarker '.' (c :: r) = true then s.fetchMarker .documentEnd
    else if c = '[' then s.openFlow .flowSequenceStart
    else if c = '\x7b' then s.openFlow .flowMappingStart
    else if c = ']' then s.closeFlow .flowSequenceEnd
    else if c = '\x7d' then s.closeFlow .flowMappingEnd
    else if c = ',' then s.fetchComma
    else if c = '-' ∧ atGap r = true then s.fetchItem
    else if c = '?' ∧ (flow || atGap r) = true then s.fetchKey
    else if c = ':' ∧ (flow || atGap r) = true then s.fetchValue
    else if c = '*' then s.fetchReference
    else if c = '&' then s.fetchAnchor
    else if c = '!' then s.fetchTag
    else if c = '|' ∧ flow = false then s.fetchBlockScalar .literal
    else if c = '>' ∧ flow = false then s.fetchBlockScalar .folded
    else if c = '\'' then s.fetchQuoted .singleQuoted
    else if c = '"' then s.fetchQuoted .doubleQuoted
    else if startsPlain flow (c :: r) then s.fetchPlain
    else .error ((Flaw.mk .token .noToken s.position).since s.position)

/-! ### Whole documents -/

/-- The first tokens, and what is wrong behind them. -/
def stop (s : Scanner) (ready : Nat) (fault : Option Fault) : Lexemes :=
  ⟨s.tokens.reverse.take ready, fault⟩

/-- Reads all tokens, of which so many are ready. A token takes at least one character, so that as
    much fuel as there are characters suffices. -/
def run : (fuel : Nat) → (ready : Nat) → Scanner → Lexemes
  | 0, ready, s => s.stop ready none
  | fuel + 1, ready, s =>
    match s.dropStale with
    | .error fault => s.stop ready (some fault)
    | .ok s =>
      match s.toToken with
      | .error fault => s.stop s.ready (some fault)
      | .ok t =>
        match t.fetch with
        | .error fault => s.stop s.ready (some fault)
        | .ok next =>
          if t.cursor.rest.isEmpty then next.stop next.count none
          else run fuel s.ready next

end Scanner

/-- Where the first character stands that no document may hold: the number of octets before it,
    of which there are `n` before the given characters. -/
def controlFrom? : (n : Nat) → List Char → Option Nat
  | _, [] => none
  | n, c :: r => if isPrintable c then controlFrom? (n + c.utf8Size) r else some n

/-- The tokens of a document. -/
def lexemes (text : String) : Lexemes :=
  match controlFrom? 0 text.toList with
  | some offset => ⟨[], some (.control offset)⟩
  | none =>
    let s := normalLines text.toList
    Scanner.run (s.length + 1) 0 { cursor := ⟨{}, s⟩ }

/-! ### Keys are put where they belong -/

/-- A token that is put behind all tokens is the latest. -/
theorem Scanner.insert_count (s : Scanner) (l : Lexeme) : s.insert s.count l = s.push l := by
  simp [Scanner.insert, Scanner.push]

/-- Putting a token between others loses none of them. -/
theorem Scanner.length_tokens_insert (s : Scanner) (number : Nat) (l : Lexeme) :
    (s.insert number l).tokens.length = s.tokens.length + 1 := by
  simp only [Scanner.insert, List.length_append, List.length_cons, List.length_take,
    List.length_drop]
  omega

/-- No more tokens are ready than there are. -/
theorem Scanner.ready_le_count (s : Scanner) : s.ready ≤ s.count := by
  have before : ∀ (n : Nat) (k : Option KeyMark), readyBefore n k ≤ n := by
    intro n k
    cases k with
    | none => exact Nat.le_refl n
    | some k => exact Nat.min_le_left n k.number
  have among : ∀ (l : List (Option KeyMark)) (n : Nat), l.foldl readyBefore n ≤ n := by
    intro l
    induction l with
    | nil => exact fun n => Nat.le_refl n
    | cons k r ih => exact fun n => Nat.le_trans (ih (readyBefore n k)) (before n k)
  exact Nat.le_trans (among s.outerMarks _) (before s.count s.keyMark)

end TxLoad.Yaml
