import TxLoad.Yaml.Token

namespace TxLoad.Yaml

/-!
# Reading a document

The tokens of a text are read as the events of a document, as far as they go. A text holds one
document at most.

* `Input` is what is left to read and what has been read, `Reader` reads something from it;
* `node` reads a value, the other readers of its block the parts of a collection, with fuel;
* `Document.read` reads a whole text.

An event is kept as soon as it is read, so that what stands before a fault is not lost.
-/

/-- What is left to read, the numbers of the anchors so far, and the events so far, the latest
    first. -/
structure Input where
  tokens : List Lexeme
  fault : Option Fault
  handles : Handles := []
  anchors : List (String × Nat) := []
  events : List Placed := []

/-- Reads something, or tells what is wrong. -/
abbrev Reader := ExceptT Fault (StateM Input)

namespace Reader

/-- The next token. -/
def peek : Reader Lexeme := do
  let input ← get
  match input.tokens with
  | l :: _ => return l
  | [] => throw (input.fault.getD .incomplete)

/-- Passes over the next token. -/
def skip : Reader Unit := modify fun i => { i with tokens := i.tokens.drop 1 }

/-- Reads an event at a position, which may start a value with an anchor. -/
def emit (e : Event) (p : Position) (anchor : Option Nat) : Reader Unit :=
  modify fun i => { i with events := ⟨e, p, anchor⟩ :: i.events }

/-- The number of an anchor. A name that is used again takes a new number, which is the number of
    the names in use. -/
def declare (name : String) : Reader Nat := do
  let input ← get
  let others := input.anchors.filter (·.1 != name)
  let id := input.anchors.length
  set { input with anchors := (name, id) :: others }
  return id

/-- Reads an event that starts a value, which may have an anchor. -/
def begin (e : Event) (p : Position) (anchor : Option String) : Reader Unit := do
  match anchor with
  | some name => emit e p (some (← declare name))
  | none => emit e p none

/-- Reads a value that is left out. -/
def leaveOut (p : Position) : Reader Unit := emit .empty p none

/-- Reads a reference, whose anchor must stand before it. -/
def referTo (name : String) (p : Position) : Reader Unit := do
  match (← get).anchors.lookup name with
  | some id => emit (.reference id) p none
  | none => throw (.unknownAnchor p)

/-- Tells what is wrong at a token, in what started at a position. -/
def refuse (l : Lexeme) (problem : Problem) (reading : Reading) (start : Position) : Reader α :=
  throw (.malformed problem l.start (some (reading, start)))

end Reader

open Reader

/-! ### Properties -/

/-- What may stand before a value: an anchor and a tag, in either order. -/
structure Properties where
  anchor : Option String := none
  tag : Option (TagWord × Position) := none

def Properties.isEmpty (p : Properties) : Bool := p.anchor.isNone && p.tag.isNone

/-- Reads at most one anchor and one tag. -/
def properties : Reader Properties := do
  match ← peek with
  | ⟨.anchor a, _⟩ =>
    skip
    match ← peek with
    | ⟨.tag t, p⟩ =>
      skip
      return { anchor := some a, tag := some (t, p) }
    | _ => return { anchor := some a }
  | ⟨.tag t, p⟩ =>
    skip
    match ← peek with
    | ⟨.anchor a, _⟩ =>
      skip
      return { anchor := some a, tag := some (t, p) }
    | _ => return { tag := some (t, p) }
  | _ => return {}

/-- The name that a written tag stands for. -/
def resolveTag (tag : Option (TagWord × Position)) (start : Position) : Reader (Option Tag) := do
  match tag with
  | none => return none
  | some (word, p) =>
    match word.resolve? (← get).handles with
    | some tag => return some tag
    | none => throw (.malformed .unknownHandle p (some (.node, start)))

/-! ### Values -/

mutual

/-- Reads a value: a reference, or a scalar or a collection with its properties. In a block the
    items of a sequence need no indentation of their own behind a key. -/
def node (block bare : Bool) : (fuel : Nat) → Reader Unit
  | 0 => throw .incomplete
  | fuel + 1 => do
    match ← peek with
    | ⟨.reference name, p⟩ =>
      skip
      referTo name p
    | ⟨_, start⟩ =>
      let found ← properties
      let tag ← resolveTag found.tag start
      content block bare found tag start fuel

/-- Reads a value behind its properties. Behind a property there may be nothing. -/
def content (block bare : Bool) (found : Properties) (tag : Option Tag) (start : Position) :
    (fuel : Nat) → Reader Unit
  | 0 => throw .incomplete
  | fuel + 1 => do
    let l ← peek
    match l.token with
    | .scalar style text =>
      skip
      -- The tag of a single exclamation mark says nothing.
      begin (.scalar style (tag.filter (· != Tag.ofString "!")) text) start found.anchor
    | .flowSequenceStart =>
      begin (.sequenceStart tag) start found.anchor
      skip
      flowItems l.start true fuel
    | .flowMappingStart =>
      begin (.mappingStart tag) start found.anchor
      skip
      flowEntries l.start true fuel
    | t =>
      if bare && t = .item then
        begin (.sequenceStart tag) start found.anchor
        bareItems fuel
      else if block && t = .sequenceStart then
        begin (.sequenceStart tag) start found.anchor
        skip
        items l.start fuel
      else if block && t = .mappingStart then
        begin (.mappingStart tag) start found.anchor
        skip
        entries l.start fuel
      else if !found.isEmpty then begin (.scalar .plain tag "") start found.anchor
      else refuse l .noContent (if block then .blockNode else .flowNode) start

/-- Reads a value in a block behind a token, or nothing if one of the given tokens comes next. -/
def nodeUnless (bare : Bool) (before : Lexeme) (ends : List Token) : (fuel : Nat) → Reader Unit
  | 0 => throw .incomplete
  | fuel + 1 => do
    if ends.contains (← peek).token then leaveOut before.behind
    else node true bare fuel

/-- Reads the items of a block sequence through its end. -/
def items (start : Position) : (fuel : Nat) → Reader Unit
  | 0 => throw .incomplete
  | fuel + 1 => do
    let l ← peek
    match l.token with
    | .item =>
      skip
      nodeUnless false l [.item, .blockEnd] fuel
      items start fuel
    | .blockEnd =>
      skip
      emit .sequenceEnd l.start none
    | _ => refuse l .noItem .blockSequence start

/-- Reads the items of a sequence that is no block of its own. -/
def bareItems : (fuel : Nat) → Reader Unit
  | 0 => throw .incomplete
  | fuel + 1 => do
    let l ← peek
    match l.token with
    | .item =>
      skip
      nodeUnless false l [.item, .key, .value, .blockEnd] fuel
      bareItems fuel
    | _ => emit .sequenceEnd l.start none

/-- Reads the entries of a block mapping through its end. -/
def entries (start : Position) : (fuel : Nat) → Reader Unit
  | 0 => throw .incomplete
  | fuel + 1 => do
    let l ← peek
    match l.token with
    | .key =>
      skip
      nodeUnless true l [.key, .value, .blockEnd] fuel
      blockValue fuel
      entries start fuel
    | .blockEnd =>
      skip
      emit .mappingEnd l.start none
    | _ => refuse l .noKey .blockMapping start

/-- Reads what follows a key in a block. -/
def blockValue : (fuel : Nat) → Reader Unit
  | 0 => throw .incomplete
  | fuel + 1 => do
    let l ← peek
    match l.token with
    | .value =>
      skip
      nodeUnless true l [.key, .value, .blockEnd] fuel
    | _ => leaveOut l.start

/-- Reads what follows a key in flow style: a value, which may be nothing before a comma or the end
    of the collection, or no value at all. -/
def flowValue (close : Token) : (fuel : Nat) → Reader Unit
  | 0 => throw .incomplete
  | fuel + 1 => do
    let l ← peek
    match l.token with
    | .value =>
      skip
      let l ← peek
      if l.token = .comma ∨ l.token = close then leaveOut l.start
      else node false false fuel
    | _ => leaveOut l.start

/-- Reads the items of a sequence in flow style through its end. -/
def flowItems (start : Position) (first : Bool) : (fuel : Nat) → Reader Unit
  | 0 => throw .incomplete
  | fuel + 1 => do
    let l ← peek
    if l.token = .flowSequenceEnd then
      skip
      emit .sequenceEnd l.start none
    else
      unless first do
        unless l.token = .comma do refuse l .openSequence .flowSequence start
        skip
      let l ← peek
      match l.token with
      | .flowSequenceEnd =>
        skip
        emit .sequenceEnd l.start none
      | .key =>
        skip
        emit (.mappingStart none) l.start none
        flowPair fuel
        flowItems start false fuel
      | _ =>
        node false false fuel
        flowItems start false fuel

/-- Reads an entry that stands alone in a sequence in flow style, behind the token of its key. If
    the key is missing, the token behind it is passed over. -/
def flowPair : (fuel : Nat) → Reader Unit
  | 0 => throw .incomplete
  | fuel + 1 => do
    let l ← peek
    if [.value, .comma, .flowSequenceEnd].contains l.token then
      skip
      leaveOut l.behind
    else node false false fuel
    flowValue .flowSequenceEnd fuel
    emit .mappingEnd (← peek).start none

/-- Reads the entries of a mapping in flow style through its end. -/
def flowEntries (start : Position) (first : Bool) : (fuel : Nat) → Reader Unit
  | 0 => throw .incomplete
  | fuel + 1 => do
    let l ← peek
    if l.token = .flowMappingEnd then
      skip
      emit .mappingEnd l.start none
    else
      unless first do
        unless l.token = .comma do refuse l .openMapping .flowMapping start
        skip
      let l ← peek
      match l.token with
      | .flowMappingEnd =>
        skip
        emit .mappingEnd l.start none
      | .key =>
        skip
        flowEntry fuel
        flowEntries start false fuel
      | _ =>
        node false false fuel
        leaveOut (← peek).start
        flowEntries start false fuel

/-- Reads an entry of a mapping in flow style behind the token of its key. -/
def flowEntry : (fuel : Nat) → Reader Unit
  | 0 => throw .incomplete
  | fuel + 1 => do
    let l ← peek
    if [.value, .comma, .flowMappingEnd].contains l.token then leaveOut l.start
    else node false false fuel
    flowValue .flowMappingEnd fuel

end

/-! ### Documents -/

/-- Reads the directives before a document. -/
def directives (d : Directives) : (fuel : Nat) → Reader Directives
  | 0 => throw .incomplete
  | fuel + 1 => do
    match ← peek with
    | ⟨.directive next, p⟩ =>
      match d.add next with
      | .error problem => throw (.malformed problem p none)
      | .ok d =>
        skip
        directives d fuel
    | _ => return d

/-- Whether a token stands between documents. -/
def Token.isBoundary : Token → Bool
  | .directive _ | .documentStart | .documentEnd | .textEnd => true
  | _ => false

/-- Reads a document behind its directives: a value, which may be nothing behind a marker. -/
def body (marked : Bool) (fuel : Nat) : Reader Unit := do
  if marked then
    let l ← peek
    unless l.token = .documentStart do throw (.malformed .noDocumentStart l.start none)
    skip
    let l ← peek
    if l.token.isBoundary then leaveOut l.start else node true false fuel
  else node true false fuel

/-- Reads the first document of a text through its end. -/
def document (fuel : Nat) : Reader Unit := do
  let l ← peek
  if l.token = .textEnd then return ()
  else
    let marked := l.token.isBoundary && l.token != .documentEnd
    let d ← directives {} fuel
    modify fun i => { i with handles := d.meanings }
    body marked fuel
    let l ← peek
    if l.token = .documentEnd then skip

/-- Whether anything but end markers follows a document. -/
def hasMore (input : Input) : Bool :=
  match input.tokens.dropWhile (·.token == .documentEnd) with
  | l :: _ => l.token != .textEnd
  | [] => true

/-- The document of the given tokens. No token takes part in more than four steps. -/
def Document.ofLexemes (l : Lexemes) : Document :=
  let reader := document (4 * l.list.length + 8)
  match reader.run.run { tokens := l.list, fault := l.fault } with
  | (.ok (), input) => { events := input.events.reverse, continues := hasMore input }
  | (.error fault, input) => { events := input.events.reverse, fault := some fault }

/-- The document of a text. -/
def Document.read (text : String) : Document := .ofLexemes (lexemes text)

/-- A text without tokens but its end holds no value. -/
theorem Document.ofLexemes_textEnd (p : Position) :
    Document.ofLexemes ⟨[⟨.textEnd, p⟩], none⟩ = {} := rfl

end TxLoad.Yaml
