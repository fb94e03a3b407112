import TxLoad.Yaml.Tag

namespace TxLoad.Yaml

/-!
# The events of a document

A document is a tree of scalars, sequences and mappings. It is kept as the events of a walk through
that tree, each with its place, so that a document that breaks off is kept as far as it goes.

* `Event` is an event, `Placed` an event with its place;
* `Document` is what a text holds;
* `Document.resolve` follows a reference to the value that it stands for.

A value may be given an anchor, which is a number, and be referred to elsewhere.
-/

/-- How a scalar is written. -/
inductive Style where
  | plain
  | singleQuoted
  | doubleQuoted
  | literal
  | folded
  deriving DecidableEq, Repr

inductive Event where
  | scalar (style : Style) (tag : Option Tag) (text : String)
  /-- The value with the given anchor. -/
  | reference (id : Nat)
  | sequenceStart (tag : Option Tag)
  | sequenceEnd
  | mappingStart (tag : Option Tag)
  | mappingEnd
  deriving DecidableEq, Repr

/-- Nothing where a value might stand. -/
def Event.empty : Event := .scalar .plain none ""

/-- How many collections are open after an event, given how many were before it. -/
def Event.depthAfter (depth : Nat) : Event → Nat
  | sequenceStart _ => depth + 1
  | mappingStart _ => depth + 1
  | sequenceEnd => depth - 1
  | mappingEnd => depth - 1
  | _ => depth

/-- An event, where it starts, and the anchor of the value that it starts. -/
structure Placed where
  event : Event
  position : Position
  anchor : Option Nat := none
  deriving DecidableEq, Repr

/-- What a text holds: the events of its first document as far as it can be read, what is wrong
    behind them, and whether there is a further document. -/
structure Document where
  events : List Placed := []
  fault : Option Fault := none
  continues : Bool := false
  deriving Repr

namespace Document

/-- Why there is no further event. -/
def ending (d : Document) : Fault := d.fault.getD .incomplete

/-! ### References -/

/-- The events from the last value with the given anchor on. An anchor stands before its value, so
    that those inside the value are later. -/
def anchored? (id : Nat) : List Placed → Option (List Placed)
  | [] => none
  | e :: r =>
    (anchored? id r).orElse fun _ => if e.anchor = some id then some (e :: r) else none

/-- The events that the given ones stand for: those of the value that they refer to, if they start
    with a reference. -/
def resolve (d : Document) (events : List Placed) : List Placed :=
  match events with
  | ⟨.reference id, _, _⟩ :: _ => (anchored? id d.events).getD []
  | _ => events

/-! ### Values -/

/-- The first event of the value at the start of some events, and what follows that event. -/
def value (d : Document) (events : List Placed) : Except Fault (Placed × List Placed) :=
  match d.resolve events with
  | e :: r => .ok (e, r)
  | [] => .error d.ending

/-- What follows the value at the start of some events, inside so many collections of it. -/
def skip (d : Document) : (depth : Nat) → List Placed → Except Fault (List Placed)
  | _, [] => .error d.ending
  | depth, e :: r =>
    let depth := e.event.depthAfter depth
    if depth = 0 then .ok r else skip d depth r

/-! ### References lead to values -/

/-- An anchored value is found where it stands. -/
theorem anchored?_singleton (id : Nat) (e : Event) (p : Position) :
    anchored? id [⟨e, p, some id⟩] = some [⟨e, p, some id⟩] := by
  simp [anchored?]

/-- A reference stands for what follows the anchor. -/
theorem resolve_reference {d : Document} {id : Nat} {p : Position} {events r : List Placed}
    (h : anchored? id d.events = some events) :
    d.resolve (⟨.reference id, p, none⟩ :: r) = events := by
  simp [resolve, h]

/-- A scalar is skipped as a whole. -/
theorem skip_scalar (d : Document) (style : Style) (tag : Option Tag) (s : String)
    (p : Position) (anchor : Option Nat) (r : List Placed) :
    d.skip 0 (⟨.scalar style tag s, p, anchor⟩ :: r) = .ok r := by
  simp [skip, Event.depthAfter]

end Document

end TxLoad.Yaml
