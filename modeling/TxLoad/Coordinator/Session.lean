import TxLoad.Coordinator.Step
import TxLoad.Message.Stream

namespace TxLoad

/-!
# Sessions with a coordinator

A session is a coordinator whose peers send bytes, on a clock that waits until the coordinator has
nothing more to do. The far ends of the links have names of their own.

* `Session.settle` lets the coordinator do whatever it can at the present instant;
* `connect`, `send`, `close`, `advance` and `interrupt` act on it from outside.
-/

/-- The far end of a link: the peer that it belongs to, and the bytes of a line that is not
    complete. -/
structure SessionLink where
  name : Nat
  peer : Nat
  pending : List UInt8 := []
  deriving DecidableEq, Repr

structure Session where
  coordinator : Coordinator
  links : List SessionLink := []

namespace Session

/-- The coordinator's next event of its own making: what has arrived is read first, in the order of
    the peers, and the deadline comes last. -/
def nextEvent? (c : Coordinator) : Option CoordinatorEvent :=
  -- An interrupt waits until everything that has arrived is read.
  let reads := (List.range c.peers.length).map CoordinatorEvent.read
  let events := reads ++ [CoordinatorEvent.heed, CoordinatorEvent.expire]
  events.find? c.canHappen

/-- At most `fuel` events of the coordinator's own making. -/
def settleFor : (fuel : Nat) → Coordinator → Coordinator
  | 0, c => c
  | fuel + 1, c =>
    match nextEvent? c with
    | some e => settleFor fuel (c.step e)
    | none => c

/-- A bound on the events of the coordinator's own making at one instant: each reads something that
    has arrived, heeds an interrupt, or ends one of four phases. -/
def budget (c : Coordinator) : Nat := (c.peers.map (·.inbox.length)).foldl (· + ·) 6

/-- Lets the coordinator do whatever it can at the present instant. -/
def settle (c : Coordinator) : Coordinator := settleFor (budget c) c

/-- A session of a coordinator that has just been started. -/
def start (c : Coordinator) : Session := ⟨settle c, []⟩

def link? (s : Session) (name : Nat) : Option SessionLink := s.links.find? (·.name == name)

/-- An event from outside, and what the coordinator then does. -/
def apply (s : Session) (e : CoordinatorEvent) : Session :=
  { s with coordinator := settle (s.coordinator.step e) }

/-- Opens a link under the given name, if the coordinator accepts it. -/
def connect (s : Session) (name : Nat) : Option Session :=
  match s.coordinator.phase with
  | .accepting _ =>
    let peer := s.coordinator.peers.length
    some { s.apply .connect with links := ⟨name, peer, []⟩ :: s.links }
  | _ => none

/-- Puts readings into the inbox of a peer, one after the other. -/
def deliver (s : Session) (peer : Nat) (readings : List Reading) : Session :=
  let c := readings.foldl (fun c r => c.step (.arrive peer r)) s.coordinator
  { s with coordinator := settle c }

/-- Replaces the state of a link. -/
def setLink (s : Session) (l : SessionLink) : Session :=
  { s with links := s.links.map fun k => if k.name = l.name then l else k }

/-- Sends bytes over a link. -/
def send (s : Session) (l : SessionLink) (bytes : List UInt8) : Session :=
  let (readings, pending) := Message.feed l.pending bytes
  (s.setLink { l with pending }).deliver l.peer readings

/-- Ends the bytes of a link. -/
def close (s : Session) (l : SessionLink) : Session :=
  (s.setLink { l with pending := [] }).deliver l.peer (Message.finish l.pending)

/-- Lets time pass in one go: a deadline on the way takes effect at its end. -/
def advance (s : Session) (ms : Nat) : Session :=
  { s with coordinator := settle { s.coordinator with now := s.coordinator.now + ms } }

def interrupt (s : Session) : Session := s.apply .interrupt

/-- Whether the coordinator keeps a link. -/
def isKept (s : Session) (l : SessionLink) : Bool := s.coordinator.isKept l.peer

/-- The messages that have reached the far end of a link. -/
def received (s : Session) (l : SessionLink) : List Message :=
  s.coordinator.deliveredTo l.peer

end Session

end TxLoad
