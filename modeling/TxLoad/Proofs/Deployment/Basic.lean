import TxLoad.Proofs.Coordinator.Flow
import TxLoad.Proofs.Worker.Flow
import Mathlib.Logic.Function.Basic

namespace TxLoad

/-!
# A coordinator and its workers

A deployment is a coordinator, some workers, and the links between them. Each of them acts when it
likes, what was sent over a link arrives in the order of sending, and every link may end at any
time, in one direction or in both.

* `Link` is one direction of a link, `Link.next?` what arrives over it next;
* `Member` is a worker with its links, `Deployment` the whole system;
* `Deployment.step` is the answer to an event; one that is not possible changes nothing.

The clocks of a deployment have nothing to do with each other.
-/

/-- One direction of a link: how many of the messages that were sent have arrived, and the fault
    that has ended it, if one has. -/
structure Link where
  carried : Nat := 0
  fault : Option Reading := none
  deriving DecidableEq, Repr

namespace Link

/-- What arrives next over a link: the given fault, which ends it, or else the next message. -/
def next? (l : Link) (sent : List Message) (fault : Option Reading) : Option (Reading × Link) :=
  match l.fault, fault with
  -- Nothing arrives over a link that has ended.
  | some _, _ => none
  | none, none => (sent[l.carried]?).map fun m => (.message m, { l with carried := l.carried + 1 })
  | none, some (.message _) => none
  | none, some r => some (r, { l with fault := some r })

/-- What has arrived over a link is what was sent first, and the fault that has ended it. -/
structure Carries (l : Link) (sent : List Message) (arrived : List Reading) : Prop where
  bounded : l.carried ≤ sent.length
  arrived_eq : arrived = (sent.take l.carried).map .message ++ l.fault.toList
  fault : ∀ m, l.fault ≠ some (.message m)

variable {l k : Link} {sent sent' : List Message} {arrived : List Reading} {r : Reading}

namespace Carries

/-- Nothing arrives over a new link. -/
theorem new (sent : List Message) : Carries {} sent [] :=
  ⟨Nat.zero_le _, rfl, fun _ h => by cases h⟩

/-- Sending more changes nothing for what has arrived. -/
theorem grow (h : l.Carries sent arrived) (hs : sent <+: sent') : l.Carries sent' arrived := by
  refine ⟨Nat.le_trans h.bounded hs.length_le, ?_, h.fault⟩
  obtain ⟨more, rfl⟩ := hs
  rw [h.arrived_eq, List.take_append_of_le_length h.bounded]

/-- The next thing arrives. -/
theorem next {fault : Option Reading} (h : l.Carries sent arrived)
    (hn : l.next? sent fault = some (r, k)) : k.Carries sent (arrived ++ [r]) := by
  cases hl : l.fault with
  | some _ => simp [next?, hl] at hn
  | none =>
    have harrived : arrived = (sent.take l.carried).map .message := by
      rw [h.arrived_eq, hl, Option.toList_none, List.append_nil]
    cases fault with
    | none =>
      simp only [next?, hl, Option.map_eq_some_iff, Prod.mk.injEq] at hn
      obtain ⟨m, hm, rfl, rfl⟩ := hn
      obtain ⟨hlt, rfl⟩ := List.getElem?_eq_some_iff.mp hm
      refine ⟨hlt, ?_, fun m => by simp⟩
      rw [harrived, ← List.take_append_getElem hlt, List.map_append, Option.toList_none,
        List.append_nil]
      rfl
    | some f =>
      cases f with
      | message m => simp [next?, hl] at hn
      | _ =>
        simp only [next?, hl, Option.some.injEq, Prod.mk.injEq] at hn
        obtain ⟨rfl, rfl⟩ := hn
        exact ⟨h.bounded, by simp [harrived], fun m => by simp⟩

/-- The messages before one that has arrived were sent before it. -/
theorem exists_prefix {m : Message} {pre post : List Reading} (h : l.Carries sent arrived)
    (hm : arrived = pre ++ .message m :: post) :
    ∃ ms, pre = ms.map .message ∧ ms ++ [m] <+: sent := by
  have harrived := h.arrived_eq
  rw [hm] at harrived
  -- The message is not the fault, which is the last.
  have hpre : pre ++ [.message m] <+: (sent.take l.carried).map .message := by
    cases hl : l.fault with
    | none =>
      rw [hl, Option.toList_none, List.append_nil] at harrived
      exact ⟨post, by rw [← harrived]; simp⟩
    | some f =>
      rw [hl, Option.toList_some] at harrived
      rcases List.eq_nil_or_concat post with rfl | ⟨post, f', rfl⟩
      · have hf := (List.append_inj' harrived rfl).2
        exact absurd (hl.trans (congrArg some (List.cons.inj hf).1.symm)) (h.fault m)
      · rw [List.concat_eq_append, ← List.cons_append, ← List.append_assoc] at harrived
        have hinit := (List.append_inj' harrived rfl).1
        exact ⟨post, by rw [← hinit]; simp⟩
  obtain ⟨ms, hms, hmap⟩ := List.prefix_map_iff.mp hpre
  obtain ⟨ms', ms'', rfl, hms', hm'⟩ := List.map_eq_append_iff.mp hmap.symm
  obtain ⟨m', rfl, hm'⟩ := List.map_eq_singleton_iff.mp hm'
  cases hm'
  exact ⟨ms', hms'.symm, hms.trans (List.take_prefix _ _)⟩

/-- What has arrived besides messages is the fault, before which all that was carried has arrived. -/
theorem of_fault {pre post : List Reading} (h : l.Carries sent (pre ++ r :: post))
    (hr : ∀ m, r ≠ .message m) :
    l.fault = some r ∧ pre = (sent.take l.carried).map .message := by
  have hnot : r ∉ (sent.take l.carried).map .message := by
    intro hmem
    obtain ⟨m, -, rfl⟩ := List.mem_map.mp hmem
    exact hr m rfl
  have harrived := h.arrived_eq
  cases hl : l.fault with
  | none =>
    rw [hl, Option.toList_none, List.append_nil] at harrived
    rw [← harrived] at hnot
    exact absurd (by simp) hnot
  | some f =>
    rw [hl, Option.toList_some] at harrived
    rcases List.eq_nil_or_concat post with rfl | ⟨post, f', rfl⟩
    · obtain ⟨hpre, hf⟩ := List.append_inj' harrived rfl
      exact ⟨congrArg some (List.cons.inj hf).1.symm, hpre⟩
    · rw [List.concat_eq_append, ← List.cons_append, ← List.append_assoc] at harrived
      rw [← (List.append_inj' harrived rfl).1] at hnot
      exact absurd (by simp) hnot

/-- A message that has arrived was sent. -/
theorem mem {m : Message} (h : l.Carries sent arrived) (hm : .message m ∈ arrived) :
    m ∈ sent := by
  obtain ⟨pre, post, harrived⟩ := List.append_of_mem hm
  obtain ⟨ms, -, hms⟩ := h.exists_prefix harrived
  exact hms.subset (by simp)

end Carries

end Link

/-- A worker of a deployment. -/
structure Member where
  worker : Worker
  /-- The peer that it is to the coordinator, once its link was accepted. -/
  peer? : Option Nat := none
  /-- The link to the coordinator. -/
  up : Link := {}
  /-- The link from the coordinator. -/
  down : Link := {}

structure Deployment (n : Nat) where
  coordinator : Coordinator
  members : Fin n → Member

inductive DeploymentEvent (n : Nat) where
  /-- The coordinator acts. -/
  | coordinate (e : CoordinatorEvent)
  /-- A worker acts. -/
  | operate (i : Fin n) (e : WorkerEvent)
  /-- The coordinator accepts the link of a worker. -/
  | accept (i : Fin n)
  /-- The coordinator gets the next message of a worker, or the link ends. -/
  | ascend (i : Fin n) (fault : Option Reading)
  /-- A worker gets the next message of the coordinator, or the link ends. -/
  | descend (i : Fin n) (fault : Option Reading)

namespace Deployment

variable {n : Nat}

/-- A coordinator and workers that have just been started: their setups, and when that was. -/
def start (c : Coordinator) (crew : Fin n → WorkerSetup × Nat) : Deployment n where
  coordinator := c
  members i := { worker := Worker.start (crew i).1 (crew i).2 }

/-- The deployment in which a worker or its links have changed. -/
def set (d : Deployment n) (i : Fin n) (m : Member) : Deployment n :=
  { d with members := Function.update d.members i m }

/-- The answer to an event. -/
def step (d : Deployment n) : DeploymentEvent n → Deployment n
  -- What comes from outside is up to the links.
  | .coordinate e => if e.isInner then { d with coordinator := d.coordinator.step e } else d
  | .operate i e =>
    let m := d.members i
    if e.isInner then d.set i { m with worker := m.worker.step e } else d
  | .accept i =>
    let m := d.members i
    match m.peer?, d.coordinator.phase with
    | none, .accepting _ =>
      { d with coordinator := d.coordinator.step .connect }.set i
        { m with peer? := some d.coordinator.peers.length }
    | _, _ => d
  | .ascend i fault =>
    let m := d.members i
    match m.peer?, m.up.next? m.worker.sent fault with
    | some q, some (r, up) =>
      { d with coordinator := d.coordinator.step (.arrive q r) }.set i { m with up }
    | _, _ => d
  | .descend i fault =>
    let m := d.members i
    match m.peer? with
    | some q =>
      match m.down.next? (d.coordinator.deliveredTo q) fault with
      | some (r, down) => d.set i { m with worker := m.worker.step (.arrive r), down }
      | none => d
    | none => d

/-- The answer to a sequence of events. -/
def run (d : Deployment n) (es : List (DeploymentEvent n)) : Deployment n := es.foldl step d

/-- The id of a member, if it is a worker to the coordinator. -/
def idOf? (d : Deployment n) (i : Fin n) : Option Nat :=
  (d.members i).peer?.bind d.coordinator.idOf?

end Deployment

end TxLoad
