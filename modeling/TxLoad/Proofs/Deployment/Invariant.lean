import TxLoad.Client.KeyValue
import TxLoad.Proofs.Deployment.Basic
import TxLoad.Proofs.Coordinator.Delivered
import TxLoad.Proofs.Worker.Reports
import Mathlib.Data.Fintype.EquivFin

namespace TxLoad

/-!
# What holds of a deployment at all times

Coordinator and workers keep their own invariants, and the links tie what the one has read to what
the other has written.

* `Member.Inv` relates a worker to the coordinator: what has arrived was sent, and a worker that was
  acknowledged has succeeded.
* `Member.Inv.of_ack`: whoever is about to be acknowledged waits for it, or has stopped waiting.
* `Deployment.Inv.step`, `Deployment.Inv.run`: the invariant holds in every run.
* `Deployment.Inv.exists_id`: if there are as many workers as members, every member has an id.
-/

namespace Member

variable {m : Member} {c d : Coordinator}

/-- The links of a member that is the peer `q`. -/
structure Linked (m : Member) (c : Coordinator) (q : Nat) : Prop where
  lt : q < c.peers.length
  up : m.up.Carries m.worker.sent (c.heardFrom q ++ c.inbox q)
  down : m.down.Carries (c.deliveredTo q) (m.worker.heard ++ m.worker.inbox)

/-- Nothing has passed between the coordinator and a member whose link it has not accepted. -/
structure Unlinked (m : Member) : Prop where
  up : m.up = {}
  down : m.down = {}
  arrived : m.worker.heard ++ m.worker.inbox = []

/-- **The invariant** of a member. -/
structure Inv (m : Member) (c : Coordinator) : Prop where
  worker : m.worker.Inv
  unlinked : m.peer? = none → m.Unlinked
  linked : ∀ q, m.peer? = some q → m.Linked c q
  acked : .message .ack ∈ m.worker.heard → ∃ last, m.worker.phase = .stopped (.ok last)

/-- What the coordinator does by itself. -/
theorem Inv.flows (h : m.Inv c) (hf : c.Flows d) : m.Inv d where
  worker := h.worker
  unlinked := h.unlinked
  linked q hq := by
    have hl := h.linked q hq
    exact ⟨hf.peers ▸ hl.lt, (hf.arrived q).symm ▸ hl.up, hl.down.grow (hf.deliveredTo q)⟩
  acked := h.acked

/-- **The last word.** Whoever is acknowledged, or is about to be, has completed with its last
    report, and waits for the acknowledgement unless it has stopped. -/
theorem Inv.of_ack (h : m.Inv c) (hc : c.Inv)
    (hm : .message .ack ∈ m.worker.heard ++ m.worker.inbox) :
    ∃ q id e, m.peer? = some q ∧ c.workers[id]? = some q ∧ c.collector.entryOf? id = some e ∧
      e.status = .completed ∧ ((∃ deadline, m.worker.phase = .finishing e.report deadline) ∨
        m.worker.phase = .stopped (.ok e.report)) := by
  cases hq : m.peer? with
  | none =>
    rw [(h.unlinked hq).arrived] at hm
    cases hm
  | some q =>
    have hl := h.linked q hq
    obtain ⟨id, e, hid, he, hs, hlast, hheard⟩ := hc.of_ack (hl.down.mem hm)
    have hsent := hl.up.mem (List.mem_append_left _ hheard)
    exact ⟨q, id, e, rfl, hid, he, hs, h.worker.of_completed_sent hsent hlast⟩

/-- A worker that reads an acknowledgement has succeeded. -/
theorem Inv.acked_step (h : m.Inv c) (hc : c.Inv) {e : WorkerEvent} (he : e.isInner = true)
    (hm : .message .ack ∈ (m.worker.step e).heard) :
    ∃ last, (m.worker.step e).phase = .stopped (.ok last) := by
  by_cases hbefore : .message .ack ∈ m.worker.heard
  · obtain ⟨last, hp⟩ := h.acked hbefore
    exact ⟨last, (Worker.step_of_stopped hp e).1⟩
  · have hflow := (Worker.Flows.step m.worker he).arrived
    have harrived : .message .ack ∈ m.worker.heard ++ m.worker.inbox :=
      hflow ▸ List.mem_append_left _ hm
    obtain ⟨q, id, entry, -, -, -, -, ⟨deadline, hp⟩ | hp⟩ := h.of_ack hc harrived
    · rcases m.worker.keeps_step he with hkeep | ⟨r, inbox, -, -, -, hstep⟩
      · exact absurd (hkeep.heard ▸ hm) hbefore
      · -- It is the acknowledgement that is read, and this ends the wait.
        have hphase : (m.worker.took r inbox).phase = .finishing entry.report deadline := hp
        have hread := Worker.keeps_onRead (m.worker.took r inbox) r
        rw [hstep, hread.heard] at hm
        obtain rfl : .message .ack = r := by
          simpa [Worker.took, hbefore] using hm
        refine ⟨entry.report, ?_⟩
        rw [hstep]
        simp only [Worker.onRead, hphase, Worker.onFinishing, Worker.stop]
    · exact ⟨_, (Worker.step_of_stopped hp e).1⟩

/-- What a worker does by itself. -/
theorem Inv.operate (h : m.Inv c) (hc : c.Inv) {e : WorkerEvent} (he : e.isInner = true) :
    { m with worker := m.worker.step e }.Inv c := by
  have hf := Worker.Flows.step m.worker he
  refine ⟨h.worker.step e, fun hq => ?_, fun q hq => ?_, h.acked_step hc he⟩
  · have hu := h.unlinked hq
    exact ⟨hu.up, hu.down, hf.arrived.trans hu.arrived⟩
  · have hl := h.linked q hq
    exact ⟨hl.lt, hl.up.grow hf.sent, hf.arrived.symm ▸ hl.down⟩

/-- Something arrives at the worker. -/
theorem Inv.descend (h : m.Inv c) {q : Nat} (hq : m.peer? = some q) {fault : Option Reading}
    {r : Reading} {down : Link} (hn : m.down.next? (c.deliveredTo q) fault = some (r, down)) :
    { m with worker := m.worker.step (.arrive r), down }.Inv c := by
  refine ⟨h.worker.step (.arrive r), fun hq' => ?_, fun q' hq' => ?_, h.acked⟩
  · rw [hq] at hq'
    cases hq'
  · obtain rfl : q = q' := Option.some.inj (hq.symm.trans hq')
    have hl := h.linked q hq
    refine ⟨hl.lt, hl.up, ?_⟩
    have harrived : (m.worker.step (.arrive r)).heard ++ (m.worker.step (.arrive r)).inbox =
        m.worker.heard ++ m.worker.inbox ++ [r] := (List.append_assoc _ _ _).symm
    rw [harrived]
    exact hl.down.next hn

/-- Something arrives from the worker at the coordinator. -/
theorem Inv.ascend (h : m.Inv c) {q : Nat} (hq : m.peer? = some q) {fault : Option Reading}
    {r : Reading} {up : Link} (hn : m.up.next? m.worker.sent fault = some (r, up)) :
    { m with up }.Inv (c.step (.arrive q r)) := by
  refine ⟨h.worker, fun hq' => ?_, fun q' hq' => ?_, h.acked⟩
  · rw [hq] at hq'
    cases hq'
  · obtain rfl : q = q' := Option.some.inj (hq.symm.trans hq')
    have hl := h.linked q hq
    refine ⟨?_, ?_, hl.down⟩
    · simpa [Coordinator.step_arrive, Coordinator.modifyPeer] using hl.lt
    · rw [Coordinator.arrived_arrive c hl.lt, if_pos rfl]
      exact hl.up.next hn

/-- Something arrives from another peer. -/
theorem Inv.other (h : m.Inv c) {p : Nat} (hp : p < c.peers.length) (hne : m.peer? ≠ some p)
    (r : Reading) : m.Inv (c.step (.arrive p r)) := by
  refine ⟨h.worker, h.unlinked, fun q hq => ?_, h.acked⟩
  have hl := h.linked q hq
  refine ⟨?_, ?_, hl.down⟩
  · simpa [Coordinator.step_arrive, Coordinator.modifyPeer] using hl.lt
  · have hqp : q ≠ p := fun hqp => hne (hqp ▸ hq)
    rw [Coordinator.arrived_arrive c hp, if_neg hqp, List.append_nil]
    exact hl.up

/-- Another peer connects. -/
theorem Inv.welcome (h : m.Inv c) : m.Inv c.welcome := by
  refine ⟨h.worker, h.unlinked, fun q hq => ?_, h.acked⟩
  have hl := h.linked q hq
  refine ⟨?_, (c.inbox_welcome q).symm ▸ hl.up, hl.down⟩
  rw [c.length_peers_welcome]
  exact Nat.lt_succ_of_lt hl.lt

/-- The coordinator accepts the link of the worker. -/
theorem Inv.accept (h : m.Inv c) (hb : c.Basics) (hq : m.peer? = none) :
    { m with peer? := some c.peers.length }.Inv c.welcome := by
  have hu := h.unlinked hq
  obtain ⟨hwritten, hheard⟩ := hb.of_le (Nat.le_refl _)
  refine ⟨h.worker, fun hq => (by cases hq), fun q hq => ?_, h.acked⟩
  cases hq
  refine ⟨?_, ?_, ?_⟩
  · rw [c.length_peers_welcome]
    exact Nat.lt_succ_self _
  · have harrived : c.welcome.heardFrom c.peers.length ++ c.welcome.inbox c.peers.length = [] := by
      have hsame : c.welcome.heardFrom c.peers.length = c.heardFrom c.peers.length := rfl
      rw [c.inbox_welcome, hsame, hheard, Coordinator.inbox,
        List.getElem?_eq_none (Nat.le_refl _)]
      rfl
    exact harrived.symm ▸ hu.up.symm ▸ Link.Carries.new _
  · exact hu.arrived.symm ▸ hu.down.symm ▸ Link.Carries.new _

end Member

namespace Deployment

variable {n : Nat} {d : Deployment n}

/-- **The invariant** of a deployment. Different members are different peers, and there are no other
    peers. -/
structure Inv (d : Deployment n) : Prop where
  coordinator : d.coordinator.Inv
  members : ∀ i, (d.members i).Inv d.coordinator
  unique : ∀ i j q, (d.members i).peer? = some q → (d.members j).peer? = some q → i = j
  covered : ∀ q < d.coordinator.peers.length, ∃ i, (d.members i).peer? = some q

theorem inv_start (setup : CoordinatorSetup) (now : Nat) (crew : Fin n → WorkerSetup × Nat) :
    (start (.start setup now) crew).Inv where
  coordinator := Coordinator.inv_start setup now
  members i := by
    refine ⟨Worker.inv_start _ _, fun _ => ⟨rfl, rfl, rfl⟩, fun q hq => ?_, fun h => ?_⟩
    · cases hq
    · cases h
  unique i j q hi := by cases hi
  covered q hq := by cases hq

theorem members_set (d : Deployment n) (i j : Fin n) (m : Member) :
    (d.set i m).members j = if j = i then m else d.members j :=
  Function.update_apply _ _ _ _

/-- Nobody becomes another peer. -/
theorem Inv.set {c : Coordinator} {i : Fin n} {m : Member} (h : d.Inv) (hc : c.Inv)
    (hlen : c.peers.length = d.coordinator.peers.length) (hpeer : m.peer? = (d.members i).peer?)
    (hm : m.Inv c) (hothers : ∀ j, j ≠ i → (d.members j).Inv c) :
    ({ d with coordinator := c }.set i m).Inv := by
  have hsame : ∀ j, (({ d with coordinator := c } : Deployment n).set i m |>.members j).peer? =
      (d.members j).peer? := by
    intro j
    rw [members_set]
    by_cases hj : j = i
    · rw [if_pos hj, hpeer, hj]
    · rw [if_neg hj]
  refine ⟨hc, fun j => ?_, fun j k q hj hk => ?_, fun q hq => ?_⟩
  · rw [members_set]
    by_cases hj : j = i
    · rw [if_pos hj]
      exact hm
    · rw [if_neg hj]
      exact hothers j hj
  · rw [hsame] at hj hk
    exact h.unique j k q hj hk
  · obtain ⟨j, hj⟩ := h.covered q (hlen ▸ hq)
    exact ⟨j, (hsame j).trans hj⟩

/-- The coordinator accepts the link of a worker. -/
theorem Inv.accept {i : Fin n} (h : d.Inv) (hi : (d.members i).peer? = none) {deadline : Nat}
    (hp : d.coordinator.phase = .accepting deadline) : (d.step (.accept i)).Inv := by
  have hstep : d.step (.accept i) = { d with coordinator := d.coordinator.welcome }.set i
      { d.members i with peer? := some d.coordinator.peers.length } := by
    simp only [Deployment.step, hi, hp, Coordinator.step_connect hp]
  have hc : d.coordinator.welcome.Inv :=
    Coordinator.step_connect hp ▸ h.coordinator.step .connect
  rw [hstep]
  -- The new peer is none of those before.
  have hnew : ∀ j q, (d.members j).peer? = some q → q ≠ d.coordinator.peers.length := by
    intro j q hq
    exact Nat.ne_of_lt ((h.members j).linked q hq).lt
  refine ⟨hc, fun j => ?_, fun j k q hj hk => ?_, fun q hq => ?_⟩
  · rw [members_set]
    by_cases hj : j = i
    · rw [if_pos hj]
      exact (h.members i).accept h.coordinator.basics hi
    · rw [if_neg hj]
      exact (h.members j).welcome
  · rw [members_set] at hj hk
    by_cases hji : j = i <;> by_cases hki : k = i
    · rw [hji, hki]
    · rw [if_pos hji] at hj
      rw [if_neg hki] at hk
      cases hj
      exact absurd rfl (hnew k _ hk)
    · rw [if_neg hji] at hj
      rw [if_pos hki] at hk
      cases hk
      exact absurd rfl (hnew j _ hj)
    · rw [if_neg hji] at hj
      rw [if_neg hki] at hk
      exact h.unique j k q hj hk
  · have hq : q < d.coordinator.peers.length + 1 := d.coordinator.length_peers_welcome ▸ hq
    by_cases hqlen : q = d.coordinator.peers.length
    · exact ⟨i, by rw [members_set, if_pos rfl, hqlen]⟩
    · obtain ⟨j, hj⟩ := h.covered q (by omega)
      have hji : j ≠ i := by
        rintro rfl
        rw [hi] at hj
        cases hj
      exact ⟨j, by rw [members_set, if_neg hji]; exact hj⟩

/-- Every event keeps the invariant. -/
theorem Inv.step (h : d.Inv) (e : DeploymentEvent n) : (d.step e).Inv := by
  have hc := h.coordinator
  cases e with
  | coordinate e =>
    simp only [Deployment.step]
    split
    · rename_i he
      have hf := Coordinator.Flows.step d.coordinator he
      exact ⟨hc.step e, fun i => (h.members i).flows hf, h.unique, hf.peers ▸ h.covered⟩
    · exact h
  | operate i e =>
    simp only [Deployment.step]
    split
    · rename_i he
      exact h.set hc rfl rfl ((h.members i).operate hc he) fun j _ => h.members j
    · exact h
  | accept i =>
    cases hi : (d.members i).peer? with
    | some q => simpa only [Deployment.step, hi] using h
    | none =>
      cases hp : d.coordinator.phase with
      | accepting deadline => exact h.accept hi hp
      | _ => simpa only [Deployment.step, hi, hp] using h
  | ascend i fault =>
    simp only [Deployment.step]
    split
    · rename_i q r up hq hn
      have hlt := ((h.members i).linked q hq).lt
      refine h.set (hc.step _) ?_ rfl ((h.members i).ascend hq hn) fun j hj => ?_
      · simp [Coordinator.step_arrive, Coordinator.modifyPeer]
      · exact (h.members j).other hlt (fun hjq => hj (h.unique j i q hjq hq)) r
    · exact h
  | descend i fault =>
    simp only [Deployment.step]
    split
    · rename_i q hq
      split
      · rename_i r down hn
        exact h.set hc rfl rfl ((h.members i).descend hq hn) fun j _ => h.members j
      · exact h
    · exact h

/-- Every run keeps the invariant. -/
theorem Inv.run (h : d.Inv) (es : List (DeploymentEvent n)) : (d.run es).Inv := by
  induction es generalizing d with
  | nil => exact h
  | cons e es ih => exact ih (h.step e)

/-! ### Members and ids -/

/-- The id of a member is its place among the workers. -/
theorem Inv.idOf?_eq_some_iff (h : d.Inv) {i : Fin n} {id : Nat} : d.idOf? i = some id ↔
    ∃ q, (d.members i).peer? = some q ∧ d.coordinator.workers[id]? = some q := by
  simp only [idOf?, Option.bind_eq_some_iff,
    Coordinator.idOf?_eq_some_iff h.coordinator.basics.nodup]

/-- Different members have different ids. -/
theorem Inv.idOf?_inj (h : d.Inv) {i j : Fin n} {id : Nat} (hi : d.idOf? i = some id)
    (hj : d.idOf? j = some id) : i = j := by
  obtain ⟨q, hiq, hq⟩ := h.idOf?_eq_some_iff.mp hi
  obtain ⟨p, hjp, hp⟩ := h.idOf?_eq_some_iff.mp hj
  obtain rfl : q = p := Option.some.inj (hq.symm.trans hp)
  exact h.unique i j q hiq hjp

/-- Every worker of the coordinator is a member. -/
theorem Inv.exists_member (h : d.Inv) {id : Nat} (hid : id < d.coordinator.workers.length) :
    ∃ i, d.idOf? i = some id := by
  have hq : d.coordinator.workers[id]? = some d.coordinator.workers[id] :=
    List.getElem?_eq_getElem hid
  have hlt := h.coordinator.basics.bounded _ (List.getElem_mem hid)
  obtain ⟨i, hi⟩ := h.covered _ hlt
  exact ⟨i, h.idOf?_eq_some_iff.mpr ⟨_, hi, hq⟩⟩

/-- If there are as many workers as members, every member is one. -/
theorem Inv.exists_id (h : d.Inv) (hn : d.coordinator.workers.length = n) (i : Fin n) :
    ∃ id, d.idOf? i = some id := by
  choose f hf using fun id : Fin d.coordinator.workers.length => h.exists_member id.isLt
  have hinj : Function.Injective f := by
    intro a b hab
    have hb := hf b
    rw [← hab, hf a] at hb
    exact Fin.ext (Option.some.inj hb)
  have hbij : Function.Bijective f :=
    (Fintype.bijective_iff_injective_and_card f).mpr ⟨hinj, by simp [hn]⟩
  obtain ⟨id, rfl⟩ := hbij.2 i
  exact ⟨id, hf id⟩

/-! ### A run of two workers -/

/-- A coordinator of two workers can be created. -/
theorem create_twoWorkers : Coordinator.create Coordinator.twoWorkers .builtin 0 =
    .ok (.start Coordinator.twoWorkers 0) := rfl

/-- The setup of a worker whose clients always have something to send and whose targets accept
    everything at once. -/
def ideal : WorkerSetup where
  settings := .of "localhost"
  registry := ⟨[("kvstore", ⟨fun _ => .ok (), fun _ _ => .ok fun _ => .ok [1, 2, 3]⟩)]⟩
  world := ⟨Discovery.silent, fun _ _ => .ideal, fun _ _ => 0⟩

/-- Two such workers. -/
def pair : Fin 2 → WorkerSetup × Nat := fun _ => (ideal, 0)

/-- A worker accepts the configuration. -/
def consent (i : Fin 2) : List (DeploymentEvent 2) :=
  [.descend i none, .descend i none, .operate i .read, .operate i .read, .operate i .expire,
   .ascend i none]

/-- A worker sends one transaction, is interrupted, and is acknowledged. -/
def performance (i : Fin 2) : List (DeploymentEvent 2) :=
  [.descend i none, .operate i .read] ++ .replicate 4 (.operate i (.work 0)) ++
  [.operate i .interrupt, .operate i (.work 0), .operate i .join, .ascend i none,
   .coordinate (.read i), .descend i none, .operate i .read, .ascend i (some .ended),
   .coordinate (.read i)]

/-- A run from the first hello to the summary. -/
def success : List (DeploymentEvent 2) :=
  [.accept 0, .accept 1, .operate 0 .reach, .operate 1 .reach, .ascend 0 none, .ascend 1 none,
   .coordinate (.read 0), .coordinate (.read 1)] ++ consent 0 ++ consent 1 ++
  [.coordinate (.read 0), .coordinate (.read 1)] ++ performance 0 ++ performance 1

/-- What has come of this run. -/
def succeeded : Deployment 2 := (start (.start Coordinator.twoWorkers 0) pair).run success

end Deployment

end TxLoad
