import TxLoad.Proofs.Coordinator.Timing
import TxLoad.Proofs.Deployment.Agreement
import TxLoad.Proofs.Deployment.Compatibility
import TxLoad.Proofs.Worker.Timing

namespace TxLoad

/-!
# Deployments on one clock

A timed deployment is a deployment whose parties share a clock and whose links hold. Whatever is
sent arrives at once and is read at once: time goes on only when nothing is on its way, nothing waits
to be read, and nobody has anything else to do at the present instant.

* `Deployment.isQuiet`: nothing is on its way and nothing waits to be read.
* `TimedDeployment.step` is the answer to an event; one that is not possible changes nothing.
* `TimedDeployment.reacts_step` opens a step.
* `TimedDeployment.exists_run`: what happens is a run of the deployment without its clock.

Coordinator and workers need not be started at the same instant; whoever is not started yet is ahead
of the clock and does nothing.
-/

/-- Whether nothing is on its way to or from the member, and nothing waits for it to be read. -/
def Member.isQuiet (m : Member) (c : Coordinator) : Bool :=
  !m.worker.canHappen .read && m.peer?.all fun q =>
    (m.up.next? m.worker.sent none).isNone && (m.down.next? (c.deliveredTo q) none).isNone

/-- Whether nothing is on its way, and nothing waits to be read. -/
def Deployment.isQuiet {n : Nat} (d : Deployment n) : Bool :=
  (List.range d.coordinator.peers.length).all (fun q => !d.coordinator.canHappen (.read q)) &&
    (List.finRange n).all fun i => (d.members i).isQuiet d.coordinator

/-- A deployment and the instant that it has come to. -/
structure TimedDeployment (n : Nat) extends Deployment n where
  clock : Nat

inductive TimedEvent (n : Nat) where
  /-- Somebody acts, or something arrives. -/
  | occur (e : DeploymentEvent n)
  /-- A millisecond passes. -/
  | tick

namespace TimedDeployment

variable {n : Nat} {t : TimedDeployment n}

/-- The clock starts when a coordinator and workers are yet to be started. -/
def start (c : Coordinator) (crew : Fin n → WorkerSetup × Nat) : TimedDeployment n :=
  ⟨Deployment.start c crew, 0⟩

/-- Whether an event is possible while no time passes and all links hold. A worker that has stopped
    closes its link after all that it has sent. -/
def allows (t : TimedDeployment n) : DeploymentEvent n → Bool
  | .coordinate e => e.isPrompt && t.coordinator.now ≤ t.clock
  | .operate i e => e.isPrompt && (t.members i).worker.now ≤ t.clock
  | .accept i => t.coordinator.now ≤ t.clock && (t.members i).worker.now ≤ t.clock
  | .ascend _ none => true
  | .ascend i (some r) =>
    r = .ended && (t.members i).worker.isStopped &&
      (t.members i).worker.sent.length ≤ (t.members i).up.carried
  | .descend _ fault => fault.isNone

/-- The deployment a millisecond later. Whoever is behind the clock catches up with it, but stands
    still when there is something to do. -/
def later (t : TimedDeployment n) : TimedDeployment n where
  clock := t.clock + 1
  coordinator := t.coordinator.step (.advance (t.clock + 1 - t.coordinator.now))
  members i :=
    let m := t.members i
    { m with worker := m.worker.step (.advance (t.clock + 1 - m.worker.now)) }

/-- Whether nobody is behind the clock. -/
def isTogether (t : TimedDeployment n) : Bool :=
  t.clock ≤ t.coordinator.now &&
    (List.finRange n).all fun i => t.clock ≤ (t.members i).worker.now

/-- The answer to an event. -/
def step (t : TimedDeployment n) : TimedEvent n → TimedDeployment n
  | .occur e => if t.allows e then ⟨t.toDeployment.step e, t.clock⟩ else t
  | .tick => if t.isQuiet && t.later.isTogether then t.later else t

/-- The answer to a sequence of events. -/
def run (t : TimedDeployment n) (es : List (TimedEvent n)) : TimedDeployment n := es.foldl step t

/-! ### What an event does -/

/-- The deployment in which coordinator and member `i` have changed. -/
def put (t : TimedDeployment n) (c : Coordinator) (i : Fin n) (m : Member) : TimedDeployment n :=
  ⟨{ t.toDeployment with coordinator := c }.set i m, t.clock⟩

/-- What an event does to a timed deployment. -/
inductive Reacts (t : TimedDeployment n) : TimedEvent n → TimedDeployment n → Prop where
  /-- The event is not possible now. -/
  | refused (e : TimedEvent n) : t.Reacts e t
  | coordinate {e : CoordinatorEvent} (hinner : e.isInner = true) (hprompt : e.isPrompt = true)
    (hnow : t.coordinator.now ≤ t.clock) : t.Reacts (.occur (.coordinate e))
      ⟨{ t.toDeployment with coordinator := t.coordinator.step e }, t.clock⟩
  | operate {i : Fin n} {e : WorkerEvent} (hinner : e.isInner = true) (hprompt : e.isPrompt = true)
    (hnow : (t.members i).worker.now ≤ t.clock) : t.Reacts (.occur (.operate i e))
      (t.put t.coordinator i { t.members i with worker := (t.members i).worker.step e })
  | accept {i : Fin n} {deadline : Nat} (hnow : t.coordinator.now ≤ t.clock)
    (hworker : (t.members i).worker.now ≤ t.clock) (hi : (t.members i).peer? = none)
    (hp : t.coordinator.phase = .accepting deadline) : t.Reacts (.occur (.accept i))
      (t.put (t.coordinator.step .connect) i
        { t.members i with peer? := some t.coordinator.peers.length })
  | ascend {i : Fin n} {q : Nat} {r : Reading} {up : Link} (hq : (t.members i).peer? = some q)
    (hn : (t.members i).up.next? (t.members i).worker.sent none = some (r, up)) :
    t.Reacts (.occur (.ascend i none))
      (t.put (t.coordinator.step (.arrive q r)) i { t.members i with up })
  /-- A worker that has stopped closes its link. -/
  | close {i : Fin n} {q : Nat} {r : Reading} {up : Link} (hq : (t.members i).peer? = some q)
    (hstopped : (t.members i).worker.isStopped = true)
    (hall : (t.members i).worker.sent.length ≤ (t.members i).up.carried)
    (hn : (t.members i).up.next? (t.members i).worker.sent (some .ended) = some (r, up)) :
    t.Reacts (.occur (.ascend i (some .ended)))
      (t.put (t.coordinator.step (.arrive q r)) i { t.members i with up })
  | descend {i : Fin n} {q : Nat} {r : Reading} {down : Link}
    (hq : (t.members i).peer? = some q)
    (hn : (t.members i).down.next? (t.coordinator.deliveredTo q) none = some (r, down)) :
    t.Reacts (.occur (.descend i none)) (t.put t.coordinator i
      { t.members i with worker := (t.members i).worker.step (.arrive r), down })
  | tick (hquiet : t.isQuiet = true) (htogether : t.later.isTogether = true) :
    t.Reacts .tick t.later

/-- An event that is allowed does what its name says. -/
theorem reacts_occur {e : DeploymentEvent n} (h : t.allows e = true) :
    t.Reacts (.occur e) ⟨t.toDeployment.step e, t.clock⟩ := by
  cases e with
  | coordinate e =>
    simp only [allows, Bool.and_eq_true, decide_eq_true_eq] at h
    simp only [Deployment.step]
    split
    · rename_i he
      exact .coordinate he h.1 h.2
    · exact .refused _
  | operate i e =>
    simp only [allows, Bool.and_eq_true, decide_eq_true_eq] at h
    simp only [Deployment.step]
    split
    · rename_i he
      exact .operate he h.1 h.2
    · exact .refused _
  | accept i =>
    simp only [allows, Bool.and_eq_true, decide_eq_true_eq] at h
    simp only [Deployment.step]
    split
    · rename_i hi hp
      exact .accept h.1 h.2 hi hp
    · exact .refused _
  | ascend i fault =>
    simp only [Deployment.step]
    split
    · rename_i q r up hq hn
      cases fault with
      | none => exact .ascend hq hn
      | some r' =>
        simp only [allows, Bool.and_eq_true, decide_eq_true_eq] at h
        obtain ⟨⟨rfl, hstopped⟩, hall⟩ := h
        exact .close hq hstopped hall hn
    · exact .refused _
  | descend i fault =>
    simp only [allows, Option.isNone_iff_eq_none] at h
    subst h
    simp only [Deployment.step]
    split
    · rename_i q hq
      split
      · rename_i r down hn
        exact .descend hq hn
      · exact .refused _
    · exact .refused _

/-- **Inversion.** What a step does is what the event does. -/
theorem reacts_step (t : TimedDeployment n) (e : TimedEvent n) : t.Reacts e (t.step e) := by
  cases e with
  | occur e =>
    rw [step]
    split
    · rename_i h
      exact reacts_occur h
    · exact .refused _
  | tick =>
    rw [step]
    split
    · rename_i h
      rw [Bool.and_eq_true] at h
      exact .tick h.1 h.2
    · exact .refused _

/-! ### The deployment without its clock -/

/-- What happens in a millisecond: everybody's time goes on. -/
def passing (t : TimedDeployment n) : List (DeploymentEvent n) :=
  .coordinate (.advance (t.clock + 1 - t.coordinator.now)) ::
    (List.finRange n).map fun i => .operate i (.advance (t.clock + 1 - (t.members i).worker.now))

/-- What some workers do by themselves, each once. -/
theorem run_operate (d : Deployment n) {f : Fin n → WorkerEvent} (hf : ∀ i, (f i).isInner = true)
    {is : List (Fin n)} (his : is.Nodup) :
    d.run (is.map fun i => .operate i (f i)) = ⟨d.coordinator, fun j =>
      if j ∈ is then { d.members j with worker := (d.members j).worker.step (f j) }
      else d.members j⟩ := by
  -- Whoever acts first is not among the others, who find themselves as before.
  induction is generalizing d with
  | nil => simp only [List.map_nil, List.not_mem_nil, if_false, Deployment.run, List.foldl_nil]
  | cons i is ih =>
    obtain ⟨hi, his⟩ := List.nodup_cons.mp his
    have hstep : d.step (.operate i (f i)) =
        d.set i { d.members i with worker := (d.members i).worker.step (f i) } := by
      simp only [Deployment.step, if_pos (hf i)]
    rw [List.map_cons, Deployment.run, List.foldl_cons, ← Deployment.run, ih _ his, hstep]
    congr 1
    funext j
    rw [Deployment.members_set]
    by_cases hj : j = i
    · subst hj
      simp [hi]
    · simp [hj]

theorem toDeployment_later (t : TimedDeployment n) :
    t.later.toDeployment = t.toDeployment.run t.passing := by
  rw [passing, Deployment.run, List.foldl_cons, ← Deployment.run,
    run_operate _ (fun _ => rfl) (List.nodup_finRange n)]
  simp only [List.mem_finRange, if_true]
  rfl

/-- **Refinement.** Whatever happens on one clock can happen without it. -/
theorem exists_run (t : TimedDeployment n) (es : List (TimedEvent n)) :
    ∃ es', (t.run es).toDeployment = t.toDeployment.run es' := by
  induction es generalizing t with
  | nil => exact ⟨[], rfl⟩
  | cons e es ih =>
    obtain ⟨before, hbefore⟩ : ∃ es', (t.step e).toDeployment = t.toDeployment.run es' := by
      cases e with
      | occur e =>
        rw [step]
        split
        · exact ⟨[e], rfl⟩
        · exact ⟨[], rfl⟩
      | tick =>
        rw [step]
        split
        · exact ⟨t.passing, t.toDeployment_later⟩
        · exact ⟨[], rfl⟩
    obtain ⟨after, hafter⟩ := ih (t.step e)
    refine ⟨before ++ after, hafter.trans ?_⟩
    rw [hbefore, Deployment.run, Deployment.run, Deployment.run, List.foldl_append]

/-! ### Parties change by events of their own -/

theorem worker_step (t : TimedDeployment n) (e : TimedEvent n) (i : Fin n) :
    ((t.step e).members i).worker = (t.members i).worker ∨
      ∃ ev, ((t.step e).members i).worker = (t.members i).worker.step ev := by
  cases e with
  | occur e =>
    rw [step]
    split
    · exact t.toDeployment.worker_step e i
    · exact .inl rfl
  | tick =>
    rw [step]
    split
    · exact .inr ⟨.advance _, rfl⟩
    · exact .inl rfl

theorem coordinator_step (t : TimedDeployment n) (e : TimedEvent n) :
    (t.step e).coordinator = t.coordinator ∨
      ∃ ev, (t.step e).coordinator = t.coordinator.step ev := by
  have hr := t.reacts_step e
  generalize t.step e = u at hr ⊢
  cases hr with
  | refused | operate | descend => exact .inl rfl
  | coordinate => exact .inr ⟨_, rfl⟩
  | accept => exact .inr ⟨.connect, rfl⟩
  | ascend | close => exact .inr ⟨.arrive _ _, rfl⟩
  | tick => exact .inr ⟨.advance _, rfl⟩

end TimedDeployment

end TxLoad
