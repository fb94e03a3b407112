import TxLoad.Proofs.Coordinator.Barrier
import TxLoad.Proofs.Deployment.Invariant

namespace TxLoad.Deployment

/-!
# No worker starts before all are ready

* `Inv.ready_of_engines`: no worker has engines before all have accepted the configuration.
* `start_barrier`: when the start is written, and what happens if it is not.
-/

variable {n : Nat} {d : Deployment n}

/-! ### The setup -/

theorem setup_step (d : Deployment n) (e : DeploymentEvent n) :
    (d.step e).coordinator.setup = d.coordinator.setup := by
  cases e with
  | coordinate e =>
    simp only [step]
    split
    · exact d.coordinator.setup_step e
    · rfl
  | operate i e =>
    simp only [step]
    split <;> rfl
  | accept i =>
    simp only [step]
    split
    · exact d.coordinator.setup_step .connect
    · rfl
  | ascend i fault =>
    simp only [step]
    split <;> rfl
  | descend i fault =>
    simp only [step]
    split
    · split <;> rfl
    · rfl

/-- No event changes the setup of the coordinator. -/
theorem setup_run (d : Deployment n) (es : List (DeploymentEvent n)) :
    (d.run es).coordinator.setup = d.coordinator.setup := by
  induction es generalizing d with
  | nil => rfl
  | cons e es ih => exact (ih (d.step e)).trans (d.setup_step e)

/-! ### The start -/

/-- Whoever the start has reached is a worker of a coordinator that has started its workers. -/
theorem Inv.worker_of_start (h : d.Inv) {i : Fin n}
    (hi : .message .start ∈ (d.members i).worker.heard ++ (d.members i).worker.inbox) :
    d.coordinator.Started ∧ ∃ q ∈ d.coordinator.workers, (d.members i).peer? = some q := by
  cases hq : (d.members i).peer? with
  | none =>
    rw [((h.members i).unlinked hq).arrived] at hi
    cases hi
  | some q =>
    have hdelivered := ((h.members i).linked q hq).down.mem hi
    exact ⟨h.coordinator.of_start hdelivered, q,
      h.coordinator.basics.mem_workers_of_delivered hdelivered, rfl⟩

/-- Whoever has heard the start is a peer of a coordinator that has started its workers. -/
theorem Inv.started_of_heard (h : d.Inv) {i : Fin n}
    (hi : .message .start ∈ (d.members i).worker.heard) :
    d.coordinator.Started ∧ ∃ q, (d.members i).peer? = some q := by
  obtain ⟨hs, q, -, hq⟩ := h.worker_of_start (List.mem_append_left _ hi)
  exact ⟨hs, q, hq⟩

/-- No worker has engines before all members have accepted the configuration. -/
theorem Inv.ready_of_engines (h : d.Inv) (hn : max 1 d.coordinator.expected = n) {i : Fin n}
    (hi : (d.members i).worker.group.engines ≠ []) (j : Fin n) :
    .ready ∈ (d.members j).worker.sent := by
  obtain ⟨hstart, -⟩ := (h.members i).worker.of_engines hi
  have hunderway := (h.started_of_heard hstart).1.isUnderway
  obtain ⟨id, hid⟩ := h.exists_id (hunderway.full.trans hn) j
  obtain ⟨q, hq, hworker⟩ := h.idOf?_eq_some_iff.mp hid
  -- The coordinator has read the consent of every worker.
  obtain ⟨rs, e, ms, hs⟩ := hunderway.served id q hworker
  obtain ⟨x, hheard⟩ := hs.heard
  exact ((h.members j).linked q hq).up.mem (by simp [hheard])

/-- **The barrier at the start.** However peers, clock and interrupts interleave, the start is
    written only when as many workers have been registered as the run needs, all of them have been
    sent the configuration, and each of them has answered with its consent; so no worker of a
    deployment has engines before all have sent theirs. If the configuration fails to be accepted by
    all, or the coordinator ends without a start for any other reason, every worker is told to
    abort, and none is ever told to start. -/
theorem start_barrier {setup : CoordinatorSetup} {registry : Registry} {now : Nat}
    {c : Coordinator} (h : Coordinator.create setup registry now = .ok c) :
    (∀ es, (c.run es).hasOpened → ∃ es₁ e es₂, es = es₁ ++ e :: es₂ ∧
      (c.run es₁).workers.length = setup.settings.expectWorkers.toNat ∧
      (c.run es₁).Barrier (c.run (es₁ ++ [e]))) ∧
    (∀ n (crew : Fin n → WorkerSetup × Nat) es, n = setup.settings.expectWorkers.toNat →
      ∀ i, (((start c crew).run es).members i).worker.group.engines ≠ [] →
        ∀ j, .ready ∈ (((start c crew).run es).members j).worker.sent) ∧
    (∀ es₁ e es₂, (c.run es₁).Fails e → (c.run (es₁ ++ e :: es₂)).IsAborted) ∧
    (∀ es, (c.run es).isFinished = true → ¬ (c.run es).hasOpened → (c.run es).IsAborted) := by
  obtain ⟨rfl, hpos⟩ := Coordinator.eq_start_of_create h
  have hmax : max 1 setup.settings.expectWorkers.toNat = setup.settings.expectWorkers.toNat := by
    omega
  have hinv := Coordinator.inv_start setup now
  refine ⟨fun es ho => ?_, fun n crew es hn i hi j => ?_, fun es₁ e es₂ hf => ?_,
    fun es hfin hs => ?_⟩
  · have hprep : (Coordinator.start setup now).Preparing := by
      refine hinv.stage.resolve_right fun hs => ?_
      obtain ⟨w, hw, -⟩ := hs.isUnderway.hasOpened
      cases hw
    obtain ⟨es₁, e, es₂, hes, hb⟩ := Coordinator.exists_opening hinv.basics hprep ho
    refine ⟨es₁, e, es₂, hes, ?_, hb⟩
    rw [hb.complete.2.1, Coordinator.expected, Coordinator.setup_run]
    exact hmax
  · have hd := (inv_start setup now crew).run es
    refine hd.ready_of_engines ?_ hi j
    rw [Coordinator.expected, setup_run]
    exact hmax.trans hn.symm
  · rw [Coordinator.run, List.foldl_append]
    exact Coordinator.isAborted_of_fails (hinv.run es₁) hf es₂
  · exact (hinv.run es).isAborted hfin hs

/-- Two workers that accept the configuration are started together. -/
theorem start_barrier_succeeded :
    Coordinator.create Coordinator.twoWorkers .builtin 0 = .ok (.start Coordinator.twoWorkers 0) ∧
      ((Coordinator.start Coordinator.twoWorkers 0).run Coordinator.opening).hasOpened ∧
      (∃ es₁ e es₂, Coordinator.opening = es₁ ++ e :: es₂ ∧
        ((Coordinator.start Coordinator.twoWorkers 0).run es₁).Barrier
          ((Coordinator.start Coordinator.twoWorkers 0).run (es₁ ++ [e]))) ∧
      (succeeded.members 1).worker.group.engines ≠ [] ∧
      .ready ∈ (succeeded.members 0).worker.sent := by
  have hopened : ((Coordinator.start Coordinator.twoWorkers 0).run
      Coordinator.opening).hasOpened := ⟨⟨0, .start, true⟩, by decide, rfl⟩
  have hengines : (succeeded.members 1).worker.group.engines ≠ [] := by
    have hlength : (succeeded.members 1).worker.group.engines.length = 1 := by decide
    rw [← List.length_pos_iff, hlength]
    exact Nat.one_pos
  obtain ⟨hopening, hready, -, -⟩ := start_barrier create_twoWorkers
  obtain ⟨es₁, e, es₂, hes, -, hbarrier⟩ := hopening _ hopened
  exact ⟨create_twoWorkers, hopened, ⟨es₁, e, es₂, hes, hbarrier⟩, hengines,
    hready 2 pair success rfl 1 hengines 0⟩

end TxLoad.Deployment
