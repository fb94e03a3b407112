import TxLoad.Proofs.Worker.Timing

namespace TxLoad

/-!
# What a worker has still to do at once

A worker cannot be busy forever at one instant: whatever it has to do brings it nearer to the point
at which it waits for the coordinator or for time to pass.

* `WorkerPhase.rank` counts the phases that may follow, `Worker.effort` the steps of engines and the
  reports.
* `Worker.eases_read`: reading brings a worker nearer.
* `Worker.exists_eases`: whenever a worker has something else to do, there is an event that brings
  it nearer.
* `Worker.stirs_step`: what events do to the engines, which are paced (`Worker.isPaced_step`).
-/

/-- How many phases may follow this one at the same instant. -/
def WorkerPhase.rank : WorkerPhase → Nat
  | .pausing _ _ => 9
  | .connecting _ => 8
  | .greeting => 7
  | .awaitingConfig => 6
  | .preparing _ _ _ => 5
  | .ready _ _ _ => 4
  | .running _ _ => 3
  | .abandoning => 2
  | .finishing _ _ => 1
  | .stopped _ => 0

namespace Worker

variable {w v : Worker}

/-- Whether a report is due. -/
def isReportDue (w : Worker) : Bool :=
  match w.phase with
  | .running _ next => next ≤ w.now
  | _ => false

/-- How many steps of engines and reports may follow at the present instant. -/
def effort (w : Worker) : Nat := w.group.budget + w.isReportDue.toNat

/-- A worker has come nearer to having nothing to do. -/
inductive Eases (w v : Worker) : Prop
  | phase (h : v.phase.rank < w.phase.rank)
  | effort (hphase : v.phase.rank = w.phase.rank) (h : v.effort < w.effort)
  | read (hphase : v.phase.rank = w.phase.rank) (heffort : v.effort = w.effort)
    (hsent : v.sent = w.sent) (h : v.inbox.length < w.inbox.length)

/-! ### Reading -/

/-- Reading a message that does nothing but perhaps ask the engines to stop. -/
theorem eases_took {r : Reading} {inbox : List Reading} (hin : w.inbox = r :: inbox)
    {group : Group} (hbudget : group.budget = w.group.budget) :
    w.Eases { w.took r inbox with group } := by
  refine .read rfl ?_ rfl ?_
  · rw [effort, effort, ← hbudget]
    rfl
  · show inbox.length < w.inbox.length
    rw [hin]
    exact Nat.lt_succ_self _

/-- **Reading.** Whatever a worker reads, it comes nearer to having nothing to do. -/
theorem eases_read (hw : w.isWritable = true) {r : Reading} {inbox : List Reading}
    (hlisten : w.isListening = true) (hin : w.inbox = r :: inbox) : w.Eases (w.step .read) := by
  rw [step_read hlisten hin]
  have htook : (w.took r inbox).isWritable = true := hw
  have hdrop : ∀ {p : WorkerPhase} {next : Nat}, w.phase = p → next < p.rank →
      next < w.phase.rank := fun hp h => hp ▸ h
  unfold onRead
  split
  case h_3 cfg hp =>
    refine .phase (hdrop hp ?_)
    unfold configure
    split
    · rw [reject, writeThen_eq htook]
      exact Nat.zero_lt_succ _
    · exact Nat.lt_succ_self _
  case h_9 hp =>
    unfold onRunning
    split
    · exact eases_took hin (Group.budget_cancel _)
    · exact eases_took hin rfl
    · exact .phase (hdrop hp (Nat.lt_succ_self _))
  case h_10 hp =>
    unfold onFinishing
    split
    · exact .phase (hdrop hp (Nat.lt_succ_self _))
    · exact eases_took hin rfl
    · exact .phase (hdrop hp (Nat.lt_succ_self _))
  case h_11 => exact eases_took hin rfl
  case h_1 hp => exact .phase (hdrop hp (Nat.lt_succ_self _))
  case h_6 hp => exact .phase (hdrop hp (Nat.lt_succ_self _))
  all_goals
    rename_i hp
    exact .phase (hdrop hp (Nat.zero_lt_succ _))

/-! ### What is due -/

/-- The end of a wait. -/
theorem step_expire (he : w.hasEngines = false) {t : Nat} (ht : w.timer? = some t)
    (hnow : t ≤ w.now) (hin : ∀ last deadline, w.phase = .finishing last deadline → w.inbox = []) :
    w.step .expire = w.expire := by
  have hcan : w.canHappen .expire = true := by
    simp only [canHappen, he, ht, Bool.not_false, Bool.true_and, Option.any_some, Bool.and_eq_true,
      decide_eq_true_eq]
    refine ⟨hnow, ?_⟩
    split
    · rename_i last deadline hp
      rw [hin last deadline hp]
      rfl
    · rfl
  rw [step, if_pos hcan]
  rfl

/-- **Engines.** As long as engines have something to do, or have all stopped, there is an event
    that brings the worker nearer. -/
theorem exists_eases_of_engines (hw : w.isWritable = true) (hpaced : w.group.IsPaced)
    (he : w.hasEngines = true) (hnow : w.enginesNext ≤ w.now) :
    ∃ e : WorkerEvent, e.isInner = true ∧ e.isPrompt = true ∧ w.Eases (w.step e) := by
  cases hnext : w.group.next? with
  | some t =>
    obtain ⟨i, engine, hi, hgoing, rfl⟩ := Group.exists_of_next? hnext
    have hdue : w.group.isDue i w.now = true := by
      rw [enginesNext, hnext] at hnow
      simpa [Group.isDue, hi, hgoing] using hnow
    have hstep : w.step (.work i) = { w with group := w.group.stepEngine i } := by
      have hcan : w.canHappen (.work i) = true := by simp [canHappen, he, hdue]
      rw [step, if_pos hcan]
      rfl
    refine ⟨.work i, rfl, rfl, hstep.symm ▸ .effort rfl ?_⟩
    exact Nat.add_lt_add_right (Group.budget_stepEngine_lt hpaced hdue) _
  | none =>
    have hcan : w.canHappen .join = true := by
      simp [canHappen, he, Group.isStopped_of_next? hnext]
    refine ⟨.join, rfl, rfl, .phase ?_⟩
    rw [step, if_pos hcan, act]
    unfold hasEngines at he
    split at he
    · rename_i hp
      simp only [hp, conclude, if_pos hw]
      exact (by decide : 1 < 3)
    · rename_i hp
      simp only [hp]
      exact Nat.zero_lt_succ _
    · cases he

/-- **Everything else.** Whenever a worker that has nothing to read has something to do, there is an
    event that brings it nearer. -/
theorem exists_eases (hw : w.isWritable = true) (hpaced : w.group.IsPaced)
    (hinterval : 0 < w.setup.settings.reportIntervalMs) (hread : w.canHappen .read = false)
    {t : Nat} (ht : w.timer? = some t) (hnow : t ≤ w.now) :
    ∃ e : WorkerEvent, e.isInner = true ∧ e.isPrompt = true ∧ w.Eases (w.step e) := by
  have hin : ∀ last deadline, w.phase = .finishing last deadline → w.inbox = [] := by
    intro last deadline hp
    simpa [canHappen, isListening, hp] using hread
  have hexpire : ∀ (he : w.hasEngines = false), w.expire.phase.rank < w.phase.rank →
      ∃ e : WorkerEvent, e.isInner = true ∧ e.isPrompt = true ∧ w.Eases (w.step e) :=
    fun he h => ⟨.expire, rfl, rfl, .phase (by rwa [step_expire he ht hnow hin])⟩
  cases hp : w.phase with
  | connecting deadline =>
    simp only [timer?, hp, Option.some.injEq] at ht
    refine hexpire (by simp [hasEngines, hp]) ?_
    simp only [expire, hp, miss, ht, if_pos hnow]
    exact Nat.zero_lt_succ _
  | pausing deadline next =>
    refine hexpire (by simp [hasEngines, hp]) ?_
    simp only [expire, hp]
    exact Nat.lt_succ_self _
  | preparing cfg clients resolution =>
    refine hexpire (by simp [hasEngines, hp]) ?_
    simp only [expire, hp, prepared, reject, writeThen_eq hw]
    split
    · exact Nat.lt_succ_self _
    · exact Nat.zero_lt_succ _
  | finishing last deadline =>
    refine hexpire (by simp [hasEngines, hp]) ?_
    simp only [expire, hp]
    exact Nat.lt_succ_self _
  | running cfg next =>
    simp only [timer?, hp, Option.some.injEq] at ht
    by_cases hdue : next ≤ w.now
    · have hcan : w.canHappen .report = true := by simp [canHappen, hp, hdue]
      have hstep : w.step .report = w.report cfg := by
        rw [step, if_pos hcan, act, hp]
      refine ⟨.report, rfl, rfl, .effort ?_ ?_⟩
      · rw [hstep, report, if_pos hw, hp]
        rfl
      · rw [hstep, report, if_pos hw]
        have hbefore : w.isReportDue = true := by simp [isReportDue, hp, hdue]
        have hafter : ¬ w.now + w.setup.settings.reportIntervalMs ≤ w.now := by omega
        rw [effort, effort, hbefore]
        show w.group.budget + (decide (w.now + _ ≤ w.now)).toNat < w.group.budget + 1
        rw [decide_eq_false hafter]
        exact Nat.lt_succ_self _
    · exact exists_eases_of_engines hw hpaced (by simp [hasEngines, hp]) (by omega)
  | abandoning =>
    simp only [timer?, hp, Option.some.injEq] at ht
    exact exists_eases_of_engines hw hpaced (by simp [hasEngines, hp]) (ht ▸ hnow)
  | _ => simp [timer?, hp] at ht

/-! ### Engines -/

theorem group_writeThen (w : Worker) (m : Message) (next : WorkerPhase) :
    (w.writeThen m next).group = w.group := by
  unfold writeThen
  split <;> rfl

theorem group_miss (w : Worker) (deadline : Nat) : (w.miss deadline).group = w.group := by
  unfold miss
  split <;> rfl

/-- What an event does to the engines. -/
inductive Stirs (w : Worker) : Group → Prop
  | same : w.Stirs w.group
  | work (engine : Nat) : w.Stirs (w.group.stepEngine engine)
  | cancel : w.Stirs w.group.cancel
  /-- A worker that is ready reads the start. -/
  | begin {cfg : Config} {clients : List Client} {pool : Pool} {inbox : List Reading}
    (hp : w.phase = .ready cfg clients pool) (hin : w.inbox = .message .start :: inbox) :
    w.Stirs (Group.spawn cfg pool w.setup.world.target clients w.now)

/-- **Inversion.** No event does anything else to the engines. -/
theorem stirs_step (w : Worker) (ev : WorkerEvent) : w.Stirs (w.step ev).group := by
  have hr := w.reacts_step ev
  generalize w.step ev = v at hr ⊢
  cases hr with
  | refused | arrive | sever | giveUp | advance => exact .same
  | work => exact .work _
  | interrupt => exact .cancel
  | reach => exact (w.group_writeThen _ _).symm ▸ .same
  | miss => exact (w.group_miss _).symm ▸ .same
  | report =>
    simp only [report]
    split
    · exact .same
    · exact .cancel
  | conclude =>
    simp only [conclude]
    split <;> exact .same
  | @read r inbox hlisten hin =>
    unfold onRead
    split
    case h_3 =>
      unfold configure
      split
      · exact (group_writeThen (w.took _ _) _ _).symm ▸ .same
      · exact .same
    case h_6 hp => exact .begin hp hin
    case h_9 =>
      unfold onRunning
      split
      · exact .cancel
      · exact .same
      · exact .cancel
    case h_10 =>
      unfold onFinishing
      split <;> exact .same
    all_goals exact .same
  | expire =>
    unfold expire
    split
    · exact (w.group_miss _).symm ▸ .same
    · exact .same
    · unfold prepared
      split <;> exact (w.group_writeThen _ _).symm ▸ .same
    · exact .same
    · exact .same

/-- The engines of a worker are paced at all times, if those are that it starts. -/
theorem isPaced_step (h : w.group.IsPaced)
    (hbegin : ∀ cfg clients pool inbox, w.phase = .ready cfg clients pool →
      w.inbox = .message .start :: inbox →
      (Group.spawn cfg pool w.setup.world.target clients w.now).IsPaced) (ev : WorkerEvent) :
    (w.step ev).group.IsPaced := by
  have hs := w.stirs_step ev
  generalize (w.step ev).group = group at hs ⊢
  cases hs with
  | same => exact h
  | work => exact h.stepEngine _
  | cancel => exact h.cancel
  | begin hp hin => exact hbegin _ _ _ _ hp hin

end Worker

end TxLoad
