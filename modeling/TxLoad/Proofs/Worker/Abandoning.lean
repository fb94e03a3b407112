import TxLoad.Proofs.Engine.Cancelling
import TxLoad.Proofs.Worker.Effort
import TxLoad.Proofs.Worker.Reports

namespace TxLoad

/-!
# Losing the coordinator

A running worker notices that it has lost its coordinator when it reads the end of the link or
something that is no message, or when a report cannot be written. It then stops its engines, waits
for all of them, and fails.

* `Worker.IsSound`: the configuration is valid, and from the start on the engines keep up with the
  clock; kept by every event (`Worker.IsSound.step`).
* `Worker.Notices` are the events by which a loss is noticed, `Worker.Abandoned` is what holds from
  then on, whatever happens (`Worker.Abandoned.step`).
* `Worker.Abandoned.exists_join`: the engines stop, and the worker fails, within the longest wait of
  an engine.
-/

namespace Worker

variable {w v : Worker} {cfg : Config} {t ms : Nat}

/-! ### Running -/

/-- The longest wait of an engine. -/
def abandonMs (cfg : Config) : Nat :=
  max Engine.maxParkMs (Clock.seconds cfg.sendTimeout.toNat)

/-- The engines run under a valid configuration and keep up with the clock. -/
structure Drives (cfg : Config) (group : Group) (now : Nat) : Prop where
  valid : cfg.IsValid
  paced : cfg.rate.toNat * cfg.time.toNat < Text.wordMax → group.IsPaced
  keeping : ∀ e ∈ group.engines, e.KeepsUp now (abandonMs cfg)

section

variable {group : Group} {now : Nat}

theorem Drives.cancel (h : Drives cfg group now) : Drives cfg group.cancel now :=
  ⟨h.valid, fun hwords => (h.paced hwords).cancel,
    Group.forall_cancel (fun _ he => he.cancel) h.keeping⟩

theorem Drives.work (h : Drives cfg group now) {i : Nat} (hdue : group.isDue i now = true) :
    Drives cfg (group.stepEngine i) now :=
  ⟨h.valid, fun hwords => (h.paced hwords).stepEngine i,
    Group.forall_stepEngine_due (fun _ he hgoing hnow => he.step hgoing hnow) h.keeping hdue⟩

/-- The clock does not pass the engines. -/
theorem Drives.later (h : Drives cfg group now) {now' : Nat} (hle : now ≤ now')
    (hnow : now' ≤ max now (group.next?.getD now)) : Drives cfg group now' := by
  refine ⟨h.valid, h.paced, fun e he => (h.keeping e he).later hle fun hgoing => ?_⟩
  have hahead := (h.keeping e he).ahead hgoing
  cases hnext : group.next? with
  | none =>
    have hstopped := List.all_eq_true.mp (Group.isStopped_of_next? hnext) e he
    rw [hgoing] at hstopped
    cases hstopped
  | some next =>
    have hlater := Group.next?_le_now hnext he hgoing
    rw [hnext, Option.getD_some] at hnow
    omega

end

/-- No run is prepared for a configuration that is not valid, and the engines keep up. -/
structure IsSound (w : Worker) : Prop where
  prepared : ∀ cfg clients resolution, w.phase = .preparing cfg clients resolution → cfg.IsValid
  ready : ∀ cfg clients pool, w.phase = .ready cfg clients pool → cfg.IsValid
  drives : ∀ cfg next, w.phase = .running cfg next → Drives cfg w.group w.now

/-- Whether a worker in this phase neither prepares a run nor is in one. -/
def isBare : WorkerPhase → Bool
  | .preparing _ _ _ | .ready _ _ _ | .running _ _ => false
  | _ => true

theorem isSound_of_isBare (h : isBare w.phase = true) : w.IsSound := by
  refine ⟨fun cfg clients resolution hp => ?_, fun cfg clients pool hp => ?_, fun cfg next hp => ?_⟩
  all_goals
    rw [hp] at h
    cases h

theorem isSound_of_preparing {clients : List Client} {resolution : Discovery.Resolution}
    (hp : w.phase = .preparing cfg clients resolution) (h : cfg.IsValid) : w.IsSound := by
  refine ⟨fun cfg' clients' resolution' hp' => ?_, fun cfg' clients' pool' hp' => ?_,
    fun cfg' next hp' => ?_⟩
  all_goals
    rw [hp] at hp'
    cases hp'
  exact h

theorem isSound_of_ready {clients : List Client} {pool : Pool}
    (hp : w.phase = .ready cfg clients pool) (h : cfg.IsValid) : w.IsSound := by
  refine ⟨fun cfg' clients' resolution' hp' => ?_, fun cfg' clients' pool' hp' => ?_,
    fun cfg' next hp' => ?_⟩
  all_goals
    rw [hp] at hp'
    cases hp'
  exact h

theorem isSound_of_running {next : Nat} (hp : w.phase = .running cfg next)
    (h : Drives cfg w.group w.now) : w.IsSound := by
  refine ⟨fun cfg' clients' resolution' hp' => ?_, fun cfg' clients' pool' hp' => ?_,
    fun cfg' next hp' => ?_⟩
  all_goals
    rw [hp] at hp'
    cases hp'
  exact h

theorem isSound_start (setup : WorkerSetup) (now : Nat) : (start setup now).IsSound :=
  isSound_of_isBare rfl

theorem isSound_writeThen (w : Worker) (m : Message) {next : WorkerPhase}
    (hnext : ∀ v : Worker, v.phase = next → v.IsSound) : (w.writeThen m next).IsSound := by
  unfold writeThen
  split
  · exact hnext _ rfl
  · exact isSound_of_isBare rfl

theorem isSound_reject (w : Worker) (e : Error) : (w.reject e).IsSound :=
  w.isSound_writeThen _ fun v hv => isSound_of_isBare (by rw [hv]; rfl)

theorem isSound_miss (w : Worker) (deadline : Nat) : (w.miss deadline).IsSound := by
  unfold miss
  split <;> exact isSound_of_isBare rfl

/-- A configuration that is prepared is valid. -/
theorem isValid_of_prepare {s : WorkerSetup} {now : Nat}
    {made : List Client × Discovery.Resolution} (h : prepare s cfg now = .ok made) :
    cfg.IsValid := by
  refine Config.check_eq_ok_iff.mp ?_
  unfold prepare at h
  cases hcheck : cfg.check with
  | error e => simp [hcheck, Except.bind] at h
  | ok u => rfl

/-- Reading keeps a worker sound. -/
theorem IsSound.onRead (h : w.IsSound) (r : Reading) : (w.onRead r).IsSound := by
  unfold Worker.onRead
  split
  case h_3 =>
    -- The configuration arrives: it is checked before a run is prepared for it.
    unfold configure
    split
    · exact isSound_reject _ _
    · rename_i hprepare
      exact isSound_of_preparing rfl (isValid_of_prepare hprepare)
  case h_6 cfg clients pool hp =>
    -- The start: the engines are new.
    have hvalid := h.ready cfg clients pool hp
    exact isSound_of_running rfl ⟨hvalid, fun hwords => Group.isPaced_spawn hvalid hwords _ _ _ _,
      Group.keepsUp_spawn _ _ _ _ _⟩
  case h_9 cfg next hp =>
    have hdrives := h.drives cfg next hp
    unfold onRunning
    split
    · exact isSound_of_running hp hdrives.cancel
    · exact h
    · exact isSound_of_isBare rfl
  case h_10 =>
    unfold onFinishing
    split
    · exact isSound_of_isBare rfl
    · exact h
    · exact isSound_of_isBare rfl
  case h_11 => exact h
  all_goals exact isSound_of_isBare rfl

/-- The end of a wait keeps a worker sound. -/
theorem IsSound.expire (h : w.IsSound) : w.expire.IsSound := by
  unfold Worker.expire
  split
  · exact w.isSound_miss _
  · exact isSound_of_isBare rfl
  · rename_i cfg clients resolution hp
    have hvalid := h.prepared cfg clients resolution hp
    unfold Worker.prepared
    split
    · exact w.isSound_writeThen _ fun v hv => isSound_of_ready hv hvalid
    · exact w.isSound_reject _
  · exact isSound_of_isBare rfl
  · exact h

/-- **Step.** Every event keeps a worker sound. -/
theorem IsSound.step (h : w.IsSound) (ev : WorkerEvent) : (w.step ev).IsSound := by
  have hr := w.reacts_step ev
  generalize w.step ev = v at hr ⊢
  cases hr with
  | refused => exact h
  | arrive | sever => exact ⟨h.prepared, h.ready, h.drives⟩
  | reach => exact w.isSound_writeThen _ fun v hv => isSound_of_isBare (by rw [hv]; rfl)
  | miss => exact w.isSound_miss _
  | @read r inbox hlisten hin =>
    have htook : (w.took r inbox).IsSound := ⟨h.prepared, h.ready, h.drives⟩
    exact htook.onRead r
  | work he hdue =>
    exact ⟨h.prepared, h.ready, fun cfg next hp => (h.drives cfg next hp).work hdue⟩
  | @report cfg next hp hnow =>
    simp only [Worker.report]
    split
    · exact isSound_of_running rfl (h.drives cfg next hp)
    · exact isSound_of_isBare rfl
  | conclude =>
    simp only [Worker.conclude]
    split <;> exact isSound_of_isBare rfl
  | giveUp => exact isSound_of_isBare rfl
  | expire => exact h.expire
  | interrupt => exact ⟨h.prepared, h.ready, fun cfg next hp => (h.drives cfg next hp).cancel⟩
  | @advance ms now hnow =>
    refine ⟨h.prepared, h.ready, fun cfg next hp => ?_⟩
    have hphase : w.phase = .running cfg next := hp
    simp only [timer?, hphase, Option.elim_some, enginesNext] at hnow
    have hlater : w.now ≤ now := by omega
    have hnext : now ≤ max w.now (w.group.next?.getD w.now) := by omega
    exact (h.drives cfg next hphase).later hlater hnext

theorem IsSound.run (h : w.IsSound) (es : List WorkerEvent) : (w.run es).IsSound :=
  List.foldlRecOn (motive := IsSound) es Worker.step h fun _ hw e _ => hw.step e

/-! ### Noticing -/

/-- The events by which a running worker notices that it has lost its coordinator. -/
inductive Notices (w : Worker) : WorkerEvent → Prop
  /-- The link has ended, has failed, or has brought something that is no message. -/
  | read {cfg : Config} {next : Nat} {r : Reading} {inbox : List Reading}
    (hp : w.phase = .running cfg next) (hin : w.inbox = r :: inbox)
    (hr : ∀ m, r ≠ .message m) : w.Notices .read
  /-- A report that is due cannot be written. -/
  | report {cfg : Config} {next : Nat} (hp : w.phase = .running cfg next) (hnow : next ≤ w.now)
    (hw : w.isWritable = false) : w.Notices .report

/-- Noticing a loss cancels the engines and takes no time. -/
theorem step_of_notices {ev : WorkerEvent} (h : w.Notices ev) :
    (w.step ev).phase = .abandoning ∧ (w.step ev).group = w.group.cancel ∧
      (w.step ev).now = w.now := by
  cases h with
  | @read cfg next r inbox hp hin hr =>
    have hphase : (w.took r inbox).phase = .running cfg next := hp
    have hstep : w.step .read = (w.took r inbox).abandon := by
      rw [step_read (by simp [isListening, hp]) hin]
      simp only [onRead, hphase]
      cases r with
      | message m => exact absurd rfl (hr m)
      | _ => rfl
    rw [hstep]
    exact ⟨rfl, rfl, rfl⟩
  | @report cfg next hp hnow hw =>
    have hcan : w.canHappen .report = true := by simp [canHappen, hp, hnow]
    have hstep : w.step .report = (w.write (.statsReport (w.group.report false))).abandon := by
      rw [step, if_pos hcan, act, hp]
      simp [Worker.report, hw]
    rw [hstep]
    exact ⟨rfl, rfl, rfl⟩

/-- What holds of a worker that noticed at the instant `t` that it has lost its coordinator: its
    engines were cancelled then and are done at most `ms` later. -/
structure Abandoned (w : Worker) (t ms : Nat) : Prop where
  paced : w.group.IsPaced
  winding : ∀ e ∈ w.group.engines, e.WindsDown t ms
  stage : w.phase = .abandoning ∧ w.now ≤ t + ms ∨
    w.phase = .stopped (.error linkLost) ∧ w.group.isStopped = true

/-- From the notice on, a worker has nothing to do but to wait for its engines. -/
theorem abandoned_of_notices (hs : w.IsSound) {next : Nat} (hp : w.phase = .running cfg next)
    (hwords : cfg.rate.toNat * cfg.time.toNat < Text.wordMax) {ev : WorkerEvent}
    (h : w.Notices ev) : (w.step ev).Abandoned w.now (abandonMs cfg) := by
  obtain ⟨hphase, hgroup, hnow⟩ := step_of_notices h
  have hdrives := hs.drives _ _ hp
  refine ⟨?_, ?_, .inl ⟨hphase, ?_⟩⟩
  · rw [hgroup]
    exact (hdrives.paced hwords).cancel
  · rw [hgroup]
    intro e he
    obtain ⟨e', he', rfl⟩ := List.mem_map.mp he
    exact (hdrives.keeping e' he').windsDown
  · rw [hnow]
    exact Nat.le_add_right ..

/-- The engines act next before they are done. -/
theorem Abandoned.enginesNext_le (h : w.Abandoned t ms) (hnow : w.now ≤ t + ms) :
    w.enginesNext ≤ t + ms := by
  rw [enginesNext]
  cases hnext : w.group.next? with
  | none => exact hnow
  | some next =>
    obtain ⟨i, e, hi, -, rfl⟩ := Group.exists_of_next? hnext
    exact (h.winding e (List.mem_of_getElem? hi)).near

/-- **Step.** Whatever happens after the notice, nothing is submitted or written, and the clock does
    not pass the last engine before the worker has failed. -/
theorem Abandoned.step (h : w.Abandoned t ms) (ev : WorkerEvent) :
    (w.step ev).Abandoned t ms ∧ (w.step ev).group.sends = w.group.sends ∧
      (w.step ev).log = w.log := by
  have hr := w.reacts_step ev
  generalize w.step ev = v at hr ⊢
  cases hr with
  | refused => exact ⟨h, rfl, rfl⟩
  | arrive | sever => exact ⟨⟨h.paced, h.winding, h.stage⟩, rfl, rfl⟩
  | work he =>
    obtain ⟨hp, hnow⟩ | ⟨hp, -⟩ := h.stage
    · refine ⟨⟨h.paced.stepEngine _, ?_, .inl ⟨hp, hnow⟩⟩, Group.sends_stepEngine h.winding _, rfl⟩
      exact Group.forall_stepEngine (fun e he => he.step) h.winding _
    · simp [hasEngines, hp] at he
  | giveUp hp hstopped => exact ⟨⟨h.paced, h.winding, .inr ⟨rfl, hstopped⟩⟩, rfl, rfl⟩
  | @advance ms' now hnow =>
    refine ⟨⟨h.paced, h.winding, ?_⟩, rfl, rfl⟩
    obtain ⟨hp, hle⟩ | hstopped := h.stage
    · have hnext := h.enginesNext_le hle
      simp only [timer?, hp, Option.elim_some] at hnow
      refine .inl ⟨hp, ?_⟩
      show now ≤ t + ms
      omega
    · exact .inr hstopped
  | read hlisten =>
    obtain ⟨hp, -⟩ | ⟨hp, -⟩ := h.stage <;> simp [isListening, hp] at hlisten
  | expire he ht =>
    obtain ⟨hp, -⟩ | ⟨hp, -⟩ := h.stage
    · simp [hasEngines, hp] at he
    · simp [timer?, hp] at ht
  | reach hp' | miss hp' | report hp' | conclude hp' | interrupt hp' =>
    obtain ⟨hp, -⟩ | ⟨hp, -⟩ := h.stage <;>
    · rw [hp] at hp'
      cases hp'

theorem Abandoned.run (h : w.Abandoned t ms) (es : List WorkerEvent) :
    (w.run es).Abandoned t ms ∧ (w.run es).group.sends = w.group.sends ∧
      (w.run es).log = w.log := by
  induction es generalizing w with
  | nil => exact ⟨h, rfl, rfl⟩
  | cons e es ih =>
    obtain ⟨hstep, hsends, hlog⟩ := h.step e
    obtain ⟨hrun, hsends', hlog'⟩ := ih hstep
    exact ⟨hrun, hsends'.trans hsends, hlog'.trans hlog⟩

/-! ### The end -/

/-- A worker whose engines have stopped gives up. -/
theorem step_join_of_abandoning (hp : w.phase = .abandoning) (hs : w.group.isStopped = true) :
    w.step .join = w.stop (.error linkLost) := by
  have hcan : w.canHappen .join = true := by simp [canHappen, hasEngines, hp, hs]
  rw [step, if_pos hcan, act, hp]

/-- The next engine to act takes its step, once the clock has come to it. -/
theorem exists_work_of_abandoning (hp : w.phase = .abandoning) (hpaced : w.group.IsPaced)
    {next : Nat} (hnext : w.group.next? = some next) :
    ∃ es : List WorkerEvent, (∀ e ∈ es, e.isInner = true) ∧
      (w.run es).group.budget < w.group.budget ∧ (w.run es).phase = .abandoning := by
  obtain ⟨i, e, hi, hgoing, rfl⟩ := Group.exists_of_next? hnext
  -- The clock may be asked to go on to the engine, for nothing is due before.
  obtain ⟨now, hle, -, hstep⟩ := w.step_advance (e.now - w.now)
  have hreached : e.now ≤ now := by
    have htimer := w.reacts_step (.advance (e.now - w.now))
    generalize hv : w.step (.advance (e.now - w.now)) = v at htimer
    cases htimer with
    | refused hcan => cases hcan
    | @advance _ now' hnow =>
      have heq : now' = now := by
        rw [hstep] at hv
        exact (congrArg Worker.now hv).symm
      simp only [timer?, hp, Option.elim_some, enginesNext, hnext, Option.getD_some] at hnow
      omega
  have hdue : ({ w with now } : Worker).group.isDue i now = true := by
    simpa [Group.isDue, hi, hgoing] using hreached
  have hwork : ({ w with now } : Worker).step (.work i) =
      { w with now, group := w.group.stepEngine i } := by
    have hcan : ({ w with now } : Worker).canHappen (.work i) = true := by
      simp [canHappen, hasEngines, hp, hdue]
    rw [step, if_pos hcan]
    rfl
  refine ⟨[.advance (e.now - w.now), .work i], by simp [WorkerEvent.isInner], ?_, ?_⟩
  · show ((w.step (.advance (e.now - w.now))).step (.work i)).group.budget < _
    rw [hstep, hwork]
    exact Group.budget_stepEngine_lt hpaced hdue
  · show ((w.step (.advance (e.now - w.now))).step (.work i)).phase = _
    rw [hstep, hwork]
    exact hp

/-- **The end.** A worker that has noticed its loss can always come to its end by events of its own,
    and in time. -/
theorem Abandoned.exists_join (h : w.Abandoned t ms) : ∃ es : List WorkerEvent,
    (∀ e ∈ es, e.isInner = true) ∧ (w.run es).phase = .stopped (.error linkLost) ∧
      (w.phase = .abandoning → (w.run es).now ≤ t + ms) := by
  -- Each step of an engine lowers the budget of the group.
  induction hb : w.group.budget using Nat.strongRecOn generalizing w with
  | _ budget ih =>
    obtain ⟨hp, hnow⟩ | ⟨hp, hstopped⟩ := h.stage
    · cases hnext : w.group.next? with
      | none =>
        have hjoin := step_join_of_abandoning hp (Group.isStopped_of_next? hnext)
        refine ⟨[.join], by simp [WorkerEvent.isInner], ?_, fun _ => ?_⟩
        · show (w.step .join).phase = _
          rw [hjoin]
          rfl
        · show (w.step .join).now ≤ _
          rw [hjoin]
          exact hnow
      | some next =>
        obtain ⟨es, hes, hlt, hphase⟩ := exists_work_of_abandoning hp h.paced hnext
        obtain ⟨es', hes', hend, hintime⟩ := ih _ (hb ▸ hlt) (h.run es).1 rfl
        have hrun : w.run (es ++ es') = (w.run es).run es' := List.foldl_append
        refine ⟨es ++ es', ?_, by rw [hrun, hend], fun _ => ?_⟩
        · intro e he
          exact (List.mem_append.mp he).elim (hes e) (hes' e)
        · rw [hrun]
          exact hintime hphase
    · refine ⟨[], by simp, hp, fun habandoning => ?_⟩
      rw [hp] at habandoning
      cases habandoning

end Worker

end TxLoad
