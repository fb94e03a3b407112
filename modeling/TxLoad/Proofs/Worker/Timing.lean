import TxLoad.Proofs.Discovery.Waiting
import TxLoad.Proofs.Engine.Ending
import TxLoad.Proofs.Worker.Unbroken

namespace TxLoad

/-!
# When a worker says what

A worker does nothing late: its clock does not pass an instant at which it has something to do. How
long it takes to answer the configuration and to send its last report is therefore bounded by what it
waits for in between, whatever endpoints and targets do.

* `Worker.Answers.step`: a worker that prepares answers by the instant at which the endpoints are
  resolved at the latest.
* `Worker.Performs.step`: a worker that runs sends its last report by the instant at which its
  engines are done at the latest, unless it loses its coordinator.
-/

/-- Whether an event takes no time and breaks no link. -/
def WorkerEvent.isPrompt : WorkerEvent → Bool
  | .advance _ | .sever => false
  | _ => true

/-- Whether a message answers the configuration. -/
def Message.isAnswer : Message → Bool
  | .ready | .reject _ => true
  | _ => false

/-- Whether a message is the report of a worker that has completed. -/
def Message.isLastReport : Message → Bool
  | .statsReport r => r.completed
  | _ => false

/-- Adding up counters says nothing about whether they are the last. -/
theorem Report.completed_ofStats (stats : List ConnectionStat) (completed : Bool) :
    (Report.ofStats stats completed).completed = completed := by
  have hkeep : ∀ r : Report, (stats.foldl Report.add r).completed = r.completed := by
    induction stats with
    | nil => exact fun _ => rfl
    | cons s stats ih => exact fun r => ih (r.add s)
  exact hkeep _

namespace Worker

variable {w : Worker} {first last : Nat} {p : Message → Bool}

/-! ### Events and the clock -/

/-- Reading the first of what has arrived. -/
theorem step_read {r : Reading} {inbox : List Reading} (hlisten : w.isListening = true)
    (hin : w.inbox = r :: inbox) : w.step .read = (w.took r inbox).onRead r := by
  have hcan : w.canHappen .read = true := by simp [canHappen, hlisten, hin]
  rw [step, if_pos hcan, act, read, hin]
  rfl

theorem step_read_of_empty (hin : w.inbox = []) : w.step .read = w := by
  have hcan : w.canHappen .read = false := by simp [canHappen, hin]
  rw [step, if_neg (by simp [hcan])]

/-- What a worker has not read before was the first in its inbox. -/
theorem read_of_heard {e : WorkerEvent} (he : e.isInner = true) {r : Reading}
    (hnot : r ∉ w.heard) (hmem : r ∈ (w.step e).heard) :
    e = .read ∧ w.isListening = true ∧ ∃ inbox, w.inbox = r :: inbox := by
  rcases w.keeps_step he with hkeep | ⟨r', inbox, heq, hlisten, hin, hstep⟩
  · exact absurd (hkeep.heard ▸ hmem) hnot
  · rw [hstep, (keeps_onRead _ _).heard] at hmem
    obtain rfl : r = r' := by simpa [took, hnot] using hmem
    exact ⟨heq, hlisten, inbox, hin⟩

/-- Whoever waits for nothing but the coordinator does nothing but read. -/
theorem phase_step_of_timer (ht : w.timer? = none) {e : WorkerEvent} (he : e ≠ .read) :
    (w.step e).phase = w.phase := by
  have hr := w.reacts_step e
  generalize w.step e = v at hr ⊢
  cases hr with
  | refused | arrive | sever | work | interrupt | advance => rfl
  | read => exact absurd rfl he
  | reach hp | miss hp | report hp | conclude hp | giveUp hp => simp [timer?, hp] at ht
  | expire _ ht' =>
    rw [ht] at ht'
    cases ht'

/-- Time passes and changes nothing else. -/
theorem step_advance (w : Worker) (ms : Nat) :
    ∃ now, w.now ≤ now ∧ now ≤ w.now + ms ∧ w.step (.advance ms) = { w with now } := by
  have hr := w.reacts_step (.advance ms)
  generalize w.step (.advance ms) = v at hr ⊢
  cases hr with
  | refused => exact ⟨w.now, Nat.le_refl _, Nat.le_add_right _ _, rfl⟩
  | @advance _ now hnow =>
    refine ⟨now, ?_, ?_, rfl⟩ <;> cases ht : w.timer? <;> rw [ht] at hnow <;>
      simp only [Option.elim_some, Option.elim_none] at hnow <;> omega

/-- Nothing but the next thing to do holds up the clock. -/
theorem exists_timer_of_advance {ms : Nat} (h : (w.step (.advance ms)).now < w.now + ms) :
    ∃ t, w.timer? = some t ∧ t ≤ (w.step (.advance ms)).now := by
  have hr := w.reacts_step (.advance ms)
  generalize w.step (.advance ms) = v at hr h ⊢
  cases hr with
  | refused hcan => cases hcan
  | @advance _ now hnow =>
    have hlt : now < w.now + ms := h
    cases ht : w.timer? with
    | some t =>
      rw [ht, Option.elim_some] at hnow
      exact ⟨t, rfl, show t ≤ now by omega⟩
    | none =>
      rw [ht, Option.elim_none] at hnow
      omega

theorem now_writeThen (w : Worker) (m : Message) (next : WorkerPhase) :
    (w.writeThen m next).now = w.now := by
  unfold writeThen
  split <;> rfl

theorem now_miss (w : Worker) (deadline : Nat) : (w.miss deadline).now = w.now := by
  unfold miss
  split <;> rfl

theorem now_onRead (w : Worker) (r : Reading) : (w.onRead r).now = w.now := by
  unfold onRead
  split
  case h_3 =>
    unfold configure
    split
    · exact w.now_writeThen _ _
    · rfl
  case h_9 =>
    unfold onRunning
    split <;> rfl
  case h_10 =>
    unfold onFinishing
    split <;> rfl
  all_goals rfl

/-- No time passes unless the event says so. -/
theorem now_step (w : Worker) {e : WorkerEvent} (he : ∀ ms, e ≠ .advance ms) :
    (w.step e).now = w.now := by
  have hr := w.reacts_step e
  generalize w.step e = v at hr ⊢
  cases hr with
  | refused | arrive | sever | work | giveUp | interrupt => rfl
  | reach => exact w.now_writeThen _ _
  | miss => exact w.now_miss _
  | read => exact now_onRead _ _
  | report | conclude =>
    simp only [report, conclude]
    split <;> rfl
  | advance => exact absurd rfl (he _)
  | expire =>
    unfold expire
    split
    · exact w.now_miss _
    · rfl
    · unfold prepared
      split <;> exact w.now_writeThen _ _
    · rfl
    · rfl

/-- A worker that has stopped writes nothing any more. -/
theorem log_step_of_stopped {result : Except Error Report} (hp : w.phase = .stopped result)
    (e : WorkerEvent) : (w.step e).log = w.log := by
  have hr := w.reacts_step e
  generalize w.step e = v at hr ⊢
  cases hr with
  | refused | arrive | sever | advance | work | interrupt => rfl
  | read hlisten => simp [isListening, hp] at hlisten
  | expire he ht => simp [timer?, hp] at ht
  | reach hp' | miss hp' | report hp' | conclude hp' | giveUp hp' =>
    rw [hp] at hp'
    cases hp'

/-! ### Messages in time -/

/-- The log only grows. -/
theorem log_step (w : Worker) (ev : WorkerEvent) : w.log <+: (w.step ev).log := by
  cases ev with
  | arrive r => exact List.prefix_refl _
  | _ => exact (Flows.step w rfl).log

/-- What has been read only grows. -/
theorem heard_step (w : Worker) (ev : WorkerEvent) : w.heard <+: (w.step ev).heard := by
  by_cases he : ev.isInner = true
  · rcases w.keeps_step he with hkeep | ⟨r, inbox, -, -, -, hstep⟩
    · rw [hkeep.heard]
    · rw [hstep, (keeps_onRead _ _).heard]
      exact List.prefix_append _ _
  · cases ev with
    | arrive r => exact List.prefix_refl _
    | _ => exact absurd rfl he

/-- The worker has written such a message with success, not before the instant `first` nor after the
    instant `last`. -/
def TellsWithin (w : Worker) (first last : Nat) (p : Message → Bool) : Prop :=
  ∃ x ∈ w.log, p x.message = true ∧ x.delivered = true ∧ first ≤ x.instant ∧ x.instant ≤ last

theorem TellsWithin.step (h : w.TellsWithin first last p) (ev : WorkerEvent) :
    (w.step ev).TellsWithin first last p := by
  obtain ⟨x, hx, hx'⟩ := h
  exact ⟨x, (w.log_step ev).subset hx, hx'⟩

/-- What was written with success was sent. -/
theorem TellsWithin.exists_sent (h : w.TellsWithin first last p) : ∃ m ∈ w.sent, p m = true := by
  obtain ⟨x, hx, hp, hdelivered, -⟩ := h
  exact ⟨x.message, List.mem_map_of_mem (List.mem_filter.mpr ⟨hx, hdelivered⟩), hp⟩

theorem exists_lastReport (h : w.TellsWithin first last Message.isLastReport) :
    ∃ r, .statsReport r ∈ w.sent ∧ r.completed = true := by
  obtain ⟨m, hsent, hlast⟩ := h.exists_sent
  cases m with
  | statsReport r => exact ⟨r, hsent, hlast⟩
  | _ => cases hlast

/-- What is written now is written in time. -/
theorem tellsWithin_write (hw : w.isWritable = true) {m : Message} (hm : p m = true)
    (hfirst : first ≤ w.now) (hlast : w.now ≤ last) (next : WorkerPhase) :
    { w.write m with phase := next }.TellsWithin first last p :=
  ⟨⟨w.now, m, w.isWritable⟩, List.mem_append_right _ (List.mem_singleton_self _), hm, hw, hfirst,
    hlast⟩

/-! ### The answer to the configuration -/

/-- The worker answers the configuration in time: it still prepares the run, which takes no longer,
    or it has answered. -/
inductive Answers (w : Worker) (first last : Nat) : Prop
  | preparing {cfg : Config} {clients : List Client} {resolution : Discovery.Resolution}
      (hp : w.phase = .preparing cfg clients resolution) (hfirst : first ≤ w.now)
      (hnow : w.now ≤ resolution.finished) (hlast : resolution.finished ≤ last)
  | answered (h : w.TellsWithin first last Message.isAnswer)

/-- **Preparing in time.** Whatever happens to a worker that answers in time, it goes on to do so. -/
theorem Answers.step (hw : w.isWritable = true) (h : w.Answers first last) (ev : WorkerEvent) :
    (w.step ev).Answers first last := by
  cases h with
  | answered h => exact .answered (h.step ev)
  | preparing hp hfirst hnow hlast =>
    have hr := w.reacts_step ev
    generalize w.step ev = v at hr ⊢
    cases hr with
    | refused | arrive | sever => exact .preparing hp hfirst hnow hlast
    | read hlisten => simp [isListening, hp] at hlisten
    | work he => simp [hasEngines, hp] at he
    | @advance ms now hlater =>
      simp only [timer?, hp, Option.elim_some] at hlater
      refine .preparing hp ?_ ?_ hlast
      · show first ≤ now
        omega
      · show now ≤ _
        omega
    | expire =>
      rw [expire, hp]
      refine .answered ?_
      simp only [prepared, reject, writeThen_eq hw]
      split
      · exact tellsWithin_write hw rfl hfirst (by omega) _
      · exact tellsWithin_write hw rfl hfirst (by omega) _
    | reach hp' | miss hp' | report hp' | conclude hp' | giveUp hp' | interrupt hp' =>
      rw [hp] at hp'
      cases hp'

/-- A worker that is told its id waits for the configuration. -/
theorem phase_read_hello (hp : w.phase = .greeting) {x : UInt64} {inbox : List Reading}
    (hin : w.inbox = .message (.hello (some x)) :: inbox) :
    (w.step .read).phase = .awaitingConfig := by
  have hphase : (w.took (.message (.hello (some x))) inbox).phase = .greeting := hp
  rw [step_read (by simp [isListening, hp]) hin]
  simp only [onRead, hphase]

/-- A worker that reads the configuration answers it within the time that finding endpoints may
    take. -/
theorem answers_read (hw : w.isWritable = true) (hp : w.phase = .awaitingConfig) {cfg : Config}
    {inbox : List Reading} (hin : w.inbox = .message (.config cfg) :: inbox) :
    (w.step .read).Answers w.now (w.now + Discovery.waitMs cfg) := by
  have hstep : w.step .read = (w.took (.message (.config cfg)) inbox).configure cfg := by
    have hphase : (w.took (.message (.config cfg)) inbox).phase = .awaitingConfig := hp
    rw [step_read (by simp [isListening, hp]) hin]
    simp only [onRead, hphase]
  rw [hstep, configure]
  split
  · rename_i e _
    have htook : (w.took (.message (.config cfg)) inbox).isWritable = true := hw
    rw [reject, writeThen_eq htook]
    exact .answered (tellsWithin_write htook rfl (Nat.le_refl _) (Nat.le_add_right _ _) _)
  · rename_i clients resolution hprepare
    have hresolution : resolution = Discovery.resolve w.setup.world.network cfg w.now := by
      unfold prepare at hprepare
      split at hprepare
      · cases hprepare
      · cases hprepare
        rfl
    obtain ⟨hle, hlast⟩ := Discovery.finished_resolve w.setup.world.network cfg w.now
    exact .preparing rfl (Nat.le_refl _) (hresolution ▸ hle) (hresolution ▸ hlast)

/-! ### The last report -/

/-- The worker sends its last report in time: its engines still run, and are done by then, or it has
    sent it. -/
inductive Performs (w : Worker) (first last : Nat) : Prop
  | running {cfg : Config} {next : Nat} (hp : w.phase = .running cfg next) (hfirst : first ≤ w.now)
      (hnow : w.now ≤ last) (hends : w.group.EndsBy last)
  | performed (h : w.TellsWithin first last Message.isLastReport)

/-- The engines act by the bound, or have stopped. -/
theorem enginesNext_le (hnow : w.now ≤ last) (hends : w.group.EndsBy last) :
    w.enginesNext ≤ last := by
  rw [enginesNext]
  cases ht : w.group.next? with
  | none => exact hnow
  | some t => exact hends.next?_le ht

/-- **Running in time.** Whatever happens to a worker that sends its last report in time, except that
    its link ends, it goes on to do so. -/
theorem Performs.step (hw : w.isWritable = true)
    (hin : w.isStopped = false → ∀ r ∈ w.inbox, ∃ m, r = .message m)
    (h : w.Performs first last) (ev : WorkerEvent) : (w.step ev).Performs first last := by
  cases h with
  | performed h => exact .performed (h.step ev)
  | running hp hfirst hnow hends =>
    have hr := w.reacts_step ev
    generalize w.step ev = v at hr ⊢
    cases hr with
    | refused | arrive | sever => exact .running hp hfirst hnow hends
    | @read r inbox hlisten hin' =>
      obtain ⟨m, rfl⟩ := hin (by simp [isStopped, result?, hp]) r (by simp [hin'])
      have hphase : (w.took (.message m) inbox).phase = _ := hp
      simp only [onRead, hphase, onRunning]
      split
      · exact .running rfl hfirst hnow hends.cancel
      · exact .running hphase hfirst hnow hends
      · rename_i hnot
        exact absurd rfl (hnot m)
    | work => exact .running hp hfirst hnow (hends.stepEngine _)
    | report =>
      rw [report, if_pos hw]
      exact .running rfl hfirst hnow hends
    | conclude =>
      rw [conclude, if_pos hw]
      exact .performed (tellsWithin_write hw (Report.completed_ofStats _ true) hfirst hnow _)
    | interrupt => exact .running hp hfirst hnow hends.cancel
    | @advance ms now hlater =>
      have hnext := enginesNext_le hnow hends
      simp only [timer?, hp, Option.elim_some] at hlater
      refine .running hp ?_ ?_ hends
      · show first ≤ now
        omega
      · show now ≤ last
        omega
    | expire he => simp [hasEngines, hp] at he
    | reach hp' | miss hp' | giveUp hp' =>
      rw [hp] at hp'
      cases hp'

/-- A worker that reads the start sends its last report when the configured time and one timeout more
    are over at the latest. -/
theorem performs_read {cfg : Config} {clients : List Client} {pool : Pool}
    (hp : w.phase = .ready cfg clients pool) {inbox : List Reading}
    (hin : w.inbox = .message .start :: inbox) :
    (w.step .read).Performs w.now
      (w.now + Clock.seconds cfg.time.toNat + Clock.seconds cfg.sendTimeout.toNat) := by
  have hstep : w.step .read = (w.took (.message .start) inbox).begin cfg clients pool := by
    have hphase : (w.took (.message .start) inbox).phase = .ready cfg clients pool := hp
    rw [step_read (by simp [isListening, hp]) hin]
    simp only [onRead, hphase]
  rw [hstep]
  refine .running rfl (Nat.le_refl _) ?_ (Group.endsBy_spawn cfg pool _ clients w.now)
  show w.now ≤ w.now + Clock.seconds cfg.time.toNat + Clock.seconds cfg.sendTimeout.toNat
  omega

end Worker

end TxLoad
