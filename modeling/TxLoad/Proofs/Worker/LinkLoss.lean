import TxLoad.Client.KeyValue
import TxLoad.Proofs.Worker.Abandoning

namespace TxLoad

/-!
# What comes of a lost link

A worker whose link is lost while it runs notices it at once: time does not pass as long as
something waits to be read or a report is due. The only thing that can come before the notice is the
end of the run, if the last engine stops at that very instant.

* `Worker.runPromptly`: no time passes over something that waits to be read.
* `Worker.HasLost`: the link has ended or brought something that is no message, or a report is due
  that cannot be written. It is noticed at the same instant, unless the run is over by then
  (`Worker.HasLost.exists_notices`).
* `Worker.Abandons` is what comes of the notice; `Worker.heedsLoss_run` assembles both.
-/

namespace Worker

variable {w : Worker} {cfg : Config} {t ms : Nat}

/-! ### Reading at once -/

/-- The answer to an event of a worker that lets no time pass while something waits to be read. -/
def stepPromptly (w : Worker) : WorkerEvent → Worker
  | .advance ms => if w.canHappen .read then w else w.step (.advance ms)
  | e => w.step e

/-- The answer to a sequence of events of a worker that reads at once. -/
def runPromptly (w : Worker) (es : List WorkerEvent) : Worker := es.foldl stepPromptly w

/-- A worker that reads at once is a worker. -/
theorem stepPromptly_eq (w : Worker) (ev : WorkerEvent) :
    w.stepPromptly ev = w ∨ w.stepPromptly ev = w.step ev := by
  cases ev with
  | advance ms =>
    rw [stepPromptly]
    split
    · exact .inl rfl
    · exact .inr rfl
  | _ => exact .inr rfl

theorem stepPromptly_of_notices {ev : WorkerEvent} (h : w.Notices ev) :
    w.stepPromptly ev = w.step ev := by
  cases h <;> rfl

/-- What every event keeps, a worker that reads at once keeps. -/
theorem stepPromptly_keeps {P : Worker → Prop} (hstep : ∀ (w : Worker) ev, P w → P (w.step ev))
    (h : P w) (ev : WorkerEvent) : P (w.stepPromptly ev) := by
  rcases w.stepPromptly_eq ev with heq | heq
  · rwa [heq]
  · rw [heq]
    exact hstep w ev h

theorem runPromptly_keeps {P : Worker → Prop} (hstep : ∀ (w : Worker) ev, P w → P (w.step ev))
    (h : P w) (es : List WorkerEvent) : P (w.runPromptly es) :=
  List.foldlRecOn (motive := P) es stepPromptly h fun _ hw e _ => stepPromptly_keeps hstep hw e

/-! ### A loss -/

/-- The link of a running worker is lost: it has ended, has failed or has brought something that is
    no message, or a report is due that cannot be written. -/
inductive HasLost (w : Worker) (cfg : Config) : Prop
  | link {next : Nat} {r : Reading} (hp : w.phase = .running cfg next) (hr : r ∈ w.inbox)
    (hm : ∀ m, r ≠ .message m)
  | report {next : Nat} (hp : w.phase = .running cfg next) (hnow : next ≤ w.now)
    (hw : w.isWritable = false)

theorem HasLost.exists_running (h : w.HasLost cfg) : ∃ next, w.phase = .running cfg next := by
  cases h with
  | link hp | report hp => exact ⟨_, hp⟩

/-- What the engines do takes no loss away. -/
theorem HasLost.withGroup (h : w.HasLost cfg) (group : Group) : { w with group }.HasLost cfg := by
  cases h with
  | link hp hr hm => exact .link hp hr hm
  | report hp hnow hw => exact .report hp hnow hw

/-- What waits to be read is still there when more has arrived. -/
theorem HasLost.arrive (h : w.HasLost cfg) (r : Reading) :
    { w with inbox := w.inbox ++ [r] }.HasLost cfg := by
  cases h with
  | link hp hr hm => exact .link hp (List.mem_append_left _ hr) hm
  | report hp hnow hw => exact .report hp hnow hw

theorem HasLost.sever (h : w.HasLost cfg) : { w with isWritable := false }.HasLost cfg := by
  cases h with
  | link hp hr hm => exact .link hp hr hm
  | report hp hnow hw => exact .report hp hnow rfl

/-- Reading a message, a loss waits behind it. -/
theorem HasLost.took (h : w.HasLost cfg) {m : Message} {inbox : List Reading}
    (hin : w.inbox = .message m :: inbox) : (w.took (.message m) inbox).HasLost cfg := by
  cases h with
  | report hp hnow hw => exact .report hp hnow hw
  | link hp hr hm =>
    rw [hin] at hr
    exact .link hp ((List.mem_cons.mp hr).resolve_left (hm m)) hm

/-- A message takes no loss away. -/
theorem HasLost.onRead (h : w.HasLost cfg) (m : Message) :
    (w.onRead (.message m)).HasLost cfg := by
  obtain ⟨next, hp⟩ := h.exists_running
  simp only [Worker.onRead, hp]
  cases m with
  | stop reason => exact h.withGroup _
  | _ => exact h

/-- A run that was over at the instant `t`. -/
structure IsOver (w : Worker) (t : Nat) : Prop where
  phase : (∃ last deadline, w.phase = .finishing last deadline) ∨
    ∃ result, w.phase = .stopped result
  early : ∀ e ∈ w.group.engines, e.now ≤ t

/-- A run that is over stays so. -/
theorem IsOver.step (h : w.IsOver t) (ev : WorkerEvent) : (w.step ev).IsOver t := by
  have hphase := h.phase
  have hr := w.reacts_step ev
  generalize w.step ev = v at hr ⊢
  cases hr with
  | refused | arrive | sever | advance => exact ⟨h.phase, h.early⟩
  | @read r inbox hlisten =>
    obtain ⟨last, deadline, hp⟩ | ⟨result, hp⟩ := h.phase
    · have hp' : (w.took r inbox).phase = .finishing last deadline := hp
      simp only [onRead, hp', onFinishing]
      split
      · exact ⟨.inr ⟨_, rfl⟩, h.early⟩
      · exact ⟨.inl ⟨_, _, hp⟩, h.early⟩
      · exact ⟨.inr ⟨_, rfl⟩, h.early⟩
    · simp [isListening, hp] at hlisten
  | work he => obtain ⟨last, deadline, hp⟩ | ⟨result, hp⟩ := h.phase <;> simp [hasEngines, hp] at he
  | expire he ht =>
    obtain ⟨last, deadline, hp⟩ | ⟨result, hp⟩ := h.phase
    · rw [Worker.expire, hp]
      exact ⟨.inr ⟨_, rfl⟩, h.early⟩
    · simp [timer?, hp] at ht
  | reach hp' | miss hp' | report hp' | conclude hp' | giveUp hp' | interrupt hp' =>
    simp [hp'] at hphase

/-- The worker concludes when all engines have stopped, none of them later than now. -/
theorem IsSound.isOver_conclude (h : w.IsSound) {next : Nat} (hp : w.phase = .running cfg next)
    (hs : w.group.isStopped = true) : w.conclude.IsOver w.now := by
  have hearly : ∀ e ∈ w.group.engines, e.now ≤ w.now := fun e he =>
    ((h.drives cfg next hp).keeping e he).stopped (List.all_eq_true.mp hs e he)
  unfold Worker.conclude
  simp only
  split
  · exact ⟨.inl ⟨_, _, rfl⟩, hearly⟩
  · exact ⟨.inr ⟨_, rfl⟩, hearly⟩

/-- **Step.** A loss that is not noticed is still there and no time has passed, unless the run is
    over. -/
theorem HasLost.stepPromptly (h : w.HasLost cfg) (hs : w.IsSound) {ev : WorkerEvent}
    (hn : ¬ w.Notices ev) : (w.stepPromptly ev).HasLost cfg ∧ (w.stepPromptly ev).now = w.now ∨
      (w.stepPromptly ev).IsOver w.now := by
  obtain ⟨next, hphase⟩ := h.exists_running
  have hstay : w.HasLost cfg ∧ w.now = w.now ∨ w.IsOver w.now := .inl ⟨h, rfl⟩
  rcases w.stepPromptly_eq ev with heq | heq
  · rwa [heq]
  have hr := w.reacts_step ev
  rw [heq]
  generalize hv : w.step ev = v at hr ⊢
  cases hr with
  | refused => exact hstay
  | arrive r => exact .inl ⟨h.arrive r, rfl⟩
  | sever => exact .inl ⟨h.sever, rfl⟩
  | @read r inbox hlisten hin =>
    -- What is no message would have been noticed.
    obtain ⟨m, rfl⟩ : ∃ m, r = .message m := by
      by_contra hne
      exact hn (.read hphase hin fun m hm => hne ⟨m, hm⟩)
    exact .inl ⟨(h.took hin).onRead m, now_onRead _ _⟩
  | work => exact .inl ⟨h.withGroup _, rfl⟩
  | @report cfg' next' hp hnow =>
    obtain ⟨rfl, rfl⟩ : cfg = cfg' ∧ next = next' := by
      rw [hphase] at hp
      cases hp
      exact ⟨rfl, rfl⟩
    cases hw : w.isWritable with
    | false => exact absurd (.report hp hnow hw) hn
    | true =>
      simp only [Worker.report, hw, if_true]
      cases h with
      | link _ hr hm => exact .inl ⟨.link rfl hr hm, rfl⟩
      | report _ _ hw' =>
        rw [hw] at hw'
        cases hw'
  | conclude hp hstopped => exact .inr (hs.isOver_conclude hp hstopped)
  | @advance ms now hnow =>
    refine .inl ?_
    cases h with
    | link hp hr hm =>
      -- What waits to be read keeps the clock from going on.
      have hcan : w.canHappen .read = true := by
        simp [canHappen, isListening, hp, List.ne_nil_of_mem hr]
      rw [Worker.stepPromptly, if_pos hcan] at heq
      rw [← hv, ← heq]
      exact ⟨.link hp hr hm, rfl⟩
    | report hp hdue hw =>
      simp only [timer?, hp, Option.elim_some] at hnow
      have hsame : now = w.now := by omega
      subst hsame
      exact ⟨.report hp hdue hw, rfl⟩
  | interrupt => exact .inl ⟨h.withGroup _, rfl⟩
  | expire he => simp [hasEngines, hphase] at he
  | reach hp | miss hp | giveUp hp =>
    rw [hphase] at hp
    cases hp

/-- **Noticing.** When time has passed after a loss, and the last engine stops only after it, then
    the loss was noticed at the instant of the loss. -/
theorem HasLost.exists_notices (h : w.HasLost cfg) (hs : w.IsSound) {es : List WorkerEvent}
    (hlater : w.now < (w.runPromptly es).now)
    (hgoing : w.now < (w.runPromptly es).group.finishedAt 0) :
    ∃ pre ev post, es = pre ++ ev :: post ∧ (w.runPromptly pre).now = w.now ∧
      (w.runPromptly pre).HasLost cfg ∧ (w.runPromptly pre).Notices ev := by
  induction es generalizing w with
  | nil => exact absurd hlater (Nat.lt_irrefl _)
  | cons ev es ih =>
    by_cases hn : w.Notices ev
    · exact ⟨[], ev, es, rfl, rfl, h, hn⟩
    · have hsound := stepPromptly_keeps (fun _ ev h => h.step ev) hs ev
      rcases h.stepPromptly hs hn with ⟨hlost, hnow⟩ | hover
      · rw [← hnow] at hlater hgoing
        obtain ⟨pre, ev', post, rfl, hpre⟩ := ih hlost hsound hlater hgoing
        rw [hnow] at hpre
        exact ⟨ev :: pre, ev', post, rfl, hpre⟩
      · have hover' := runPromptly_keeps (P := (IsOver · w.now)) (fun _ ev h => h.step ev) hover es
        obtain ⟨e, he, hlt⟩ := Group.exists_of_lt_finishedAt hgoing
        exact absurd (hover'.early e he) (Nat.not_le.mpr hlt)

/-- A worker reads a message and goes on. -/
theorem HasLost.step_read (h : w.HasLost cfg) {m : Message} {inbox : List Reading}
    (hin : w.inbox = .message m :: inbox) : (w.step .read).HasLost cfg ∧
      (w.step .read).inbox = inbox ∧ (w.step .read).now = w.now := by
  obtain ⟨next, hp⟩ := h.exists_running
  rw [Worker.step_read (by simp [isListening, hp]) hin]
  exact ⟨(h.took hin).onRead m, (keeps_onRead _ _).inbox, now_onRead _ _⟩

/-- A worker can notice a loss without letting time pass: it reads what has come before. -/
theorem HasLost.exists_reads (h : w.HasLost cfg) : ∃ reads ev, (∀ e ∈ reads, e = .read) ∧
    (w.run reads).now = w.now ∧ (w.run reads).Notices ev := by
  induction hin : w.inbox generalizing w with
  | nil =>
    cases h with
    | link _ hr _ =>
      rw [hin] at hr
      cases hr
    | report hp hnow hw => exact ⟨[], .report, by simp, rfl, .report hp hnow hw⟩
  | cons r inbox ih =>
    obtain ⟨next, hp⟩ := h.exists_running
    by_cases hm : ∃ m, r = .message m
    · obtain ⟨m, rfl⟩ := hm
      obtain ⟨hlost, hinbox, hnow⟩ := h.step_read hin
      obtain ⟨reads, ev, hreads, hsame, hn⟩ := ih hlost hinbox
      refine ⟨.read :: reads, ev, ?_, hsame.trans hnow, hn⟩
      exact fun e he => (List.mem_cons.mp he).elim (fun heq => heq) (hreads e)
    · exact ⟨[], .read, by simp, rfl, .read hp hin fun m heq => hm ⟨m, heq⟩⟩

/-! ### What comes of it -/

/-- What comes of a loss that was noticed at the instant `t`, whatever happens then: the worker
    fails at most `ms` later, once all engines have stopped, submits nothing more, and says nowhere
    that it has completed. -/
structure Abandons (w : Worker) (t ms : Nat) : Prop where
  fails : ∀ es, (w.run es).result? = none ∨
    (w.run es).result? = some (.error linkLost) ∧ (w.run es).group.isStopped = true
  /-- Until it has failed, and when it fails. -/
  intime : ∀ es ev, (w.run es).result? = none → (w.run (es ++ [ev])).now ≤ t + ms
  /-- At any time the worker can come to its end by itself. -/
  returns : ∀ es, ∃ own : List WorkerEvent, (∀ e ∈ own, e.isInner = true) ∧
    (w.run (es ++ own)).result? = some (.error linkLost)
  submitted : ∀ es, ∀ sends ∈ (w.run es).group.sends, ∀ s ∈ sends, s.submitted ≤ t
  incomplete : ∀ es, ∀ r ∈ (w.run es).reported, r.completed = false

theorem run_append (w : Worker) (es es' : List WorkerEvent) :
    w.run (es ++ es') = (w.run es).run es' := List.foldl_append

/-- A step of a worker that has not failed yet ends in time. -/
theorem Abandoned.now_step_le (h : w.Abandoned t ms) (hgoing : w.result? = none)
    (ev : WorkerEvent) : (w.step ev).now ≤ t + ms := by
  obtain ⟨hp, hnow⟩ | ⟨hp, -⟩ := h.stage
  · obtain ⟨-, hle⟩ | ⟨hp', -⟩ := (h.step ev).1.stage
    · exact hle
    · -- Only the end of the wait for the engines ends the worker, and takes no time.
      rwa [now_step]
      rintro ms rfl
      obtain ⟨now, -, -, hstep⟩ := w.step_advance ms
      rw [hstep] at hp'
      exact absurd (hp.symm.trans hp') (fun hc => by cases hc)
  · rw [result?, hp] at hgoing
    cases hgoing

/-- A worker that waits for its engines after a loss has never said that it has completed. -/
theorem Inv.incomplete (h : w.Inv) (hp : w.phase = .abandoning) :
    ∀ r ∈ w.reported, r.completed = false := by
  cases h with
  | abandoning _ _ hr =>
    rw [hr.reported_eq]
    exact fun r hmem => completed_of_mem_reports hmem
  | _ hp' =>
    rw [hp] at hp'
    cases hp'

theorem Abandoned.abandons (h : w.Abandoned t ms) (hinv : w.Inv) (hp : w.phase = .abandoning)
    (hsubmitted : ∀ sends ∈ w.group.sends, ∀ s ∈ sends, s.submitted ≤ t) :
    w.Abandons t ms where
  fails es := by
    obtain ⟨hp, -⟩ | ⟨hp, hstopped⟩ := (h.run es).1.stage
    · exact .inl (by rw [result?, hp])
    · exact .inr ⟨by rw [result?, hp], hstopped⟩
  intime es ev hgoing := by
    rw [run_append]
    exact (h.run es).1.now_step_le hgoing ev
  returns es := by
    obtain ⟨own, hown, hend, -⟩ := (h.run es).1.exists_join
    refine ⟨own, hown, ?_⟩
    rw [run_append, result?, hend]
  submitted es := by
    rw [(h.run es).2.1]
    exact hsubmitted
  incomplete es := by
    have hlog := (h.run es).2.2
    have hreported : (w.run es).reported = w.reported := by rw [reported, told, hlog]; rfl
    rw [hreported]
    exact hinv.incomplete hp

/-- What comes of noticing a loss. -/
theorem Notices.abandons {ev : WorkerEvent} (hn : w.Notices ev) (hinv : w.Inv) (hs : w.IsSound)
    {next : Nat} (hp : w.phase = .running cfg next)
    (hwords : cfg.rate.toNat * cfg.time.toNat < Text.wordMax) :
    (w.step ev).Abandons w.now (abandonMs cfg) := by
  obtain ⟨hphase, hgroup, -⟩ := step_of_notices hn
  refine (abandoned_of_notices hs hp hwords hn).abandons (hinv.step ev) hphase ?_
  rw [hgroup, Group.sends_cancel]
  intro sends hmem s hsent
  obtain ⟨e, he, rfl⟩ := List.mem_map.mp hmem
  exact ((hs.drives cfg next hp).keeping e he).submitted s hsent

/-- A running worker heeds the loss of its coordinator. -/
structure HeedsLoss (w : Worker) (cfg : Config) : Prop where
  /-- Whenever a loss is noticed, the worker gives up. -/
  noticed : ∀ ev, w.Notices ev → (w.step ev).Abandons w.now (abandonMs cfg)
  /-- A loss is noticed at its instant, unless the last engine has stopped by then. -/
  notices : w.HasLost cfg → ∀ es, w.now < (w.runPromptly es).now →
    w.now < (w.runPromptly es).group.finishedAt 0 →
    ∃ pre ev post, es = pre ++ ev :: post ∧ (w.runPromptly pre).Notices ev ∧
      (w.runPromptly (pre ++ [ev])).Abandons w.now (abandonMs cfg)
  /-- Nothing but what has come before is in the way of the notice. -/
  reads : w.HasLost cfg → ∃ reads ev, (∀ e ∈ reads, e = .read) ∧ (w.run reads).now = w.now ∧
    (w.run reads).Notices ev

/-- **A lost coordinator.** A running worker that loses its coordinator, by what it reads or by a
    report that it cannot write, notices this at once. It fails at most the longest wait of an
    engine later, after all its engines have stopped, and submits nothing after the notice. -/
theorem heedsLoss_run (setup : WorkerSetup) (now : Nat) (past : List WorkerEvent) {next : Nat}
    (hp : ((start setup now).run past).phase = .running cfg next)
    (hwords : cfg.rate.toNat * cfg.time.toNat < Text.wordMax) :
    ((start setup now).run past).HeedsLoss cfg := by
  have hinv := (inv_start setup now).run past
  have hs := (isSound_start setup now).run past
  generalize (start setup now).run past = w at hp hinv hs
  refine ⟨fun ev hn => hn.abandons hinv hs hp hwords, fun hlost es hlater hgoing => ?_,
    HasLost.exists_reads⟩
  obtain ⟨pre, ev, post, rfl, hnow, hlost', hn⟩ := hlost.exists_notices hs hlater hgoing
  obtain ⟨next', hp'⟩ := hlost'.exists_running
  have hnoticed : w.runPromptly (pre ++ [ev]) = (w.runPromptly pre).step ev := by
    rw [runPromptly, List.foldl_append]
    exact stepPromptly_of_notices hn
  refine ⟨pre, ev, post, rfl, hn, ?_⟩
  rw [hnoticed, ← hnow]
  exact hn.abandons (runPromptly_keeps (fun _ ev h => h.step ev) hinv pre)
    (runPromptly_keeps (fun _ ev h => h.step ev) hs pre) hp' hwords

/-! ### A far side that never answers -/

/-- The setup of a worker whose targets accept the connection and answer no send. -/
def unanswered : WorkerSetup where
  settings := .of "localhost"
  registry := .builtin
  world := ⟨Discovery.silent, fun _ _ => ⟨.now (.ok ()), fun _ => .never⟩, fun _ _ => Fin.last _⟩

/-- A configuration with one connection that waits ten seconds for an answer. -/
def patient : Config := { connections := 1, sendTimeout := 10, endpoints := ["localhost"] }

/-- The link ends while the first transaction is on its way. -/
def untilLoss : List WorkerEvent :=
  [.reach, .arrive (.message (.hello (some 0))), .read, .arrive (.message (.config patient)), .read,
    .expire, .arrive (.message .start), .read, .work 0, .work 0, .work 0, .arrive .ended]

/-- What is left to do then. -/
def afterLoss : List WorkerEvent := [.read, .advance 10000, .work 0, .work 0, .join]

/-- This worker fails when the wait for the answer is over. -/
theorem heedsLoss_run_unanswered :
    ((start unanswered 0).run untilLoss).phase = .running patient 1000 ∧
      patient.rate.toNat * patient.time.toNat < Text.wordMax ∧
      ((start unanswered 0).run untilLoss).HeedsLoss patient ∧
      ((start unanswered 0).run untilLoss).HasLost patient ∧
      ((start unanswered 0).run (untilLoss ++ afterLoss)).now = 10000 ∧
      ((start unanswered 0).run (untilLoss ++ afterLoss)).result? = some (.error linkLost) := by
  have hp : ((start unanswered 0).run untilLoss).phase = .running patient 1000 := rfl
  refine ⟨hp, by decide, heedsLoss_run unanswered 0 untilLoss hp (by decide), ?_, ?_, ?_⟩
  · exact .link hp (List.mem_singleton.mpr rfl) (fun m hm => by cases hm)
  · decide +kernel
  · decide +kernel

end Worker

end TxLoad
