import TxLoad.Client.KeyValue
import TxLoad.Proofs.Coordinator.Timing

namespace TxLoad

/-!
# How a run of a coordinator ends

A run that was started ends by concluding, and nothing but concluding writes a file.

* `Coordinator.Closes` says once what an event makes of the files and of the end of the run;
  `Coordinator.closes_step`: none else does.
* `Coordinator.IsAccounted`: result and files of a run, whether it has ended or not.
* `Coordinator.Reports`: how a file comes to be written.
* `Coordinator.setUp_cases`: what hinders a coordinator from being set up, if anything does.
* `Coordinator.isAccounted_run`: in every run result and files are accounted for.
-/

namespace Coordinator

variable {c d : Coordinator}

/-! ### What stays before the start -/

/-- What a coordinator does not touch before the start: setup, clock, interrupt, what was read, and
    the files. -/
def backdrop (c : Coordinator) : Coordinator :=
  { c.rest with phase := .accepting 0, workers := [] }

theorem files_of_backdrop (h : c.backdrop = d.backdrop) : c.files = d.files :=
  (congrArg Coordinator.files h :)

theorem interrupt_of_backdrop (h : c.backdrop = d.backdrop) : c.interrupt = d.interrupt :=
  (congrArg Coordinator.interrupt h :)

theorem backdrop_giveUp (hc : c.workers.Nodup) (reason : String) (e : Error) :
    (c.giveUp reason e).backdrop = c.backdrop := by
  rw [giveUp, abort_eq_note hc]
  rfl

theorem backdrop_configure (hc : c.workers.Nodup) : c.configure.backdrop = c.backdrop := by
  rw [configure_eq hc]
  split
  · rfl
  · exact backdrop_giveUp (c := c.distributed) hc _ _

theorem backdrop_enlist {q : Nat} (hc : c.workers.Nodup) (hq : q ∉ c.workers) :
    (c.enlist q).backdrop = c.backdrop := by
  by_cases hcan : c.canWrite q = true
  · rw [enlist_of_canWrite hcan]
    split
    · rfl
    · have hnodup : (c.enlisted q).workers.Nodup := by
        refine List.nodup_append.mpr ⟨hc, List.nodup_singleton q, ?_⟩
        rintro a ha b hb rfl
        exact hq (List.mem_singleton.mp hb ▸ ha)
      exact backdrop_configure hnodup
  · rw [enlist_of_not_canWrite (by simpa using hcan)]
    rfl

theorem backdrop_onAnswer (hc : c.workers.Nodup) (next deadline : Nat) (r : Reading) :
    (c.onAnswer next deadline r).backdrop = c.backdrop := by
  unfold onAnswer
  split
  · exact backdrop_giveUp hc _ _
  · split
    · rfl
    · exact (congrArg (fun b : Coordinator => { b with phase := .accepting 0, workers := [] })
        (startsTo_startAll hc).rest :)

/-- Reading before the start. -/
theorem Preparing.backdrop_onRead (hb : c.Basics) (h : c.Preparing) {q : Nat} {r : Reading}
    {inbox : List Reading} (hlisten : c.listensTo q = true) :
    ((c.take q r inbox).onRead q r).backdrop = (c.take q r inbox).backdrop := by
  rw [onRead, phase_take]
  cases h with
  | accepting hp h =>
    simp only [listensTo, hp, Bool.and_eq_true, Option.isNone_iff_eq_none, idOf?_eq_none_iff]
      at hlisten
    simp only [hp, onGreeting]
    split
    · exact backdrop_enlist (c := c.take q _ inbox) hb.nodup hlisten.2
    · rfl
  | configuring hp h =>
    simp only [hp]
    exact backdrop_onAnswer (c := c.take q r inbox) hb.nodup _ _ r
  | calledOff hp h => simp [listensTo, hp] at hlisten

/-- The deadline before the start. -/
theorem Preparing.backdrop_expire (hb : c.Basics) (h : c.Preparing) :
    c.expire.backdrop = c.backdrop := by
  rw [Coordinator.expire]
  cases h with
  | accepting hp h | configuring hp h =>
    simp only [hp]
    exact backdrop_giveUp hb.nodup _ _
  | calledOff hp h => simp only [hp]

/-- Before the start nothing is written to a file. -/
theorem Preparing.files_step (hb : c.Basics) (h : c.Preparing) (ev : CoordinatorEvent) :
    (c.step ev).files = c.files := by
  have hr := c.reacts_step ev
  generalize c.step ev = d at hr ⊢
  cases hr with
  | refused | late | again | welcome | arrive | sever | interrupt | advance => rfl
  | read hlisten hin => exact (files_of_backdrop (h.backdrop_onRead hb hlisten)).trans rfl
  | heed hp => exact absurd hp (h.phase_ne_running _)
  | expire => exact files_of_backdrop (h.backdrop_expire hb)

/-! ### Concluding -/

/-- What an event makes of the files and of the end of the run. -/
inductive Closes (c : Coordinator) : CoordinatorEvent → Coordinator → Prop
  /-- The files stay as they are, and the run has not ended, or had ended before. -/
  | ongoing {ev : CoordinatorEvent} {d : Coordinator} (hfiles : d.files = c.files)
    (hp : d.isFinished = true → d.phase = c.phase) : c.Closes ev d
  /-- The run is called off before the start. -/
  | calledOff {ev : CoordinatorEvent} {d : Coordinator} (hd : d.Preparing)
    (hfiles : d.files = c.files) : c.Closes ev d
  /-- The run concludes, as the coordinator `b` that has waited until all workers have left, or
      until the deadline for leaving. -/
  | concluded {ev : CoordinatorEvent} {b : Coordinator} (hsetup : b.setup = c.setup)
    (hfiles : b.files = c.files) (hrun : c.isFinished = false)
    (hsettled : b.collector.isSettled = true)
    (hleft : b.connected = [] ∨ ∃ deadline, c.phase = .shuttingDown deadline ∧ deadline ≤ c.now) :
    c.Closes ev b.conclude

/-- A coordinator that waits for its workers to leave concludes when there are none. -/
theorem closes_leave {b : Coordinator} {deadline : Nat} (ev : CoordinatorEvent)
    (hsetup : b.setup = c.setup) (hfiles : b.files = c.files) (hrun : c.isFinished = false)
    (hp : b.phase = .shuttingDown deadline) (hsettled : b.collector.isSettled = true) :
    c.Closes ev b.leave := by
  by_cases hleft : b.connected.isEmpty = true
  · rw [leave, if_pos hleft]
    exact .concluded hsetup hfiles hrun hsettled (.inl (List.isEmpty_iff.mp hleft))
  · rw [leave, if_neg hleft]
    refine .ongoing hfiles fun hf => ?_
    rw [isFinished, result?, hp] at hf
    cases hf

/-- A running coordinator goes on, or waits for its workers to leave. -/
theorem closes_settle {b : Coordinator} {deadline : Nat} (ev : CoordinatorEvent)
    (hsetup : b.setup = c.setup) (hfiles : b.files = c.files) (hrun : c.isFinished = false)
    (hp : b.phase = .running deadline) : c.Closes ev b.settle := by
  by_cases hs : b.collector.isSettled = true
  · rw [settle, if_pos hs]
    exact closes_leave ev hsetup hfiles hrun rfl hs
  · rw [settle, if_neg hs]
    refine .ongoing hfiles fun hf => ?_
    rw [isFinished, result?, hp] at hf
    cases hf

theorem isFinished_of_running {deadline : Nat} (hp : c.phase = .running deadline) :
    c.isFinished = false := by
  rw [isFinished, result?, hp]
  rfl

theorem isFinished_of_shuttingDown {deadline : Nat} (hp : c.phase = .shuttingDown deadline) :
    c.isFinished = false := by
  rw [isFinished, result?, hp]
  rfl

/-- Reading from the start on. -/
theorem Started.closes_read (hb : c.Basics) (h : c.Started) {q : Nat} (r : Reading)
    (inbox : List Reading) (hlisten : c.listensTo q = true) :
    c.Closes (.read q) ((c.take q r inbox).onRead q r) := by
  have hid : ∃ id, c.idOf? q = some id := by
    cases hid : c.idOf? q with
    | some id => exact ⟨id, rfl⟩
    | none =>
      cases h with
      | _ hp => simp [listensTo, hp, hid] at hlisten
  obtain ⟨id, hid⟩ := hid
  have htake : (c.take q r inbox).idOf? q = some id := hid
  obtain ⟨e, he⟩ := h.isUnderway.exists_entry ((idOf?_eq_some_iff hb.nodup).mp hid)
  rw [onRead, phase_take]
  cases h with
  | running hp h =>
    have ha : (c.take q r inbox).Attends id e r ((c.take q r inbox).onReading id r) :=
      attends_onReading (c := c.take q r inbox) he r
    simp only [hp, htake]
    exact closes_settle _ (setup_of_rest ha.rest :) (congrArg Coordinator.files ha.rest :)
      (isFinished_of_running hp) ((phase_of_rest ha.rest).trans hp)
  | shuttingDown hp h hs =>
    simp only [hp, htake]
    -- Whatever is read, at most one worker leaves by it.
    cases r <;> exact closes_leave _ rfl rfl (isFinished_of_shuttingDown hp) hp hs
  | finished hp => simp [listensTo, hp] at hlisten

/-- **Inversion.** An event leaves the files alone or ends the run, which before the start writes
    nothing. -/
theorem closes_step (h : c.Inv) (ev : CoordinatorEvent) : c.Closes ev (c.step ev) := by
  obtain ⟨hb, hprep | hs⟩ := h
  · obtain ⟨-, hprep' | ⟨hopens, hs'⟩⟩ := hprep.step hb ev
    · exact .calledOff hprep' (hprep.files_step hb ev)
    · refine .ongoing (hprep.files_step hb ev) fun hf => ?_
      obtain ⟨next, deadline, q, inbox, hp, hlast, hq, hin, rfl⟩ := hopens
      rw [step_of_last_consent hp hlast hq hin, isFinished, result?,
        phase_startAll (c := c.take q (.message .ready) inbox) hb.nodup] at hf
      cases hf
  · have hr := c.reacts_step ev
    generalize c.step ev = d at hr ⊢
    cases hr with
    | refused | late | again | welcome | arrive | sever | interrupt | advance =>
      exact .ongoing rfl fun _ => rfl
    | read hlisten hin => exact hs.closes_read hb _ _ hlisten
    | heed hp =>
      have heq := hs.isUnderway.heed_eq hb
      refine .ongoing ?_ fun _ => ?_ <;> rw [heq] <;> rfl
    | expire hd hnow =>
      rw [expire]
      cases hs with
      | running hp h =>
        simp only [hp]
        exact closes_settle (b := c.loseActive) _ rfl rfl (isFinished_of_running hp) hp
      | shuttingDown hp h hsettled =>
        rw [deadline?, hp] at hd
        cases hd
        simp only [hp]
        exact .concluded rfl rfl (isFinished_of_shuttingDown hp) hsettled
          (.inr ⟨_, hp, hnow⟩)
      | finished hp => simp [deadline?, hp] at hd

/-! ### The instant of the last completion -/

/-- Whatever is read while running, completions are dated. -/
theorem isDated_onReading (h : c.collector.IsDated) (id : Nat) (r : Reading) :
    (c.onReading id r).collector.IsDated := by
  have hviolation : ∀ e, (c.onViolation id e).collector.IsDated := by
    intro e
    rw [onViolation_eq]
    exact h.mark id (by decide) _
  cases r with
  | message m =>
    simp only [onReading]
    split
    · cases m with
      | statsReport report =>
        simp only [onMessage, onReport, Collector.merge]
        cases c.collector.refusal? id report with
        | some e => exact hviolation e
        | none =>
          have haccept := h.accept id report (Clock.nanos c.now)
          cases report.completed with
          | true =>
            simp only [send_eq_note]
            exact haccept
          | false => exact haccept
      | _ => exact hviolation _
    · exact h
  | _ => exact h.mark id (by decide) _

/-- **Step lemma.** Completions are dated at all times. -/
theorem isDated_step (h : c.Inv) (hd : c.collector.IsDated) (ev : CoordinatorEvent) :
    (c.step ev).collector.IsDated := by
  obtain ⟨hb, hprep | hs⟩ := h
  · obtain ⟨-, hprep' | ⟨hopens, -⟩⟩ := hprep.step hb ev
    · rw [hprep'.isUnstarted.collector]
      exact Collector.isDated_foldl_register 0
    · obtain ⟨next, deadline, q, inbox, hp, hlast, hq, hin, rfl⟩ := hopens
      have hstarts := startsTo_startAll (c := c.take q (.message .ready) inbox) hb.nodup
      have hcollector : (c.take q (.message .ready) inbox).startAll.collector =
          (List.range c.workers.length).foldl Collector.register c.collector := hstarts.collector
      rw [step_of_last_consent hp hlast hq hin, hcollector, hprep.isUnstarted.collector]
      exact Collector.isDated_foldl_register _
  · have hr := c.reacts_step ev
    generalize c.step ev = d at hr ⊢
    cases hr with
    | refused | late | again | welcome | arrive | sever | interrupt | advance => exact hd
    | @read q r inbox hlisten hin =>
      rw [onRead, phase_take]
      cases hs with
      | running hp h =>
        simp only [hp]
        split
        · rename_i id hid
          rw [(spares_settle _).collector]
          exact isDated_onReading (c := c.take q r inbox) hd id r
        · exact hd
      | shuttingDown hp h hsettled =>
        simp only [hp]
        split
        · rw [(spares_leave _).collector]
          cases r <;> exact hd
        · exact hd
      | finished hp => simp [listensTo, hp] at hlisten
    | heed hp =>
      rw [hs.isUnderway.heed_eq hb]
      exact hd
    | expire hdeadline hnow =>
      rw [expire]
      cases hs with
      | running hp h =>
        simp only [hp]
        rw [(spares_settle _).collector]
        exact hd.foldl_lose _
      | shuttingDown hp h hsettled =>
        simp only [hp]
        rw [(spares_conclude _).collector]
        exact hd
      | finished hp => simp [deadline?, hp] at hdeadline

/-! ### Result and files -/

/-- What a run that was started has come to, with its files. -/
inductive Ends (c : Coordinator) : Except Error Summary → List String → Prop
  | failed (hn : c.collector.numCompleted = 0) :
    c.Ends (.error (.connectivity (.allWorkersFailed c.expected))) []
  | summed {now : Nat} {result : Except Error Summary} {files : List String}
    (hn : c.collector.numCompleted ≠ 0)
    (hkeeps : c.setup.storage.Keeps c.setup.cfg (c.collector.finalize now) result files) :
    c.Ends result files

/-- Concluding without files so far. -/
theorem ends_conclude {b : Coordinator} (hfiles : b.files = []) :
    ∃ result, b.conclude.phase = .finished result ∧ b.conclude.Ends result b.conclude.files := by
  by_cases hn : b.collector.numCompleted = 0
  · rw [conclude, if_pos hn]
    have hf : (b.finish (.error (.connectivity (.allWorkersFailed b.expected)))).files = [] :=
      hfiles
    rw [hf]
    exact ⟨_, rfl, .failed hn⟩
  · rw [conclude_of_ne hn]
    have hkeeps := b.setup.storage.keeps_conclude b.setup.cfg
      (b.collector.finalize (Clock.nanos b.now))
    rw [finish, hfiles, List.nil_append]
    exact ⟨_, rfl, .summed hn hkeeps⟩

/-- What holds of the files in every run. -/
structure IsFiled (c : Coordinator) : Prop where
  inv : c.Inv
  dated : c.collector.IsDated
  pending : c.isFinished = false → c.files = []
  calledOff : c.Preparing → c.files = []
  ended : c.Started → ∀ result, c.phase = .finished result → c.Ends result c.files

theorem isFiled_start (setup : CoordinatorSetup) (now : Nat) : (start setup now).IsFiled where
  inv := inv_start setup now
  dated := Collector.isDated_foldl_register 0
  pending _ := rfl
  calledOff _ := rfl
  ended h := by cases h with | _ hp => cases hp

theorem isFinished_of_phase {result : Except Error Summary} (hp : c.phase = .finished result) :
    c.isFinished = true := by
  rw [isFinished, result?, hp]
  rfl

theorem phase_of_isFinished (h : c.isFinished = true) :
    ∃ result, c.phase = .finished result := by
  obtain ⟨result, hr⟩ := Option.isSome_iff_exists.mp h
  exact ⟨result, phase_of_result hr⟩

/-- Nothing happens to the workers of a coordinator that has finished. -/
theorem collector_step_of_finished {result : Except Error Summary}
    (hp : c.phase = .finished result) (ev : CoordinatorEvent) :
    (c.step ev).collector = c.collector := by
  have hr := c.reacts_step ev
  generalize c.step ev = d at hr ⊢
  cases hr with
  | refused | late | again | welcome | arrive | sever | interrupt | advance => rfl
  | read hlisten hin => simp [listensTo, hp] at hlisten
  | heed hp' =>
    rw [hp] at hp'
    cases hp'
  | expire hd => simp [deadline?, hp] at hd

/-- The end of a run depends on its setup and on its workers alone. -/
theorem Ends.congr {result : Except Error Summary} {files : List String}
    (h : c.Ends result files) (hsetup : d.setup = c.setup) (hcollector : d.collector = c.collector) :
    d.Ends result files := by
  cases h with
  | failed hn =>
    have hexpected : c.expected = d.expected := by rw [expected, expected, hsetup]
    rw [hexpected]
    exact .failed (hcollector ▸ hn)
  | summed hn hkeeps => exact .summed (hcollector ▸ hn) (by rw [hsetup, hcollector]; exact hkeeps)

/-- The start does not end a run. -/
theorem Inv.started_of_step (h : c.Inv) {ev : CoordinatorEvent} (hs : (c.step ev).Started)
    (hf : (c.step ev).isFinished = true) : c.Started := by
  obtain ⟨hb, hprep | hs₀⟩ := h
  · obtain ⟨-, hprep' | ⟨hopens, -⟩⟩ := hprep.step hb ev
    · exact absurd hs hprep'.not_started
    · obtain ⟨next, deadline, q, inbox, hp, hlast, hq, hin, rfl⟩ := hopens
      rw [step_of_last_consent hp hlast hq hin, isFinished, result?,
        phase_startAll (c := c.take q (.message .ready) inbox) hb.nodup] at hf
      cases hf
  · exact hs₀

/-- **Step lemma.** Every event keeps the files in order. -/
theorem IsFiled.step (h : c.IsFiled) (ev : CoordinatorEvent) : (c.step ev).IsFiled := by
  have hcloses := closes_step h.inv ev
  have hfinished : (c.step ev).isFinished = false → c.isFinished = false := by
    intro hf
    by_contra hc
    obtain ⟨result, hp⟩ := phase_of_isFinished (by simpa using hc)
    rw [isFinished_of_phase (phase_step_of_finished hp ev)] at hf
    cases hf
  refine ⟨h.inv.step ev, isDated_step h.inv h.dated ev, fun hf => ?_, fun hprep' => ?_,
    fun hs' result hp' => ?_⟩
  · -- A run that goes on was going on before.
    have hpending := h.pending (hfinished hf)
    generalize c.step ev = d at hcloses hf
    cases hcloses with
    | ongoing hfiles | calledOff _ hfiles => exact hfiles.trans hpending
    | concluded _ hfiles =>
      obtain ⟨result, hp, -⟩ := ends_conclude (hfiles.trans hpending)
      rw [isFinished_of_phase hp] at hf
      cases hf
  · -- Whoever prepares the start has done so before.
    have hprep : c.Preparing := h.inv.stage.resolve_right fun hs =>
      hprep'.not_started (hs.step h.inv.basics ev).2
    exact (hprep.files_step h.inv.basics ev).trans (h.calledOff hprep)
  · have hs := h.inv.started_of_step hs' (isFinished_of_phase hp')
    have hsetup := c.setup_step ev
    have hover : ∀ r, c.phase = .finished r → (c.step ev).collector = c.collector :=
      fun r hp => collector_step_of_finished hp ev
    generalize c.step ev = d at hcloses hs' hp' hsetup hover
    cases hcloses with
    | ongoing hfiles hphase =>
      have hp : c.phase = .finished result := (hphase (isFinished_of_phase hp')).symm.trans hp'
      rw [hfiles]
      exact (h.ended hs result hp).congr hsetup (hover result hp)
    | calledOff hprep' => exact absurd hs' hprep'.not_started
    | concluded _ hfiles hrun =>
      obtain ⟨r, hp, hends⟩ := ends_conclude (hfiles.trans (h.pending hrun))
      rw [hp] at hp'
      cases hp'
      exact hends

theorem run_append (c : Coordinator) (es es' : List CoordinatorEvent) :
    c.run (es ++ es') = (c.run es).run es' := List.foldl_append

/-- What every event keeps holds in every run. -/
theorem of_run {P : Coordinator → Prop} (hstep : ∀ c ev, P c → P (c.step ev)) (h : P c)
    (es : List CoordinatorEvent) : P (c.run es) := by
  induction es generalizing c with
  | nil => exact h
  | cons ev es ih => exact ih (hstep c ev h)

/-- **Run lemma.** Every run keeps the files in order. -/
theorem IsFiled.run (h : c.IsFiled) (es : List CoordinatorEvent) : (c.run es).IsFiled :=
  of_run (fun _ ev hc => hc.step ev) h es

/-! ### Accounts -/

/-- How a run has ended, if it has, and what is in its files. -/
structure IsAccounted (c : Coordinator) : Prop where
  /-- Nothing is written before the end. -/
  pending : c.result? = none → c.files = []
  /-- A run that was not started has failed, for a reason that lies before the start, and nothing is
      written. -/
  barred : ¬ c.hasOpened → ∀ result, c.result? = some result →
    ∃ e, result = .error e ∧ c.Cause e ∧ c.files = []
  /-- At the end of a run that was started every worker has settled. -/
  settled : c.hasOpened → ∀ result, c.result? = some result →
    ∀ id < c.expected, ∃ s, c.collector.status id = some s ∧ s ≠ .active
  /-- Such a run fails for its workers exactly if none of them has completed. -/
  failed : c.hasOpened → ∀ result, c.result? = some result →
    (result = .error (.connectivity (.allWorkersFailed c.expected)) ↔
      ∀ id < c.expected,
        c.collector.status id = some .failed ∨ c.collector.status id = some .lost)
  /-- Then nothing is written. -/
  unwritten : c.result? = some (.error (.connectivity (.allWorkersFailed c.expected))) →
    c.files = []
  /-- Otherwise result and files are those of the summary, whenever that is made. -/
  summed : c.hasOpened → ∀ result, c.result? = some result →
    ∀ id < c.expected, c.collector.status id = some .completed →
      ∀ now, c.setup.storage.Keeps c.setup.cfg (c.collector.finalize now) result c.files

/-- How a file comes to be written: `c` is the coordinator before, `d` the one afterwards. -/
structure Reports (c d : Coordinator) : Prop where
  /-- Nothing was written before, and the run had not ended. -/
  fresh : c.result? = none ∧ c.files = []
  /-- What is written is the summary that is the result. -/
  written : ∃ s, d.result? = some (.ok s) ∧ d.files = [s.table]
  /-- No worker is expected to report. -/
  settled : d.collector.isSettled = true
  /-- All workers have left, or the time for leaving is over. -/
  left : d.connected = [] ∨ ∃ deadline, c.phase = .shuttingDown deadline ∧ deadline ≤ c.now

/-! ### Every run -/

/-- Once all have settled, nobody has completed exactly if all are failed or lost. -/
theorem IsUnderway.allFailed_iff (hu : c.IsUnderway) (hs : c.collector.isSettled = true)
    (hpos : 0 < c.expected) :
    (∀ id < c.expected,
      c.collector.status id = some .failed ∨ c.collector.status id = some .lost) ↔
      c.collector.numCompleted = 0 := by
  have hnodup : c.collector.ids.Nodup := hu.ids ▸ List.nodup_range
  have hlength : c.workers.length = c.expected := by
    have := hu.full
    omega
  rw [Collector.numCompleted_eq_zero_iff hnodup]
  constructor
  · intro hall id e he hcompleted
    have hid : id < c.expected := by
      rw [← hlength, ← List.mem_range, ← hu.ids]
      exact Collector.mem_ids he
    have hstatus : c.collector.status id = some .completed := by
      rw [Collector.status, he, Option.map_some, hcompleted]
    rcases hall id hid with h | h <;> rw [hstatus] at h <;> cases h
  · intro hnone id hid
    obtain ⟨e, he⟩ := hu.exists_entry (List.getElem?_eq_getElem (hlength ▸ hid))
    have hactive := (Collector.isSettled_iff_entry hnodup).mp hs id e he
    have hcompleted := hnone id e he
    rw [Collector.status, he, Option.map_some]
    cases hstatus : e.status with
    | active => exact absurd hstatus hactive
    | completed => exact absurd hstatus hcompleted
    | failed => exact .inl rfl
    | lost => exact .inr rfl

/-- A coordinator that has finished a run which it had started. -/
theorem Inv.underway_of_result (h : c.Inv) (ho : c.hasOpened) {result : Except Error Summary}
    (hr : c.result? = some result) :
    c.Started ∧ c.IsUnderway ∧ c.collector.isSettled = true := by
  have hs : c.Started := h.stage.resolve_left fun hprep => hprep.not_hasOpened h.basics ho
  have hphase := phase_of_result hr
  refine ⟨hs, hs.isUnderway, ?_⟩
  cases hs with
  | finished _ _ hsettled => exact hsettled
  | _ hp =>
    rw [hphase] at hp
    cases hp

theorem IsFiled.barred (h : c.IsFiled) (ho : ¬ c.hasOpened) {result : Except Error Summary}
    (hr : c.result? = some result) : ∃ e, result = .error e ∧ c.Cause e ∧ c.files = [] := by
  have hphase := phase_of_result hr
  have hprep : c.Preparing := h.inv.stage.resolve_right fun hs => ho hs.isUnderway.hasOpened
  have hfiles := h.calledOff hprep
  cases hprep with
  | calledOff hp hcalled =>
    rw [hphase] at hp
    cases hp
    exact ⟨_, rfl, hcalled.cause, hfiles⟩
  | _ hp =>
    rw [hphase] at hp
    cases hp

/-- A summary is never taken for a failure of the workers. -/
theorem keeps_ne_allWorkersFailed {storage : Storage} {cfg : Config} {s : Summary} {n : Nat}
    {files : List String} :
    ¬ storage.Keeps cfg s (.error (.connectivity (.allWorkersFailed n))) files := by
  intro h
  cases h

/-- A coordinator whose files are in order accounts for them. -/
theorem IsFiled.isAccounted (h : c.IsFiled) (hpos : 0 < c.expected) : c.IsAccounted where
  pending hr := h.pending (by rw [isFinished, hr]; rfl)
  barred ho result hr := h.barred ho hr
  settled ho result hr id hid := by
    obtain ⟨-, hu, hs⟩ := h.inv.underway_of_result ho hr
    have hnodup : c.collector.ids.Nodup := hu.ids ▸ List.nodup_range
    have hlt : id < c.workers.length := by
      have := hu.full
      omega
    obtain ⟨e, he⟩ := hu.exists_entry (List.getElem?_eq_getElem hlt)
    exact ⟨e.status, by rw [Collector.status, he]; rfl,
      (Collector.isSettled_iff_entry hnodup).mp hs id e he⟩
  failed ho result hr := by
    obtain ⟨hstarted, hu, hs⟩ := h.inv.underway_of_result ho hr
    have hends := h.ended hstarted result (phase_of_result hr)
    generalize c.files = files at hends
    rw [hu.allFailed_iff hs hpos]
    cases hends with
    | failed hn => exact ⟨fun _ => hn, fun _ => rfl⟩
    | summed hn hkeeps =>
      refine ⟨fun hresult => ?_, fun hn' => absurd hn' hn⟩
      rw [hresult] at hkeeps
      exact absurd hkeeps keeps_ne_allWorkersFailed
  unwritten hr := by
    by_cases ho : c.hasOpened
    · obtain ⟨hstarted, -, -⟩ := h.inv.underway_of_result ho hr
      have hends := h.ended hstarted _ (phase_of_result hr)
      generalize c.files = files at hends
      cases hends with
      | failed => rfl
      | summed _ hkeeps => exact absurd hkeeps keeps_ne_allWorkersFailed
    · obtain ⟨-, -, -, hfiles⟩ := h.barred ho hr
      exact hfiles
  summed ho result hr id hid hcompleted now := by
    obtain ⟨hstarted, hu, hs⟩ := h.inv.underway_of_result ho hr
    have hends := h.ended hstarted result (phase_of_result hr)
    generalize c.files = files at hends
    cases hends with
    | failed hn =>
      rcases (hu.allFailed_iff hs hpos).mpr hn id hid with hid | hid <;>
        rw [hcompleted] at hid <;> cases hid
    | @summed now' _ _ hn hkeeps =>
      rw [h.dated.finalize_eq hn now now']
      exact hkeeps

/-- An event that writes to a file concludes the run. -/
theorem IsFiled.reports (h : c.IsFiled) {ev : CoordinatorEvent}
    (hne : (c.step ev).files ≠ c.files) : c.Reports (c.step ev) := by
  have hcloses := closes_step h.inv ev
  generalize c.step ev = d at hcloses hne
  cases hcloses with
  | ongoing hfiles | calledOff _ hfiles => exact absurd hfiles hne
  | @concluded b _ hfiles hrun hsettled hleft =>
    have hnone : c.result? = none := by simpa [isFinished] using hrun
    have hempty := h.pending hrun
    obtain ⟨result, hp, hends⟩ := ends_conclude (hfiles.trans hempty)
    have hconnected : b.conclude.connected = b.connected := by
      unfold conclude
      split <;> rfl
    refine ⟨⟨hnone, hempty⟩, ?_, (spares_conclude b).collector ▸ hsettled, hconnected ▸ hleft⟩
    rw [hempty] at hne
    generalize b.conclude.files = files at hends hne
    rw [result?, hp]
    cases hends with
    | failed => exact absurd rfl hne
    | summed _ hkeeps =>
      cases hkeeps with
      | unnamed | refused => exact absurd rfl hne
      | written => exact ⟨_, rfl, rfl⟩

/-! ### Setting up -/

/-- Why a coordinator cannot be set up at the instant `now`. -/
inductive Hinders (setup : CoordinatorSetup) (registry : Registry) (host : Host) (now : Nat) :
    Error → Prop
  /-- Configuration or settings are refused. -/
  | config {e : ConfigError} (h : create setup registry now = .error (.config e)) :
    Hinders setup registry host now (.config e)
  /-- The machine does not listen at the address. -/
  | listen {c : Coordinator} {reason : String} (hcreate : create setup registry now = .ok c)
    (h : host.listen setup.settings.bind = .error reason) :
    Hinders setup registry host now (.io reason)
  /-- It does not serve metrics. -/
  | serve {c : Coordinator} {address : Address} {reason : String}
    (hcreate : create setup registry now = .ok c)
    (hlisten : host.listen setup.settings.bind = .ok ())
    (haddress : setup.settings.metricsAddress = some address)
    (h : host.serve address = .error reason) : Hinders setup registry host now (.io reason)

/-- A coordinator that cannot be created is refused for its configuration. -/
theorem exists_config_of_create {setup : CoordinatorSetup} {registry : Registry} {now : Nat}
    {e : Error} (h : create setup registry now = .error e) : ∃ e', e = .config e' := by
  unfold create at h
  simp only at h
  split at h
  · cases h
    exact ⟨_, rfl⟩
  · cases h

/-- Setting up succeeds with the coordinator that is created, or something hinders it. -/
theorem setUp_cases (setup : CoordinatorSetup) (registry : Registry) (host : Host) (now : Nat) :
    (∃ e, setUp setup registry host now = .error e ∧ Hinders setup registry host now e) ∨
      ∃ c, setUp setup registry host now = .ok c ∧ create setup registry now = .ok c := by
  unfold setUp Host.provide
  cases hcreate : create setup registry now with
  | error e =>
    obtain ⟨e, rfl⟩ := exists_config_of_create hcreate
    exact .inl ⟨_, rfl, .config hcreate⟩
  | ok c =>
    cases hlisten : host.listen setup.settings.bind with
    | error reason => exact .inl ⟨_, rfl, .listen hcreate hlisten⟩
    | ok u =>
      cases haddress : setup.settings.metricsAddress with
      | none => exact .inr ⟨c, rfl, rfl⟩
      | some address =>
        cases hserve : host.serve address with
        | error reason =>
          refine .inl ⟨.io reason, ?_, .serve hcreate hlisten haddress hserve⟩
          simp [bind, Except.bind, Option.forM, hserve, Except.mapError]
        | ok u =>
          refine .inr ⟨c, ?_, rfl⟩
          simp [bind, Except.bind, Option.forM, hserve, Except.mapError, pure, Except.pure]

/-- **Outcome and report.** Of a coordinator that cannot be set up there is no run, but the error of
    what hinders it. In every run of another one, whatever its workers do, result and files are
    accounted for: a file is written once at most, and only by an event that ends the run. -/
theorem isAccounted_run (setup : CoordinatorSetup) (registry : Registry) (host : Host)
    (now : Nat) :
    (∃ e, setUp setup registry host now = .error e ∧ Hinders setup registry host now e) ∨
      ∃ c, setUp setup registry host now = .ok c ∧ ∀ es, (c.run es).IsAccounted ∧
        ∀ ev, ((c.run es).step ev).files ≠ (c.run es).files →
          (c.run es).Reports ((c.run es).step ev) := by
  refine (setUp_cases setup registry host now).imp_right ?_
  rintro ⟨c, hsetUp, hcreate⟩
  obtain ⟨rfl, hpos⟩ := eq_start_of_create hcreate
  refine ⟨_, hsetUp, fun es => ?_⟩
  have hfiled := (isFiled_start setup now).run es
  have hexpected : 0 < ((start setup now).run es).expected := by
    rw [expected, setup_run]
    exact hpos
  exact ⟨hfiled.isAccounted hexpected, fun ev hne => hfiled.reports hne⟩

/-- Two workers, whose summary goes to a file. -/
def reporting : CoordinatorSetup :=
  { twoWorkers with cfg := { twoWorkers.cfg with statsOutput := some "stats.txt" } }

/-- One worker completes and leaves. The link of the other one ends, which was not noticed yet. -/
def halfLost : List CoordinatorEvent := opening ++
  [.arrive 0 (.message (.statsReport { requests := 5, bytes := 500, completed := true })),
   .read 0, .arrive 0 .ended, .read 0, .arrive 1 .ended]

/-- Nothing is written before the loss is noticed. With that the run succeeds, and one file is
    written, which is the table of its summary. -/
theorem isAccounted_run_halfLost :
    ∃ c, setUp reporting .builtin .willing 0 = .ok c ∧
      (c.run halfLost).result? = none ∧ (c.run halfLost).files = [] ∧
      ∃ s, ((c.run halfLost).step (.read 1)).result? = some (.ok s) ∧ s.transactions = 5 ∧
        ((c.run halfLost).step (.read 1)).files = [s.table] := by
  have hsetUp : setUp reporting .builtin .willing 0 = .ok (start reporting 0) := rfl
  rcases isAccounted_run reporting .builtin .willing 0 with ⟨e, herror, -⟩ | ⟨c, hc, haccounted⟩
  · rw [hsetUp] at herror
    cases herror
  · obtain rfl := Except.ok.inj (hsetUp.symm.trans hc)
    have hlength : (((start reporting 0).run halfLost).step (.read 1)).files.length ≠
        ((start reporting 0).run halfLost).files.length := by decide
    obtain ⟨⟨hnone, hempty⟩, ⟨s, hs, hfiles⟩, -⟩ :=
      (haccounted halfLost).2 (.read 1) fun h => hlength (congrArg List.length h)
    have hrun := (haccounted (halfLost ++ [.read 1])).1
    rw [run_append] at hrun
    have hkeeps := hrun.summed ⟨⟨0, .start, true⟩, by decide, rfl⟩ (.ok s) hs 0 (by decide)
      (by decide) 0
    refine ⟨_, hsetUp, hnone, hempty, s, hs, ?_, hfiles⟩
    generalize Coordinator.files _ = files at hkeeps
    -- The summary has the sums of the last reports.
    cases hkeeps <;> exact (Summary.transactions_of _ _ _).trans (by decide)

end Coordinator

end TxLoad
