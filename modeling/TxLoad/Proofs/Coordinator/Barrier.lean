import TxLoad.Proofs.Coordinator.Underway

namespace TxLoad.Coordinator

/-!
# The barrier at the start

A coordinator writes the start to nobody before all workers have accepted the configuration. If
one does not, all are told to abort.

* `exists_opening`: in a run with a start, the start is the answer to the last consent.
* `Barrier` says what has been written and read then.
* `isAborted_of_fails`: whatever prevents the configuration from being accepted by all, every
  worker is told to abort, and the start is never written.
-/

variable {c d : Coordinator}

/-- Whether the start was written to some peer. -/
def hasOpened (c : Coordinator) : Prop := ∃ w ∈ c.log, w.message = .start

/-- Whether there will be no run, and all workers were told so last. -/
structure IsAborted (c : Coordinator) : Prop where
  failed : ∃ e, c.phase = .finished (.error e)
  silent : ¬ c.hasOpened
  told : ∀ q ∈ c.workers, ∃ reason, (c.messagesTo q).getLast? = some (.abort reason)

/-! ### What is written when -/

/-- A message in the log was written to a worker, or is a greeting that could not be written. -/
theorem Basics.mem_log (h : c.Basics) {w : Written} (hw : w ∈ c.log) :
    (∃ (id : Nat) (q : Nat), c.workers[id]? = some q ∧ w ∈ c.writtenTo q) ∨
      ∃ id, w.message = .hello id := by
  by_cases hq : w.peer ∈ c.workers
  · obtain ⟨id, hid⟩ := List.mem_iff_getElem?.mp hq
    exact .inl ⟨id, w.peer, hid, List.mem_filter.mpr ⟨hw, by simp⟩⟩
  · obtain ⟨id, h⟩ := h.strangers w hw hq
    exact .inr ⟨id, by rw [h]⟩

/-- Before the start nothing is written but greetings, the configuration and aborts. -/
theorem Preparing.message_of_mem (hb : c.Basics) (h : c.Preparing) {w : Written}
    (hw : w ∈ c.log) : (∃ id, w.message = .hello id) ∨ (∃ cfg, w.message = .config cfg) ∨
      ∃ reason, w.message = .abort reason := by
  rcases hb.mem_log hw with ⟨id, q, hq, hw⟩ | hhello
  · cases h with
    | accepting hp h =>
      rw [(h.greeted id q hq).1, List.mem_singleton] at hw
      exact .inl ⟨_, congrArg _ hw⟩
    | configuring hp h =>
      rw [(h.briefed id q hq).1] at hw
      simp only [List.mem_cons, List.not_mem_nil, or_false] at hw
      rcases hw with hw | hw
      · exact .inl ⟨_, congrArg _ hw⟩
      · exact .inr (.inl ⟨_, congrArg _ hw⟩)
    | calledOff hp h =>
      obtain ⟨ws, reason, b, hws, hconfig⟩ := h.aborted id q hq
      rw [hws] at hw
      simp only [List.mem_cons, List.mem_append, List.not_mem_nil, or_false] at hw
      rcases hw with hw | hw | hw
      · exact .inl ⟨_, congrArg _ hw⟩
      · rcases hconfig with rfl | ⟨b, rfl⟩
        · cases hw
        · exact .inr (.inl ⟨_, congrArg _ (List.mem_singleton.mp hw)⟩)
      · exact .inr (.inr ⟨_, congrArg _ hw⟩)
  · exact .inl hhello

/-- Before the start nobody was written the start. -/
theorem Preparing.not_hasOpened (hb : c.Basics) (h : c.Preparing) : ¬ c.hasOpened := by
  rintro ⟨w, hw, hstart⟩
  rcases h.message_of_mem hb hw with ⟨_, hm⟩ | ⟨_, hm⟩ | ⟨_, hm⟩ <;> rw [hm] at hstart <;>
    cases hstart

/-- What was written to a worker that is served: greeting, configuration, start and answers. -/
theorem Serves.message_of_mem {id q : Nat} {rs : List Reading} {e : WorkerEntry}
    {ms : List Message} (h : c.Serves id q rs e ms) {w : Written} (hw : w ∈ c.writtenTo q) :
    (∃ id, w.message = .hello id) ∨ (∃ cfg, w.message = .config cfg ∧ w.delivered = true) ∨
      w.message = .start ∨ w.message ∈ ms := by
  obtain ⟨ws, hws, hwritten⟩ := h.written
  rw [hwritten] at hw
  simp only [List.mem_cons] at hw
  rcases hw with rfl | rfl | rfl | hw
  · exact .inl ⟨_, rfl⟩
  · exact .inr (.inl ⟨_, rfl, rfl⟩)
  · exact .inr (.inr (.inl rfl))
  · have hmem : w.message ∈ ws.map (·.message) := List.mem_map.mpr ⟨w, hw, rfl⟩
    rw [hws] at hmem
    split at hmem
    · exact .inr (.inr (.inr hmem))
    · cases hmem

/-- From the start on the configuration has been delivered to all. -/
theorem IsUnderway.delivered (hb : c.Basics) (h : c.IsUnderway) {w : Written} (hw : w ∈ c.log)
    {cfg : Config} (hm : w.message = .config cfg) : w.delivered = true := by
  rcases hb.mem_log hw with ⟨id, q, hq, hw⟩ | ⟨id, hid⟩
  · obtain ⟨rs, e, ms, hs⟩ := h.served id q hq
    rcases hs.message_of_mem hw with ⟨_, h⟩ | ⟨_, -, h⟩ | h | h
    · rw [hm] at h
      cases h
    · exact h
    · rw [hm] at h
      cases h
    · rcases hs.dealings.answers _ h with h | ⟨reason, h⟩ <;> rw [hm] at h <;> cases h
  · rw [hid] at hm
    cases hm

/-- A run that was called off has told all workers to abort. -/
theorem IsCalledOff.isAborted {e : Error} (hb : c.Basics) (hp : c.phase = .finished (.error e))
    (h : c.IsCalledOff e) : c.IsAborted where
  failed := ⟨e, hp⟩
  silent := Preparing.not_hasOpened hb (.calledOff hp h)
  told q hq := by
    obtain ⟨id, hid⟩ := List.mem_iff_getElem?.mp hq
    obtain ⟨ws, reason, b, hws, -⟩ := h.aborted id q hid
    refine ⟨reason, ?_⟩
    rw [messagesTo, hws, ← List.cons_append, List.map_append]
    exact List.getLast?_concat

/-- From the start on some worker has been written the start. -/
theorem IsUnderway.hasOpened (h : c.IsUnderway) : c.hasOpened := by
  have hfull := h.full
  obtain ⟨q, hq⟩ : ∃ q, c.workers[0]? = some q :=
    ⟨_, List.getElem?_eq_getElem (by omega)⟩
  obtain ⟨rs, e, ms, hs⟩ := h.served 0 q hq
  obtain ⟨ws, -, hwritten⟩ := hs.written
  have hmem : ⟨q, .start, decide (0 ∈ c.started)⟩ ∈ c.writtenTo q := by simp [hwritten]
  exact ⟨_, (List.mem_filter.mp hmem).1, rfl⟩

/-- A coordinator that has finished without a start has told all workers to abort. -/
theorem Inv.isAborted (h : c.Inv) (hf : c.isFinished = true) (hs : ¬ c.hasOpened) :
    c.IsAborted := by
  obtain ⟨hb, hp | hstarted⟩ := h
  · cases hp with
    | accepting hp => simp [isFinished, result?, hp] at hf
    | configuring hp => simp [isFinished, result?, hp] at hf
    | calledOff hp h => exact h.isAborted hb hp
  · exact absurd hstarted.isUnderway.hasOpened hs

/-! ### The start -/

/-- What has been written and read when the start is written: `c` is the coordinator before, `d`
    the one afterwards. -/
structure Barrier (c d : Coordinator) : Prop where
  /-- Nobody was told to start before. -/
  closed : ¬ c.hasOpened
  /-- There are as many workers as the run needs, and no others since. -/
  complete : c.workers.Nodup ∧ c.workers.length = max 1 c.expected ∧ d.workers = c.workers
  /-- Every worker has been told its id and the configuration, and nothing else. -/
  briefed : ∀ id q, c.workers[id]? = some q →
    c.messagesTo q = [.hello (some (UInt64.ofNat id)), .config c.setup.cfg] ∧
      c.deliveredTo q = c.messagesTo q
  /-- Every worker's first word after its hello was its consent. -/
  agreed : ∀ (id : Nat) q, c.workers[id]? = some q →
    ∃ x, d.heardFrom q = [.message (.hello x), .message .ready]

/-- The last consent starts all workers. -/
theorem step_of_last_consent {next deadline q : Nat} {inbox : List Reading}
    (hp : c.phase = .configuring next deadline) (hlast : next + 1 = c.workers.length)
    (hq : c.workers[next]? = some q) (hin : c.inbox q = .message .ready :: inbox) :
    c.step (.read q) = (c.take q (.message .ready) inbox).startAll := by
  rw [step_read (by simp [listensTo, hp, hq]) hin]
  simp only [onRead, phase_take, hp, onAnswer, refusal?, workers_take, ← hlast, Nat.lt_irrefl,
    if_false]

/-- The last consent finds all workers ready. -/
theorem Opens.barrier {e : CoordinatorEvent} (hb : c.Basics) (h : c.Preparing) (ho : c.Opens e) :
    c.Barrier (c.step e) := by
  have hclosed := h.not_hasOpened hb
  obtain ⟨next, deadline, q, inbox, hp, hlast, hq, hin, rfl⟩ := ho
  have hc : c.IsConfiguring next := by
    cases h with
    | configuring hp' h =>
      rw [hp] at hp'
      cases hp'
      exact h
    | _ hp' =>
      rw [hp] at hp'
      cases hp'
  have hs := startsTo_startAll (c := c.take q (.message .ready) inbox) hb.nodup
  have hagreed := hc.isAgreed hb hq hlast inbox
  rw [step_of_last_consent hp hlast hq hin]
  refine ⟨hclosed, ⟨hb.nodup, hc.full, (workers_of_rest hs.rest :)⟩, fun id p hp => ?_,
    fun id p hp => ?_⟩
  · have hw := (hc.briefed id p hp).1
    rw [messagesTo, deliveredTo, hw]
    exact ⟨rfl, rfl⟩
  · obtain ⟨-, x, hx⟩ := hagreed.agreed id p hp
    refine ⟨x, hx ▸ ?_⟩
    exact congrArg _ (congrArg _ (heard_of_rest hs.rest))

/-- A run with a start is split by it: everything before prepared it. -/
theorem exists_opening (hb : c.Basics) (h : c.Preparing) {es : List CoordinatorEvent}
    (ho : (c.run es).hasOpened) : ∃ es₁ e es₂, es = es₁ ++ e :: es₂ ∧
      (c.run es₁).Barrier (c.run (es₁ ++ [e])) := by
  induction es generalizing c with
  | nil => exact absurd ho (h.not_hasOpened hb)
  | cons e es ih =>
    obtain ⟨hb', h' | ⟨hopens, -⟩⟩ := h.step hb e
    · obtain ⟨es₁, e', es₂, rfl, hbarrier⟩ := ih hb' h' ho
      exact ⟨e :: es₁, e', es₂, rfl, hbarrier⟩
    · exact ⟨[], e, es, rfl, hopens.barrier hb h⟩

/-! ### No start -/

/-- An event by which the configuration fails to be accepted by all. -/
inductive Fails (c : Coordinator) : CoordinatorEvent → Prop where
  /-- It could not be written to some worker. -/
  | undistributed {e : CoordinatorEvent} {w : Written} {cfg : Config} (hw : w ∈ (c.step e).log)
    (hm : w.message = .config cfg) (hd : w.delivered = false) : c.Fails e
  /-- The next worker answers with anything but consent, or its link ends. -/
  | refused {next deadline q : Nat} {r : Reading} {inbox : List Reading}
    (hp : c.phase = .configuring next deadline) (hq : c.workers[next]? = some q)
    (hin : c.inbox q = r :: inbox) (hr : r ≠ .message .ready) : c.Fails (.read q)
  /-- The next worker has not answered in time. -/
  | late {next deadline q : Nat} (hp : c.phase = .configuring next deadline)
    (hq : c.workers[next]? = some q) (hin : c.inbox q = []) (hnow : deadline ≤ c.now) :
    c.Fails .expire

/-- A coordinator that has finished stays as it is. -/
theorem phase_step_of_finished {result : Except Error Summary}
    (hp : c.phase = .finished result) (e : CoordinatorEvent) :
    (c.step e).phase = .finished result := by
  have hr := c.reacts_step e
  generalize c.step e = d at hr ⊢
  cases hr with
  | refused | late | again | arrive | sever | interrupt | advance => exact hp
  | welcome hp' =>
    rw [hp] at hp'
    cases hp'
  | read hlisten hin => simp [listensTo, hp] at hlisten
  | heed hp' =>
    rw [hp] at hp'
    cases hp'
  | expire hd => simp [deadline?, hp] at hd

/-- If there was no start before, a step that ends the run aborts it. -/
theorem Preparing.isAborted_step (hb : c.Basics) (h : c.Preparing) {e : CoordinatorEvent}
    (hf : (c.step e).isFinished = true) : (c.step e).IsAborted := by
  obtain ⟨hb', hp' | ⟨hopens, -⟩⟩ := h.step hb e
  · exact Inv.isAborted ⟨hb', .inl hp'⟩ hf (hp'.not_hasOpened hb')
  · obtain ⟨next, deadline, q, inbox, hp, hlast, hq, hin, rfl⟩ := hopens
    rw [step_of_last_consent hp hlast hq hin] at hf
    cases hf

/-- Once all were told to abort, nothing else happens. -/
theorem IsAborted.run (h : c.Inv) (ha : c.IsAborted) (es : List CoordinatorEvent) :
    (c.run es).IsAborted := by
  induction es generalizing c with
  | nil => exact ha
  | cons e es ih =>
    refine ih (h.step e) ?_
    obtain ⟨err, hp⟩ := ha.failed
    have hf : (c.step e).isFinished = true := by
      simp [isFinished, result?, phase_step_of_finished hp e]
    rcases h.stage with hprep | hs
    · exact hprep.isAborted_step h.basics hf
    · exact absurd hs.isUnderway.hasOpened ha.silent

/-- While the configuration is being accepted there was no start. -/
theorem Inv.preparing {next deadline : Nat} (h : c.Inv)
    (hp : c.phase = .configuring next deadline) : c.Preparing := by
  refine h.stage.resolve_right fun hs => ?_
  cases hs with
  | _ hp' =>
    rw [hp] at hp'
    cases hp'

/-- A coordinator that could not write the configuration to some worker has told all to abort. -/
theorem Inv.isAborted_of_undelivered (h : c.Inv) {w : Written} {cfg : Config} (hw : w ∈ c.log)
    (hm : w.message = .config cfg) (hd : w.delivered = false) : c.IsAborted := by
  obtain ⟨hb, hprep | hs⟩ := h
  · -- Before the start an undelivered configuration is found only where the run was called off.
    have hworker : ∃ (id : Nat) (q : Nat), c.workers[id]? = some q ∧ w ∈ c.writtenTo q := by
      refine (hb.mem_log hw).resolve_right ?_
      rintro ⟨id, hid⟩
      rw [hid] at hm
      cases hm
    obtain ⟨id, q, hq, hw⟩ := hworker
    cases hprep with
    | calledOff hp h => exact h.isAborted hb hp
    | accepting hp h =>
      rw [(h.greeted id q hq).1, List.mem_singleton] at hw
      rw [hw] at hm
      cases hm
    | configuring hp h =>
      rw [(h.briefed id q hq).1] at hw
      simp only [List.mem_cons, List.not_mem_nil, or_false] at hw
      rcases hw with rfl | rfl <;> cases hd
  · rw [hs.isUnderway.delivered hb hw hm] at hd
    cases hd

/-- **No start.** If the configuration fails to be accepted by all, for whatever reason, all workers
    are told to abort, and nobody is ever told to start. -/
theorem isAborted_of_fails (h : c.Inv) {e : CoordinatorEvent} (hf : c.Fails e)
    (es : List CoordinatorEvent) : ((c.step e).run es).IsAborted := by
  refine IsAborted.run (h.step e) ?_ es
  cases hf with
  | undistributed hw hm hd => exact (h.step e).isAborted_of_undelivered hw hm hd
  | @refused next deadline q r inbox hp hq hin hr =>
    obtain ⟨err, herr⟩ : ∃ err, refusal? next r = some err := by
      rw [← Option.ne_none_iff_exists']
      exact fun h => hr (refusal?_eq_none_iff.mp h)
    have hstep : c.step (.read q) = (c.take q r inbox).giveUp err.message err := by
      rw [step_read (by simp [listensTo, hp, hq]) hin]
      simp only [onRead, phase_take, hp, onAnswer, herr]
    refine (h.preparing hp).isAborted_step h.basics ?_
    rw [hstep]
    rfl
  | @late next deadline q hp hq hin hnow =>
    refine (h.preparing hp).isAborted_step h.basics ?_
    have hcan : c.canHappen .expire = true := by simp [canHappen, deadline?, hp, hq, hin, hnow]
    rw [step, if_pos hcan, act, expire, hp]
    rfl

/-! ### Creation -/

/-- A coordinator that could be created awaits at least one worker. -/
theorem eq_start_of_create {setup : CoordinatorSetup} {registry : Registry} {now : Nat}
    (h : create setup registry now = .ok c) :
    c = start setup now ∧ 0 < setup.settings.expectWorkers.toNat := by
  unfold create at h
  cases hcfg : setup.cfg.check with
  | error e => simp [hcfg, bind, Except.bind] at h
  | ok u =>
    cases hsettings : setup.settings.check with
    | error e => simp [hcfg, hsettings, bind, Except.bind] at h
    | ok u =>
      have hne : setup.settings.expectWorkers ≠ 0 := by
        intro hzero
        simp [CoordinatorSettings.check, hzero, throw, throwThe, MonadExceptOf.throw, bind,
          Except.bind] at hsettings
      constructor
      · simp only at h
        split at h
        · cases h
        · exact (Except.ok.inj h).symm
      · exact Nat.pos_of_ne_zero fun hzero => hne (UInt64.toNat_inj.mp hzero)

end TxLoad.Coordinator
