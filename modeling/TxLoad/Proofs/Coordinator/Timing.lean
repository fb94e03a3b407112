import TxLoad.Proofs.Coordinator.Discipline
import TxLoad.Proofs.Coordinator.Outcome

namespace TxLoad

/-!
# Deadlines of a coordinator

A coordinator waits in phases that follow one another, each with a deadline that is set when it
begins.

* `Coordinator.Proceeds` lists the phases that can follow a phase, and when;
  `Coordinator.proceeds_step`: none else does.
* `Coordinator.IsSteady.step`: as long as no link breaks, all writes succeed, and all workers are
  started.
* `Coordinator.Affects.of_lost`: a worker is lost only by the deadline or by an end of its link.
* `Coordinator.Serves.status_ne_active`: whoever has sent the last report is not waited for.
-/

/-- Whether an event takes no time and breaks no link. -/
def CoordinatorEvent.isPrompt : CoordinatorEvent → Bool
  | .advance _ | .sever _ _ => false
  | _ => true

/-- How many phases may follow this one. -/
def CoordinatorPhase.rank : CoordinatorPhase → Nat
  | .accepting _ => 4
  | .configuring _ _ => 3
  | .running _ => 2
  | .shuttingDown _ => 1
  | .finished _ => 0

namespace Coordinator

variable {c d : Coordinator}

/-! ### Links that hold -/

/-- No link is known to break. -/
def IsUnlimited (c : Coordinator) : Prop := ∀ p ∈ c.peers, p.limit = none

theorem isUnlimited_iff : c.IsUnlimited ↔ ∀ p ∈ c.lines, p.limit = none := by
  simp [IsUnlimited, lines]

theorem IsUnlimited.keeps (h : c.IsUnlimited) (hk : c.Keeps d) : d.IsUnlimited := by
  rw [isUnlimited_iff] at h ⊢
  exact hk.lines ▸ h

theorem IsUnlimited.modifyPeer (h : c.IsUnlimited) (q : Nat) {f : Peer → Peer}
    (hf : ∀ p, (f p).limit = p.limit) : (c.modifyPeer q f).IsUnlimited := by
  intro p hp
  obtain ⟨i, hi⟩ := List.mem_iff_getElem?.mp hp
  rw [Coordinator.modifyPeer, List.getElem?_modify] at hi
  obtain ⟨p', hp', rfl⟩ := Option.map_eq_some_iff.mp hi
  have hlimit := h p' (List.mem_of_getElem? hp')
  split
  · exact (hf p').trans hlimit
  · exact hlimit

/-- As long as no link breaks, all writes succeed. -/
theorem IsUnlimited.canWrite (h : c.IsUnlimited) {q : Nat} (hq : q < c.peers.length) :
    c.canWrite q = true := by
  have hlimit := h _ (List.getElem_mem hq)
  simp [Coordinator.canWrite, List.getElem?_eq_getElem hq, hlimit]

theorem IsUnlimited.step (h : c.IsUnlimited) {ev : CoordinatorEvent}
    (hev : ∀ peer writes, ev ≠ .sever peer writes) : (c.step ev).IsUnlimited := by
  have hr := c.reacts_step ev
  generalize c.step ev = d at hr ⊢
  cases hr with
  | refused | late | again | interrupt | advance => exact h
  | welcome hp =>
    intro p hp
    rcases List.mem_append.mp hp with hp | hp
    · exact h p hp
    · rw [List.mem_singleton.mp hp]
  | arrive q r => exact h.modifyPeer q fun _ => rfl
  | sever q writes => exact absurd rfl (hev q writes)
  | @read q r inbox hlisten hin =>
    have htake : (c.take q r inbox).IsUnlimited := h.modifyPeer q fun _ => rfl
    exact htake.keeps (keeps_onRead _ q r)
  | heed => exact h.keeps c.keeps_heed
  | expire => exact h.keeps c.keeps_expire

/-- If no link breaks, every worker is started. -/
theorem Opens.started_eq (hb : c.Basics) (h : c.IsUnlimited) {ev : CoordinatorEvent}
    (ho : c.Opens ev) : ∀ id < (c.step ev).workers.length, id ∈ (c.step ev).started := by
  obtain ⟨next, deadline, p, inbox, hp, hlast, hnext, hin, rfl⟩ := ho
  rw [step_of_last_consent hp hlast hnext hin]
  have hs := startsTo_startAll (c := c.take p (.message .ready) inbox) hb.nodup
  have hworkers : (c.take p (.message .ready) inbox).startAll.workers = c.workers :=
    (workers_of_rest hs.rest :)
  intro id hid
  rw [hworkers] at hid
  have hmem : id ∈ (c.take p (.message .ready) inbox).registered.startable
      (List.range c.workers.length) := by
    have hlt : c.workers[id] < c.peers.length := hb.bounded _ (List.getElem_mem hid)
    have htake : (c.take p (.message .ready) inbox).canWrite c.workers[id] = true :=
      (canWrite_take c p _ inbox _).trans (h.canWrite hlt)
    refine List.mem_filter.mpr ⟨List.mem_range.mpr hid, ?_⟩
    rw [show (c.take p (.message .ready) inbox).registered.workers = c.workers from rfl,
      List.getElem?_eq_getElem hid]
    exact htake
  have hstarted : (c.take p (.message .ready) inbox).startAll.started = _ := hs.started
  rw [hstarted]
  exact List.mem_append_right _ hmem

/-! ### Phases -/

/-- Time passes and changes nothing else. -/
theorem step_advance (c : Coordinator) (ms : Nat) :
    ∃ now, now ≤ c.now + ms ∧ c.step (.advance ms) = { c with now } := by
  have hr := c.reacts_step (.advance ms)
  generalize c.step (.advance ms) = d at hr ⊢
  cases hr with
  | refused => exact ⟨c.now, Nat.le_add_right _ _, rfl⟩
  | @advance _ now hnow =>
    refine ⟨now, ?_, rfl⟩
    cases hd : c.deadline? with
    | some d =>
      rw [hd, Option.elim_some] at hnow
      omega
    | none =>
      rw [hd, Option.elim_none] at hnow
      omega

/-- Nothing but the deadline holds up the clock. -/
theorem exists_deadline_of_advance {ms : Nat} (h : (c.step (.advance ms)).now < c.now + ms) :
    ∃ d, c.deadline? = some d ∧ (c.step (.advance ms)).now = d := by
  have hr := c.reacts_step (.advance ms)
  generalize c.step (.advance ms) = d at hr h ⊢
  cases hr with
  | refused hcan => cases hcan
  | @advance _ now hnow =>
    have hlt : now < c.now + ms := h
    cases hd : c.deadline? with
    | some d =>
      rw [hd, Option.elim_some] at hnow
      exact ⟨d, rfl, show now = d by omega⟩
    | none =>
      rw [hd, Option.elim_none] at hnow
      omega

/-- The failure of a worker that has not accepted the configuration in time. -/
def tardy (id : Nat) : Error := .protocol (.ackTimeout id)

/-- The phases that can follow the present one at an event. -/
inductive Proceeds (c : Coordinator) : CoordinatorEvent → CoordinatorPhase → Prop where
  /-- The phase goes on, but not beyond its deadline. -/
  | same {e : CoordinatorEvent} (he : e = .expire → c.canHappen e = false) : c.Proceeds e c.phase
  /-- The configuration is written to all workers. -/
  | called {q deadline : Nat} (hp : c.phase = .accepting deadline) :
    c.Proceeds (.read q) (.configuring 0 (c.now + configureMs c.setup))
  | undistributed {q deadline : Nat} (hp : c.phase = .accepting deadline) :
    c.Proceeds (.read q) (.finished (.error (.protocol (.io brokenLink))))
  | tooFew {deadline : Nat} (hp : c.phase = .accepting deadline) (hnow : deadline ≤ c.now) :
    c.Proceeds .expire
      (.finished (.error (.connectivity (.workerConnectTimeout c.workers.length c.expected))))
  | agreed {q next deadline : Nat} (hp : c.phase = .configuring next deadline) :
    c.Proceeds (.read q) (.configuring (next + 1) deadline)
  | refused {q next deadline : Nat} {r : Reading} {err : Error}
    (hp : c.phase = .configuring next deadline) (hr : refusal? next r = some err) :
    c.Proceeds (.read q) (.finished (.error err))
  | late {next deadline : Nat} (hp : c.phase = .configuring next deadline)
    (hnow : deadline ≤ c.now) : c.Proceeds .expire (.finished (.error (tardy next)))
  | opened {e : CoordinatorEvent} (ho : c.Opens e) :
    c.Proceeds e (.running (c.now + runMs c.setup))
  | settled {e : CoordinatorEvent} {deadline : Nat} (hp : c.phase = .running deadline) :
    c.Proceeds e (.shuttingDown (c.now + shutdownMs c.setup))
  | concluded {e : CoordinatorEvent} {deadline : Nat} {result : Except Error Summary}
    (hp : c.phase = .running deadline ∨ c.phase = .shuttingDown deadline)
    (hr : ∀ id, result ≠ .error (tardy id)) : c.Proceeds e (.finished result)

/-- A run that was started does not fail for a worker that was late to accept. -/
theorem phase_conclude (c : Coordinator) :
    ∃ result, c.conclude.phase = .finished result ∧ ∀ id, result ≠ .error (tardy id) := by
  by_cases h : c.collector.numCompleted = 0
  · rw [conclude, if_pos h]
    exact ⟨_, rfl, fun id he => by cases he⟩
  · rw [conclude_of_ne h]
    refine ⟨_, rfl, fun id he => ?_⟩
    obtain ⟨reason, hreason⟩ := Storage.exists_reason he
    cases hreason

theorem phase_leave (c : Coordinator) : c.leave.phase = c.phase ∨
    ∃ result, c.leave.phase = .finished result ∧ ∀ id, result ≠ .error (tardy id) := by
  unfold leave
  split
  · exact .inr c.phase_conclude
  · exact .inl rfl

theorem phase_configure (hc : c.workers.Nodup) :
    c.configure.phase = .configuring 0 (c.now + configureMs c.setup) ∨
      c.configure.phase = .finished (.error (.protocol (.io brokenLink))) := by
  rw [configure_eq hc]
  split
  · exact .inl rfl
  · exact .inr rfl

/-- A greeting ends the wait for workers at most. -/
theorem proceeds_enlist (hb : c.Basics) {q deadline : Nat} (hp : c.phase = .accepting deadline)
    (hq : q ∉ c.workers) (r : Reading) (inbox : List Reading) :
    c.Proceeds (.read q) ((c.take q r inbox).enlist q).phase := by
  have hsame : c.Proceeds (.read q) c.phase := .same fun h => by cases h
  by_cases hcan : (c.take q r inbox).canWrite q = true
  · rw [enlist_of_canWrite hcan]
    split
    · exact hsame
    · have hnodup : ((c.take q r inbox).enlisted q).workers.Nodup := by
        refine List.nodup_append.mpr ⟨hb.nodup, List.nodup_singleton q, ?_⟩
        rintro a ha b hb rfl
        exact hq (List.mem_singleton.mp hb ▸ ha)
      rcases phase_configure hnodup with hphase | hphase
      · rw [hphase]
        exact .called hp
      · rw [hphase]
        exact .undistributed hp
  · rw [enlist_of_not_canWrite (by simpa using hcan)]
    exact hsame

/-- A coordinator that runs has started its workers. -/
theorem Inv.started_of_running (h : c.Inv) {deadline : Nat} (hp : c.phase = .running deadline) :
    c.Started :=
  h.stage.resolve_left fun hprep => hprep.phase_ne_running deadline hp

/-- Once running, a coordinator goes on with that, lets its workers leave, or ends. -/
theorem proceeds_settle {b : Coordinator} {deadline : Nat} (hp : c.phase = .running deadline)
    (hphase : b.phase = c.phase) (hsetup : b.setup = c.setup) (hnow : b.now = c.now)
    {e : CoordinatorEvent}
    (he : b.collector.isSettled = true ∨ e ≠ .expire) : c.Proceeds e b.settle.phase := by
  by_cases hs : b.collector.isSettled = true
  · rw [settle, if_pos hs]
    rcases phase_leave { b with phase := .shuttingDown (b.now + shutdownMs b.setup) } with
      hleave | ⟨result, hleave, hresult⟩
    · rw [hleave, hsetup, hnow]
      exact .settled hp
    · rw [hleave]
      exact .concluded (.inl hp) hresult
  · rw [settle, if_neg hs, hphase]
    exact .same fun h => absurd h (he.resolve_left hs)

/-- Reading from the start on. -/
theorem Started.proceeds_read (h : c.Started) (hb : c.Basics) {q : Nat} (r : Reading)
    (inbox : List Reading) (hlisten : c.listensTo q = true) :
    c.Proceeds (.read q) ((c.take q r inbox).onRead q r).phase := by
  have hid : ∃ id, c.idOf? q = some id := by
    cases hid : c.idOf? q with
    | some id => exact ⟨id, rfl⟩
    | none =>
      cases h with
      | _ hp => simp [listensTo, hp, hid] at hlisten
  obtain ⟨id, hid⟩ := hid
  have htake : (c.take q r inbox).idOf? q = some id := hid
  obtain ⟨e, he⟩ := h.isUnderway.exists_entry ((idOf?_eq_some_iff hb.nodup).mp hid)
  rw [onRead, phase_take]
  cases h with
  | running hp h =>
    have ha : (c.take q r inbox).Attends id e r ((c.take q r inbox).onReading id r) :=
      attends_onReading (c := c.take q r inbox) he r
    simp only [hp, htake]
    exact proceeds_settle hp (phase_of_rest ha.rest :) (setup_of_rest ha.rest :)
      (congrArg Coordinator.now ha.rest :) (.inr fun h => by cases h)
  | shuttingDown hp h hs =>
    have hlate : ((c.take q r inbox).onLateReading id r).phase = c.phase := by cases r <;> rfl
    simp only [hp, htake]
    rcases phase_leave ((c.take q r inbox).onLateReading id r) with hleave | ⟨_, hleave, hresult⟩
    · rw [hleave, hlate]
      exact .same fun h => by cases h
    · rw [hleave]
      exact .concluded (.inr hp) hresult
  | finished hp => simp [listensTo, hp] at hlisten

theorem phase_startAll (hc : c.workers.Nodup) :
    c.startAll.phase = .running (c.now + runMs c.setup) := by
  have hs := startsTo_startAll hc
  have hsetup : ((List.range c.workers.length).foldl startWorker c.registered).setup = c.setup :=
    setup_of_rest hs.rest
  have hnow : ((List.range c.workers.length).foldl startWorker c.registered).now = c.now :=
    (congrArg Coordinator.now hs.rest :)
  rw [← hsetup, ← hnow]
  rfl

/-- Reading before the start. -/
theorem Preparing.proceeds_read (h : c.Preparing) (hb : c.Basics) {q : Nat} {r : Reading}
    {inbox : List Reading} (hlisten : c.listensTo q = true) (hin : c.inbox q = r :: inbox) :
    c.Proceeds (.read q) ((c.take q r inbox).onRead q r).phase := by
  rw [onRead, phase_take]
  cases h with
  | accepting hp h =>
    simp only [listensTo, hp, Bool.and_eq_true, Option.isNone_iff_eq_none, idOf?_eq_none_iff]
      at hlisten
    simp only [hp, onGreeting]
    split
    · exact proceeds_enlist hb hp hlisten.2 _ inbox
    · exact .same fun h => by cases h
  | @configuring next deadline hp h =>
    have hq : c.workers[next]? = some q := by simpa [listensTo, hp] using hlisten
    simp only [hp, onAnswer]
    cases hr : refusal? next r with
    | some err => exact .refused hp hr
    | none =>
      obtain rfl := refusal?_eq_none_iff.mp hr
      by_cases hmore : next + 1 < c.workers.length
      · simp only [workers_take, hmore, if_true]
        exact .agreed hp
      · have hlast : next + 1 = c.workers.length := by
          have := h.next_lt
          omega
        simp only [workers_take, hmore, if_false]
        rw [phase_startAll (c := c.take q (.message .ready) inbox) hb.nodup]
        exact .opened ⟨next, deadline, q, inbox, hp, hlast, hq, hin, rfl⟩
  | calledOff hp h => simp [listensTo, hp] at hlisten

/-- **Inversion.** A phase is followed by one that can follow it. -/
theorem proceeds_step (h : c.Inv) (e : CoordinatorEvent) : c.Proceeds e (c.step e).phase := by
  have hr := c.reacts_step e
  have hsame : e ≠ .expire → c.Proceeds e c.phase := fun he => .same fun h => absurd h he
  generalize c.step e = d at hr ⊢
  cases hr with
  | refused hcan => exact .same fun _ => hcan
  | late | again | welcome | arrive | sever | interrupt | advance => exact hsame (by simp)
  | read hlisten hin =>
    rcases h.stage with hprep | hs
    · exact hprep.proceeds_read h.basics hlisten hin
    · exact hs.proceeds_read h.basics _ _ hlisten
  | heed hp =>
    have hphase : c.heed.phase = c.phase := by
      rw [(h.started_of_running hp).isUnderway.heed_eq h.basics]
      rfl
    exact hphase ▸ hsame (by simp)
  | expire hd hnow =>
    unfold expire
    split
    · rename_i hp
      rw [deadline?, hp] at hd
      cases hd
      exact .tooFew hp hnow
    · rename_i hp
      rw [deadline?, hp] at hd
      cases hd
      exact .late hp hnow
    · rename_i hp
      have hu := (h.started_of_running hp).isUnderway
      have hsettled := isSettled_loseActive (hu.ids ▸ List.nodup_range)
      exact proceeds_settle (b := c.loseActive) hp rfl rfl rfl (.inl hsettled)
    · rename_i hp
      obtain ⟨result, hphase, hresult⟩ := c.phase_conclude
      rw [hphase]
      exact .concluded (.inr hp) hresult
    · rename_i hp
      simp [deadline?, hp] at hd

/-- No phase comes back. -/
theorem rank_step_le (h : c.Inv) (e : CoordinatorEvent) :
    (c.step e).phase.rank ≤ c.phase.rank := by
  have hproceeds := proceeds_step h e
  generalize (c.step e).phase = phase at hproceeds
  cases hproceeds with
  | same => exact Nat.le_refl _
  | called hp =>
    rw [hp]
    exact Nat.le_succ 3
  | agreed hp =>
    rw [hp]
    exact Nat.le_refl 3
  | opened ho =>
    obtain ⟨_, _, _, _, hp, -⟩ := ho
    rw [hp]
    exact Nat.le_succ 2
  | settled hp =>
    rw [hp]
    exact Nat.le_succ 1
  | undistributed | tooFew | refused | late | concluded => exact Nat.zero_le _

/-- A deadline that takes effect ends a phase. -/
theorem rank_expire_lt (h : c.Inv) (hcan : c.canHappen .expire = true) :
    (c.step .expire).phase.rank < c.phase.rank := by
  have hproceeds := proceeds_step h .expire
  generalize (c.step .expire).phase = phase at hproceeds
  cases hproceeds with
  | same he =>
    rw [he rfl] at hcan
    cases hcan
  | tooFew hp | late hp =>
    rw [hp]
    exact Nat.zero_lt_succ _
  | opened ho =>
    obtain ⟨_, _, _, _, -, -, -, -, he⟩ := ho
    cases he
  | settled hp =>
    rw [hp]
    exact Nat.lt_succ_self _
  | concluded hp =>
    rcases hp with hp | hp <;> rw [hp] <;> exact Nat.zero_lt_succ _

/-- Consent is waited for as before, or the configuration was written just now. -/
theorem Inv.configuring_of_step (h : c.Inv) {e : CoordinatorEvent} {next deadline : Nat}
    (hp : (c.step e).phase = .configuring next deadline) :
    (∃ before, c.phase = .configuring before deadline) ∨
      (∃ d, c.phase = .accepting d) ∧ deadline = c.now + configureMs c.setup := by
  have hproceeds := proceeds_step h e
  generalize (c.step e).phase = phase at hproceeds hp
  cases hproceeds with
  | same => exact .inl ⟨next, hp⟩
  | agreed hp' =>
    cases hp
    exact .inl ⟨_, hp'⟩
  | called hp' =>
    cases hp
    exact .inr ⟨⟨_, hp'⟩, rfl⟩
  | _ => cases hp

/-- The coordinator runs as before, or the last worker has consented just now. -/
theorem Inv.running_of_step (h : c.Inv) {e : CoordinatorEvent} {deadline : Nat}
    (hp : (c.step e).phase = .running deadline) :
    c.phase = .running deadline ∨ c.Opens e ∧ deadline = c.now + runMs c.setup := by
  have hproceeds := proceeds_step h e
  generalize (c.step e).phase = phase at hproceeds hp
  cases hproceeds with
  | same => exact .inl hp
  | opened ho =>
    cases hp
    exact .inr ⟨ho, rfl⟩
  | _ => cases hp

/-- A run that fails for a late worker has failed before, or fails at the deadline. -/
theorem Inv.tardy_of_step (h : c.Inv) {e : CoordinatorEvent} {id : Nat}
    (hp : (c.step e).phase = .finished (.error (tardy id))) :
    c.phase = .finished (.error (tardy id)) ∨
      ∃ next deadline, c.phase = .configuring next deadline ∧ deadline ≤ c.now := by
  have hproceeds := proceeds_step h e
  generalize (c.step e).phase = phase at hproceeds hp
  cases hproceeds with
  | same => exact .inl hp
  | late hp' hnow => exact .inr ⟨_, _, hp', hnow⟩
  | @refused _ next _ r err hp' hr =>
    -- No answer is a reason to say that there was none.
    cases hp
    cases r with
    | message m => cases m <;> cases hr
    | _ => cases hr
  | concluded _ hr =>
    cases hp
    exact absurd rfl (hr id)
  | _ => cases hp

/-! ### The workers -/

theorem workers_giveUp (hc : c.workers.Nodup) (reason : String) (e : Error) :
    (c.giveUp reason e).workers = c.workers := by
  rw [giveUp, abort_eq_note hc]
  rfl

theorem workers_onAnswer (hc : c.workers.Nodup) (next deadline : Nat) (r : Reading) :
    (c.onAnswer next deadline r).workers = c.workers := by
  unfold onAnswer
  split
  · exact workers_giveUp hc _ _
  · split
    · rfl
    · exact (workers_of_rest (startsTo_startAll hc).rest :)

/-- Once workers are not awaited any more, there are no others. -/
theorem workers_step (h : c.Inv) (hne : ∀ deadline, c.phase ≠ .accepting deadline)
    (ev : CoordinatorEvent) : (c.step ev).workers = c.workers := by
  rcases h.stage with hprep | hs
  · have hnodup := h.basics.nodup
    have hr := c.reacts_step ev
    generalize c.step ev = d at hr ⊢
    cases hr with
    | refused | late | again | welcome | arrive | sever | interrupt | advance => rfl
    | @read q r inbox hlisten hin =>
      cases hprep with
      | accepting hp => exact absurd hp (hne _)
      | configuring hp =>
        simp only [onRead, phase_take, hp]
        exact workers_onAnswer (c := c.take q r inbox) hnodup _ _ r
      | calledOff hp => simp [listensTo, hp] at hlisten
    | heed hp => exact absurd hp (hprep.phase_ne_running _)
    | expire hd =>
      cases hprep with
      | accepting hp => exact absurd hp (hne _)
      | configuring hp =>
        rw [expire, hp]
        exact workers_giveUp hnodup _ _
      | calledOff hp => simp [deadline?, hp] at hd
  · exact hs.workers_step h.basics ev

/-! ### Lost workers -/

/-- A worker is lost only by the deadline, or by an end of its link while it is expected to
    report. -/
theorem Affects.of_lost {id q : Nat} {e e' : WorkerEntry} (h : c.Affects id q e d)
    (he' : d.collector.entryOf? id = some e') (hlost : e'.status = .lost) :
    e.status = .lost ∨
      (∃ r rest, c.inbox q = r :: rest ∧ r.isMessage = false ∧ e.status = .active) ∨
      ∃ deadline, c.phase = .running deadline ∧ deadline ≤ c.now := by
  cases h with
  | spared hentry | asked _ _ hentry =>
    rw [hentry] at he'
    cases he'
    exact .inl hlost
  | @attended r rest _ hin hentry =>
    rw [hentry] at he'
    cases he'
    by_cases hs : e.status = .active
    · refine .inr (.inl ⟨r, rest, hin, ?_, hs⟩)
      cases r with
      | message m => exact absurd hlost (WorkerEntry.status_attend_ne_lost hs m)
      | _ => rfl
    · rw [WorkerEntry.attend_of_ne hs] at hlost
      exact .inl hlost
  | expired hp hnow hentry => exact .inr (.inr ⟨_, hp, hnow⟩)

/-- Nobody is waited for who has sent the last report. -/
theorem Serves.status_ne_active {id q : Nat} {rs : List Reading} {e : WorkerEntry}
    {ms : List Message} (h : c.Serves id q rs e ms) {r : Report}
    (hr : .message (.statsReport r) ∈ c.heardFrom q) (hc : r.completed = true) :
    e.status ≠ .active := by
  obtain ⟨x, hheard⟩ := h.heard
  rw [hheard] at hr
  exact h.dealings.status_ne_active (by simpa using hr) hc

/-! ### What was delivered -/

/-- The greeting that is delivered to the worker `id`. -/
def salute (id : Nat) : Message := .hello (some (UInt64.ofNat id))

theorem IsGreeting.deliveredTo_eq (h : c.IsGreeting) {id q : Nat}
    (hq : c.workers[id]? = some q) : c.deliveredTo q = [salute id] := by
  rw [deliveredTo, (h.greeted id q hq).1]
  rfl

theorem IsConfiguring.deliveredTo_eq {next : Nat} (h : c.IsConfiguring next) {id q : Nat}
    (hq : c.workers[id]? = some q) : c.deliveredTo q = [salute id, .config c.setup.cfg] := by
  rw [deliveredTo, (h.briefed id q hq).1]
  rfl

theorem Serves.deliveredTo_eq {id q : Nat} {rs : List Reading} {e : WorkerEntry}
    {ms : List Message} (h : c.Serves id q rs e ms) (hid : id ∈ c.started) :
    ∃ more, c.deliveredTo q = salute id :: .config c.setup.cfg :: .start :: more := by
  obtain ⟨ws, -, hwritten⟩ := h.written
  refine ⟨(ws.filter (·.delivered)).map (·.message), ?_⟩
  simp [deliveredTo, hwritten, greeting, salute, hid]

/-- Nothing but a greeting is delivered before the last worker has connected. -/
theorem Inv.deliveredTo_of_accepting (h : c.Inv) {deadline : Nat}
    (hp : c.phase = .accepting deadline) (q : Nat) : ∃ id, c.deliveredTo q <+: [salute id] := by
  by_cases hq : q ∈ c.workers
  · obtain ⟨id, hid⟩ := List.mem_iff_getElem?.mp hq
    cases h.stage.resolve_right fun hs => hs.not_accepting _ hp with
    | accepting _ h => exact ⟨id, h.toIsGreeting.deliveredTo_eq hid ▸ List.prefix_refl _⟩
    | _ hp' =>
      rw [hp] at hp'
      cases hp'
  · rw [h.basics.deliveredTo_stranger hq]
    exact ⟨0, List.nil_prefix⟩

/-- The invariant of a coordinator that waits for consent. -/
theorem Inv.isConfiguring (h : c.Inv) {next deadline : Nat}
    (hp : c.phase = .configuring next deadline) : c.IsConfiguring next := by
  cases h.preparing hp with
  | configuring hp' h =>
    rw [hp] at hp'
    cases hp'
    exact h
  | _ hp' =>
    rw [hp] at hp'
    cases hp'

/-! ### Coordinators whose links hold -/

/-- What holds of a coordinator in every run in which no link breaks. -/
structure IsSteady (c : Coordinator) : Prop extends c.Orderly where
  unlimited : c.IsUnlimited
  reached : c.Started → ∀ id < c.workers.length, id ∈ c.started

theorem isSteady_start (setup : CoordinatorSetup) (now : Nat) : (start setup now).IsSteady where
  toOrderly := orderly_start setup now
  unlimited p hp := by cases hp
  reached h := by cases h with | _ hp => cases hp

/-- **Step lemma.** As long as no link breaks, all writes succeed, and all workers are started. -/
theorem IsSteady.step (h : c.IsSteady) {ev : CoordinatorEvent}
    (hev : ∀ peer writes, ev ≠ .sever peer writes) : (c.step ev).IsSteady := by
  have hb := h.inv.basics
  refine ⟨h.toOrderly.step ev, h.unlimited.step hev, fun hs' id hid => ?_⟩
  rcases h.inv.stage with hprep | hs
  · obtain ⟨-, hprep' | ⟨hopens, -⟩⟩ := hprep.step hb ev
    · exact absurd hs' hprep'.not_started
    · exact hopens.started_eq hb h.unlimited id hid
  · rw [hs.workers_step hb ev] at hid
    obtain ⟨e, he⟩ := hs.isUnderway.exists_entry (List.getElem?_eq_getElem hid)
    rw [(hs.affects hb (List.getElem?_eq_getElem hid) he ev).2.1]
    exact h.reached hs id hid

end Coordinator

end TxLoad
