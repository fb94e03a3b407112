import TxLoad.Proofs.Coordinator.Affecting
import TxLoad.Proofs.Coordinator.Barrier

namespace TxLoad

/-!
# The discipline of a session

What a coordinator writes to a worker follows a script, whatever this worker and the others say and
whenever interrupts and deadlines fall: a greeting, the configuration, and either an abort or the
start; after the start perhaps a request to stop for an interrupt, and perhaps a verdict.

* `Verdict`: a verdict is written exactly to a worker that has completed or failed.
* `Coordinator.Treats`: what was written to a started worker, read off its status.
* `Coordinator.Orderly.step`, `Coordinator.Orderly.run`: this holds in every run.
* `Coordinator.isDisciplined_run`: the discipline of a session.
-/

/-- An error for which a running worker is given up: it says something else than a report, or a
    report that falls below the one before. -/
def ProtocolError.IsViolation (err : ProtocolError) : Prop :=
  ∃ id e m, WorkerEntry.violation? id e m = some err

/-- A text that begins in one way is none that begins in another. -/
theorem append_ne_of_take_ne {p s : String} (h : s.toList.take p.toList.length ≠ p.toList)
    (r : String) : p ++ r ≠ s := by
  intro heq
  rw [← heq, String.toList_append, List.take_left] at h
  exact h rfl

/-- What violates the protocol is told in other words than an interrupt. -/
theorem ProtocolError.IsViolation.message_ne {err : ProtocolError} (h : err.IsViolation) :
    err.message ≠ "interrupted" := by
  obtain ⟨id, e, m, hv⟩ := h
  have hcases : (∃ got, err = .unexpected "stats_report" got) ∨
      ∃ worker a b c d, err = .nonMonotonic worker a b c d := by
    cases m with
    | statsReport r =>
      simp only [WorkerEntry.violation?, Option.ite_none_right_eq_some, Option.some.injEq] at hv
      exact .inr ⟨_, _, _, _, _, hv.2.symm⟩
    | _ => exact .inl ⟨_, (Option.some.inj hv).symm⟩
  rcases hcases with ⟨got, rfl⟩ | ⟨worker, a, b, c, d, rfl⟩
  all_goals
    unfold message
    simp only [String.append_assoc]
    exact append_ne_of_take_ne (by decide) _

/-- The messages by which a worker learns where it stands: one that has completed gets an
    acknowledgement, one that has failed is stopped for its violation. -/
inductive Verdict : WorkerStatus → List Message → Prop
  | active : Verdict .active []
  | lost : Verdict .lost []
  | completed : Verdict .completed [.ack]
  | failed {err : ProtocolError} (h : err.IsViolation) : Verdict .failed [.stop err.message]

namespace Verdict

variable {s : WorkerStatus} {ms : List Message}

/-- Only a worker that has completed is acknowledged. -/
theorem ack_mem_iff (h : Verdict s ms) : .ack ∈ ms ↔ s = .completed := by
  cases h <;> simp

/-- Only a worker that has failed is stopped for a violation. -/
theorem stop_mem_iff (h : Verdict s ms) :
    (∃ err : ProtocolError, err.IsViolation ∧ .stop err.message ∈ ms) ↔ s = .failed := by
  cases h with
  | failed h =>
    constructor
    · exact fun _ => rfl
    · exact fun _ => ⟨_, h, List.mem_singleton.mpr rfl⟩
  | _ => simp

end Verdict

namespace Coordinator

variable {c d : Coordinator}

/-- The request to stop for an interrupt, if the worker was asked. -/
def request (asked : Bool) : List Message := if asked then [.stop "interrupted"] else []

/-- Everything that may be written to the worker `id` in a session. -/
inductive Script (id : Nat) (cfg : Config) : List Message → Prop
  | aborted (configs : List Message) (hconfigs : configs = [] ∨ configs = [.config cfg])
    (reason : String) :
    Script id cfg (.hello (some (UInt64.ofNat id)) :: (configs ++ [.abort reason]))
  | started (asked : Bool) {s : WorkerStatus} {verdict : List Message} (h : Verdict s verdict) :
    Script id cfg
      (.hello (some (UInt64.ofNat id)) :: .config cfg :: .start :: (request asked ++ verdict))

/-! ### What was written to a started worker -/

/-- What the worker `id`, the peer `q`, was written from the greeting on, given its entry. -/
structure Treats (c : Coordinator) (id q : Nat) (e : WorkerEntry) (asked : Bool)
    (verdict : List Message) : Prop where
  entry : c.collector.entryOf? id = some e
  fits : Verdict e.status verdict
  /-- Interrupts are heeded once. -/
  heeded : asked = true → c.interrupt = .heeded
  messages : c.messagesTo q = .hello (some (UInt64.ofNat id)) :: .config c.setup.cfg :: .start ::
    if id ∈ c.started then request asked ++ verdict else []

theorem messagesTo_of_writtenTo {q : Nat} {ws : List Written}
    (h : d.writtenTo q = c.writtenTo q ++ ws) :
    d.messagesTo q = c.messagesTo q ++ ws.map (·.message) := by
  rw [messagesTo, h, List.map_append, messagesTo]

/-- The verdict after a reading of an active worker. -/
theorem verdict_attend {id : Nat} {e : WorkerEntry} (hs : e.status = .active) (r : Reading) :
    Verdict (e.attend id r).1.status (e.attend id r).2.toList := by
  have ha := e.attended id r
  generalize e.attend id r = a, e.admits? r = b at ha
  cases ha with
  | ignored => simpa [hs] using Verdict.active
  | left => simpa [WorkerEntry.lose, hs] using Verdict.lost
  | violated hv => exact .failed ⟨_, _, _, hv⟩
  | continued hc => exact .active
  | completed hc => exact .completed

/-- However an event affects a started worker, what was written to it fits its status. -/
theorem Treats.affects {id q : Nat} {e : WorkerEntry} {asked : Bool} {verdict : List Message}
    (h : c.Treats id q e asked verdict) (hsetup : d.setup = c.setup)
    (hstarted : d.started = c.started) (ha : c.Affects id q e d) :
    ∃ e' asked' verdict', d.Treats id q e' asked' verdict' := by
  obtain ⟨hentry, hverdict, hheeded, hmessages⟩ := h
  by_cases hs : e.status = .active
  · have hnil : verdict = [] := by
      rw [hs] at hverdict
      cases hverdict
      rfl
    subst hnil
    cases ha with
    | spared hentry' hwritten hinterrupt =>
      refine ⟨e, asked, [], hentry', hverdict, fun h => hinterrupt (hheeded h), ?_⟩
      rw [hsetup, hstarted, messagesTo, hwritten]
      exact hmessages
    | attended r hin hentry' hwritten hws hinterrupt =>
      refine ⟨_, asked, _, hentry', verdict_attend hs r, fun h => hinterrupt.trans (hheeded h), ?_⟩
      rw [messagesTo_of_writtenTo hwritten, hmessages, hws, hsetup, hstarted]
      by_cases hid : id ∈ c.started <;> simp [hid]
    | asked _ hi hentry' hwritten hws hinterrupt =>
      -- The interrupt is heeded only now, so that nobody was asked before.
      have hnot : asked = false := by
        by_contra h
        have := hheeded (by simpa using h)
        rw [hi] at this
        cases this
      subst hnot
      refine ⟨e, true, [], hentry', hverdict, fun _ => hinterrupt, ?_⟩
      rw [messagesTo_of_writtenTo hwritten, hmessages, hws, hsetup, hstarted]
      by_cases hid : id ∈ c.started <;> simp [hid, request]
    | expired _ _ hentry' hwritten hinterrupt =>
      refine ⟨e.lose, asked, [], hentry', ?_, fun h => hinterrupt.trans (hheeded h), ?_⟩
      · simpa [WorkerEntry.lose, hs] using Verdict.lost
      · rw [hsetup, hstarted, messagesTo, hwritten]
        exact hmessages
  · obtain ⟨hentry', hwritten⟩ := ha.frozen hs
    have hinterrupt : c.interrupt = .heeded → d.interrupt = .heeded := by
      cases ha with
      | spared _ _ h => exact h
      | attended _ _ _ _ _ h => exact fun hi => h.trans hi
      | asked _ _ _ _ _ h => exact fun _ => h
      | expired _ _ _ _ h => exact fun hi => h.trans hi
    refine ⟨e, asked, verdict, hentry', hverdict, fun h => hinterrupt (hheeded h), ?_⟩
    rw [hsetup, hstarted, messagesTo, hwritten]
    exact hmessages

/-- A worker that was just started is expected to report, and nothing follows the start. -/
theorem Opens.treats (hb : c.Basics) (h : c.Preparing) {ev : CoordinatorEvent} (ho : c.Opens ev)
    {id q : Nat} (hq : (c.step ev).workers[id]? = some q) :
    (c.step ev).Treats id q {} false [] := by
  obtain ⟨next, deadline, p, inbox, hp, hlast, hnext, hin, rfl⟩ := ho
  have hc : c.IsConfiguring next := by
    cases h with
    | configuring hp' h =>
      rw [hp] at hp'
      cases hp'
      exact h
    | _ hp' =>
      rw [hp] at hp'
      cases hp'
  rw [step_of_last_consent hp hlast hnext hin] at hq ⊢
  have hb' := hb.take (lt_of_inbox hin) (.message .ready) inbox
  have hs := startsTo_startAll hb'.nodup
  have hworkers := workers_of_rest hs.rest
  have hq' : (c.take p (.message .ready) inbox).workers[id]? = some q := hworkers ▸ hq
  have hserves := serves_of_startsTo hs hb' (hc.isAgreed hb hnext hlast inbox) hq'
  obtain ⟨-, hentry, -, ws, hws, hwritten⟩ := hserves
  refine ⟨hentry, .active, fun h => (by cases h), ?_⟩
  have hmessages := congrArg (List.map (·.message)) hwritten
  simp only [List.map_cons, hws, greeting] at hmessages
  exact hmessages

/-! ### The loop -/

/-- Whoever is expected to report while the coordinator runs is connected, and there is such a
    worker. -/
structure IsAwaiting (c : Coordinator) : Prop where
  unsettled : c.collector.isSettled = false
  connected : ∀ id, c.collector.status id = some .active → id ∈ c.connected

theorem IsAwaiting.congr (h : c.IsAwaiting) (hcollector : d.collector = c.collector)
    (hconnected : d.connected = c.connected) : d.IsAwaiting :=
  ⟨hcollector ▸ h.unsettled, fun id hid => hconnected ▸ h.connected id (hcollector ▸ hid)⟩

/-- A coordinator that has settled does not run any more. -/
theorem phase_leave_ne {deadline : Nat} (hp : c.phase = .shuttingDown deadline) (d' : Nat) :
    c.leave.phase ≠ .running d' := by
  unfold leave
  split
  · unfold conclude
    split <;> exact fun h => by cases h
  · rw [hp]
    exact fun h => by cases h

theorem isAwaiting_settle (h : ∀ id, c.collector.status id = some .active → id ∈ c.connected)
    {deadline : Nat} (hp : c.settle.phase = .running deadline) : c.settle.IsAwaiting := by
  unfold settle at hp ⊢
  split at hp
  · exact absurd hp (phase_leave_ne rfl _)
  · rename_i hs
    rw [if_neg hs]
    exact ⟨by simpa using hs, h⟩

/-- Reading from a worker that is expected to report leaves those connected that still are. -/
theorem Attends.connected_of_active {id : Nat} {e : WorkerEntry} {r : Reading}
    (ha : c.Attends id e r d) (h : ∀ j, c.collector.status j = some .active → j ∈ c.connected)
    (he : c.collector.entryOf? id = some e) (j : Nat)
    (hj : d.collector.status j = some .active) : j ∈ d.connected := by
  have hentry := ha.entries j
  have hbefore : c.collector.status j = some .active := by
    by_cases hs : e.status = .active
    · by_cases hid : j = id
      · rw [hid, Collector.status, he, Option.map_some, hs]
      · rw [if_neg hid] at hentry
        rwa [Collector.status, hentry] at hj
    · rw [WorkerEntry.attend_of_ne hs] at hentry
      by_cases hid : j = id
      · rw [if_pos hid] at hentry
        rw [Collector.status, hentry, Option.map_some, Option.some.injEq] at hj
        exact absurd hj hs
      · rw [if_neg hid] at hentry
        rwa [Collector.status, hentry] at hj
  rw [ha.connected]
  split
  · exact h j hbefore
  · rename_i hr
    -- Whoever has left is not expected to report any more.
    have hne : j ≠ id := by
      rintro rfl
      have hlost : (e.attend j r).1 = e.lose := by
        cases r with
        | message m => simp [Reading.isMessage] at hr
        | _ => rfl
      rw [if_pos rfl, hlost] at hentry
      rw [Collector.status, hentry, Option.map_some, Option.some.injEq] at hj
      exact e.status_lose_ne_active hj
    simpa [hne] using h j hbefore

/-- Once its workers have reported, a coordinator does not run any more. -/
theorem phase_step_ne_running {deadline : Nat} (hp : c.phase = .shuttingDown deadline)
    (ev : CoordinatorEvent) (d' : Nat) : (c.step ev).phase ≠ .running d' := by
  have hr := c.reacts_step ev
  generalize c.step ev = d at hr ⊢
  have hne : c.phase ≠ .running d' := fun h => by rw [hp] at h; cases h
  cases hr with
  | refused | late | again | arrive | sever | interrupt | advance => exact hne
  | welcome hp' =>
    rw [hp] at hp'
    cases hp'
  | @read q r inbox hlisten hin =>
    rw [onRead, phase_take, hp]
    simp only
    split
    · refine @phase_leave_ne _ deadline ?_ d'
      cases r <;> exact hp
    · exact hne
  | heed hp' =>
    rw [hp] at hp'
    cases hp'
  | expire =>
    rw [Coordinator.expire, hp]
    simp only [conclude]
    split <;> exact fun h => by cases h

/-- A running coordinator that goes on awaits its workers. -/
theorem IsAwaiting.step {deadline : Nat} (hb : c.Basics) (hs : c.Started)
    (hp : c.phase = .running deadline) (h : c.IsAwaiting) (ev : CoordinatorEvent) {d' : Nat}
    (hp' : (c.step ev).phase = .running d') : (c.step ev).IsAwaiting := by
  have hr := c.reacts_step ev
  generalize c.step ev = d at hr hp' ⊢
  cases hr with
  | refused | late | again | arrive | sever | interrupt | advance => exact h.congr rfl rfl
  | welcome hp'' => exact absurd hp'' (hs.not_accepting _)
  | @read q r inbox hlisten hin =>
    have hid : ∃ id, c.idOf? q = some id := by
      cases hid : c.idOf? q with
      | some id => exact ⟨id, rfl⟩
      | none => simp [listensTo, hp, hid] at hlisten
    obtain ⟨id, hid⟩ := hid
    have hq := (idOf?_eq_some_iff hb.nodup).mp hid
    obtain ⟨e, he⟩ := hs.isUnderway.exists_entry hq
    have ha : (c.take q r inbox).Attends id e r ((c.take q r inbox).onReading id r) :=
      attends_onReading (c := c.take q r inbox) he r
    have hread : (c.take q r inbox).onRead q r = ((c.take q r inbox).onReading id r).settle := by
      have htake : (c.take q r inbox).idOf? q = some id := hid
      rw [onRead, phase_take, hp]
      simp only [htake]
    rw [hread] at hp' ⊢
    exact isAwaiting_settle (ha.connected_of_active h.connected he) hp'
  | heed =>
    refine h.congr ?_ ?_ <;> rw [hs.isUnderway.heed_eq hb] <;> rfl
  | expire =>
    have hnodup : c.collector.ids.Nodup := hs.isUnderway.ids ▸ List.nodup_range
    rw [Coordinator.expire, hp] at hp' ⊢
    simp only [settle, isSettled_loseActive hnodup, if_true] at hp'
    exact absurd hp' (phase_leave_ne rfl _)

/-- With the start all workers are connected and expected to report. -/
theorem Opens.isAwaiting (hb : c.Basics) (h : c.Preparing) {ev : CoordinatorEvent}
    (ho : c.Opens ev) (hs : (c.step ev).Started) : (c.step ev).IsAwaiting := by
  have htreats := fun id q => @Opens.treats c hb h _ ho id q
  obtain ⟨next, deadline, p, inbox, hp, hlast, hnext, hin, rfl⟩ := ho
  have hu := hs.isUnderway
  have hnodup : (c.step (.read p)).collector.ids.Nodup := hu.ids ▸ List.nodup_range
  constructor
  · have hfull := hu.full
    have hlt : 0 < (c.step (.read p)).workers.length := by omega
    have hentry := (htreats 0 _ (List.getElem?_eq_getElem hlt)).entry
    by_contra hsettled
    have := (Collector.isSettled_iff_entry hnodup).mp (by simpa using hsettled) 0 _ hentry
    exact this rfl
  · intro id hid
    obtain ⟨e, he⟩ : ∃ e, (c.step (.read p)).collector.entryOf? id = some e := by
      cases he : (c.step (.read p)).collector.entryOf? id with
      | some e => exact ⟨e, rfl⟩
      | none => simp [Collector.status, he] at hid
    have hmem : id ∈ List.range (c.step (.read p)).workers.length :=
      hu.ids ▸ Collector.mem_ids he
    rw [step_of_last_consent hp hlast hnext hin] at hmem ⊢
    have hstarts := startsTo_startAll (c := c.take p (.message .ready) inbox) hb.nodup
    have hconnected : (c.take p (.message .ready) inbox).startAll.connected =
        List.range c.workers.length := hstarts.connected
    have hworkers : (c.take p (.message .ready) inbox).startAll.workers = c.workers :=
      (workers_of_rest hstarts.rest :)
    rwa [hconnected, ← hworkers]

/-! ### Runs -/

/-- What holds of a coordinator in every run. -/
structure Orderly (c : Coordinator) : Prop where
  inv : c.Inv
  treats : c.Started → ∀ id q, c.workers[id]? = some q →
    ∃ e asked verdict, c.Treats id q e asked verdict
  awaiting : ∀ deadline, c.phase = .running deadline → c.IsAwaiting

theorem orderly_start (setup : CoordinatorSetup) (now : Nat) : (start setup now).Orderly where
  inv := inv_start setup now
  treats h := by cases h with | _ hp => cases hp
  awaiting deadline hp := by cases hp

/-- A coordinator that has not started its workers knows nothing of them. -/
theorem Preparing.isUnstarted (h : c.Preparing) : c.IsUnstarted := by
  cases h with
  | accepting hp h => exact h.toIsUnstarted
  | configuring hp h => exact h.toIsUnstarted
  | calledOff hp h => exact h.toIsUnstarted

theorem Preparing.not_started (h : c.Preparing) : ¬ c.Started := by
  intro hs
  have hids := hs.isUnderway.ids
  have hfull := hs.isUnderway.full
  rw [h.isUnstarted.collector] at hids
  have hlength := congrArg List.length hids
  simp only [Collector.ids, List.map_nil, List.length_nil, List.length_range] at hlength
  omega

theorem Preparing.phase_ne_running (h : c.Preparing) (deadline : Nat) :
    c.phase ≠ .running deadline := by
  intro hp
  cases h with
  | _ hp' =>
    rw [hp] at hp'
    cases hp'

/-- Every worker that is served affects nobody else, so that the workers stay the same. -/
theorem Started.workers_step (hb : c.Basics) (h : c.Started) (ev : CoordinatorEvent) :
    (c.step ev).workers = c.workers := by
  have hfull := h.isUnderway.full
  have hlt : 0 < c.workers.length := by omega
  have hq := List.getElem?_eq_getElem hlt
  obtain ⟨e, he⟩ := h.isUnderway.exists_entry hq
  exact (h.affects hb hq he ev).1

/-- **Step lemma.** Every event keeps a coordinator orderly. -/
theorem Orderly.step (h : c.Orderly) (ev : CoordinatorEvent) : (c.step ev).Orderly := by
  have hinv := h.inv.step ev
  have hb := h.inv.basics
  rcases h.inv.stage with hprep | hs
  · obtain ⟨-, hprep' | ⟨hopens, hs'⟩⟩ := hprep.step hb ev
    · exact ⟨hinv, fun hs' => absurd hs' hprep'.not_started,
        fun deadline hp => absurd hp (hprep'.phase_ne_running deadline)⟩
    · exact ⟨hinv, fun _ id q hq => ⟨_, _, _, hopens.treats hb hprep hq⟩,
        fun _ _ => hopens.isAwaiting hb hprep hs'⟩
  · refine ⟨hinv, fun _ id q hq => ?_, fun deadline hp' => ?_⟩
    · rw [hs.workers_step hb ev] at hq
      obtain ⟨e, asked, verdict, htreats⟩ := h.treats hs id q hq
      obtain ⟨-, hstarted, haffects⟩ := hs.affects hb hq htreats.entry ev
      exact htreats.affects (c.setup_step ev) hstarted haffects
    · cases hs with
      | running hp hu => exact (h.awaiting _ hp).step hb (.running hp hu) hp ev hp'
      | shuttingDown hp => exact absurd hp' (phase_step_ne_running hp ev deadline)
      | finished hp =>
        rw [phase_step_of_finished hp] at hp'
        cases hp'

/-- **Run lemma.** Every run keeps a coordinator orderly. -/
theorem Orderly.run (h : c.Orderly) (es : List CoordinatorEvent) : (c.run es).Orderly := by
  induction es generalizing c with
  | nil => exact h
  | cons ev es ih => exact ih (h.step ev)

/-! ### The discipline -/

/-- The discipline of a session: what holds of a coordinator and of all that may follow. -/
structure IsDisciplined (c : Coordinator) : Prop where
  /-- What was written to a worker is the beginning of a script. -/
  script : ∀ (id q : Nat), c.workers[id]? = some q →
    ∃ ms, Script id c.setup.cfg ms ∧ c.messagesTo q <+: ms
  /-- With the event by which a started worker completes it is acknowledged, with the one by which it
      fails it is stopped for its violation, and neither is written with any other event. -/
  verdict : ∀ (id q : Nat), c.workers[id]? = some q → ∀ ev, .start ∈ (c.step ev).deliveredTo q →
    ∃ new, (c.step ev).messagesTo q = c.messagesTo q ++ new ∧
      (.ack ∈ new ↔ c.collector.status id = some .active ∧
        (c.step ev).collector.status id = some .completed) ∧
      ((∃ err : ProtocolError, err.IsViolation ∧ .stop err.message ∈ new) ↔
        c.collector.status id = some .active ∧ (c.step ev).collector.status id = some .failed)
  /-- A worker to which the start could not be written is written nothing more. -/
  unreached : ∀ (id q : Nat), c.workers[id]? = some q → .start ∈ c.messagesTo q →
    .start ∉ c.deliveredTo q → ∀ es, (c.run es).writtenTo q = c.writtenTo q
  /-- A worker that is not expected to report any more stays as it is, and is written nothing. -/
  frozen : ∀ (id q : Nat), c.workers[id]? = some q → ∀ s, c.collector.status id = some s → s ≠ .active →
    ∀ es, (c.run es).collector.entryOf? id = c.collector.entryOf? id ∧
      (c.run es).writtenTo q = c.writtenTo q
  /-- The coordinator runs exactly as long as some worker is expected to report. -/
  running : (∃ deadline, c.phase = .running deadline) ↔ ∃ id, c.collector.status id = some .active
  /-- As long as a worker is expected to report, its link has not ended. -/
  connected : ∀ id, c.collector.status id = some .active → id ∈ c.connected

/-- A worker was started exactly if the start has reached it. -/
theorem Serves.start_mem_iff {id q : Nat} {rs : List Reading} {e : WorkerEntry} {ms : List Message}
    (h : c.Serves id q rs e ms) : .start ∈ c.deliveredTo q ↔ id ∈ c.started := by
  obtain ⟨ws, hws, hwritten⟩ := h.written
  have hnot : .start ∉ ws.map (·.message) := by
    rw [hws]
    intro hmem
    split at hmem
    · rcases h.dealings.answers _ hmem with h | ⟨_, h⟩ <;> cases h
    · cases hmem
  have hdelivered : .start ∉ (ws.filter (·.delivered)).map (·.message) :=
    fun hmem => hnot (List.map_subset _ (List.filter_subset_self _) hmem)
  rw [deliveredTo, hwritten]
  by_cases hid : id ∈ c.started
  · simp [hid, greeting]
  · simpa [hid, greeting] using hdelivered

/-- Before the start it is written to nobody. -/
theorem Preparing.start_not_mem (hb : c.Basics) (h : c.Preparing) (q : Nat) :
    .start ∉ c.messagesTo q := by
  intro hmem
  obtain ⟨w, hw, hstart⟩ := List.mem_map.mp hmem
  exact h.not_hasOpened hb ⟨w, (List.mem_filter.mp hw).1, hstart⟩

theorem deliveredTo_subset (c : Coordinator) (q : Nat) : c.deliveredTo q ⊆ c.messagesTo q :=
  List.map_subset _ (List.filter_subset_self _)

theorem Orderly.started_of_start (h : c.Orderly) {q : Nat} (hstart : .start ∈ c.messagesTo q) :
    c.Started :=
  h.inv.stage.resolve_left fun hprep => hprep.start_not_mem h.inv.basics q hstart

theorem Orderly.started_of_status (h : c.Orderly) {id : Nat} {s : WorkerStatus}
    (hs : c.collector.status id = some s) : c.Started := by
  refine h.inv.stage.resolve_left fun hprep => ?_
  rw [hprep.isUnstarted.collector] at hs
  cases hs

/-- What is written to a worker before the start is the beginning of a script. -/
theorem Preparing.script (h : c.Preparing) {id q : Nat} (hq : c.workers[id]? = some q) :
    ∃ ms, Script id c.setup.cfg ms ∧ c.messagesTo q <+: ms := by
  cases h with
  | accepting hp h =>
    refine ⟨_, .started false .active, ?_⟩
    rw [messagesTo, (h.greeted id q hq).1]
    exact ⟨[.config c.setup.cfg, .start], rfl⟩
  | configuring hp h =>
    refine ⟨_, .started false .active, ?_⟩
    rw [messagesTo, (h.briefed id q hq).1]
    exact ⟨[.start], rfl⟩
  | calledOff hp h =>
    obtain ⟨ws, reason, b, hwritten, hws⟩ := h.aborted id q hq
    refine ⟨_, .aborted (ws.map (·.message)) ?_ reason, ?_⟩
    · rcases hws with rfl | ⟨b, rfl⟩
      · exact .inl rfl
      · exact .inr rfl
    · simp [messagesTo, hwritten, greeting]

/-- So is what was written to it from the start on. -/
theorem Treats.script {id q : Nat} {e : WorkerEntry} {asked : Bool} {verdict : List Message}
    (h : c.Treats id q e asked verdict) :
    ∃ ms, Script id c.setup.cfg ms ∧ c.messagesTo q <+: ms := by
  refine ⟨_, .started asked h.fits, ?_⟩
  rw [h.messages]
  by_cases hid : id ∈ c.started
  · simp only [if_pos hid, List.prefix_refl]
  · simp only [if_neg hid]
    exact ⟨request asked ++ verdict, rfl⟩

/-- What an event writes to a started worker is its verdict, if it brings one. -/
theorem Affects.verdict {id q : Nat} {e : WorkerEntry} (h : c.Affects id q e d)
    (he : c.collector.entryOf? id = some e) (hid : id ∈ c.started) :
    ∃ new, d.messagesTo q = c.messagesTo q ++ new ∧
      (.ack ∈ new ↔ c.collector.status id = some .active ∧
        d.collector.status id = some .completed) ∧
      ((∃ err : ProtocolError, err.IsViolation ∧ .stop err.message ∈ new) ↔
        c.collector.status id = some .active ∧ d.collector.status id = some .failed) := by
  have hbefore : c.collector.status id = some e.status := by rw [Collector.status, he]; rfl
  have hafter : ∀ e', d.collector.entryOf? id = some e' →
      d.collector.status id = some e'.status := fun e' h => by rw [Collector.status, h]; rfl
  by_cases hs : e.status = .active
  · rw [hbefore, hs]
    cases h with
    | spared hentry hwritten =>
      refine ⟨[], by simp [messagesTo, hwritten], ?_⟩
      simp [hafter _ hentry, hs]
    | attended r hin hentry hwritten hws =>
      rw [if_pos hid] at hws
      refine ⟨_, messagesTo_of_writtenTo hwritten, ?_⟩
      have hverdict := @verdict_attend id _ hs r
      rw [hws, hafter _ hentry, hverdict.ack_mem_iff, hverdict.stop_mem_iff]
      simp
    | asked _ _ hentry hwritten hws =>
      rw [if_pos hid] at hws
      refine ⟨_, messagesTo_of_writtenTo hwritten, ?_⟩
      rw [hws, hafter _ hentry, hs]
      refine ⟨by simp, ?_⟩
      constructor
      · rintro ⟨err, hviolation, hmem⟩
        exact absurd (by simpa using hmem) hviolation.message_ne
      · rintro ⟨-, hfailed⟩
        cases hfailed
    | expired _ _ hentry hwritten =>
      refine ⟨[], by simp [messagesTo, hwritten], ?_⟩
      simp [hafter _ hentry, WorkerEntry.lose, hs]
  · obtain ⟨-, hwritten⟩ := h.frozen hs
    refine ⟨[], by simp [messagesTo, hwritten], ?_⟩
    simp [hbefore, hs]

/-- The event that starts the workers brings no verdict. -/
theorem Opens.verdict (hb : c.Basics) (h : c.Preparing) {ev : CoordinatorEvent}
    (ho : c.Opens ev) {id q : Nat} (hq : c.workers[id]? = some q) :
    ∃ new, (c.step ev).messagesTo q = c.messagesTo q ++ new ∧
      (.ack ∈ new ↔ c.collector.status id = some .active ∧
        (c.step ev).collector.status id = some .completed) ∧
      ((∃ err : ProtocolError, err.IsViolation ∧ .stop err.message ∈ new) ↔
        c.collector.status id = some .active ∧ (c.step ev).collector.status id = some .failed) := by
  have hworkers := (ho.barrier hb h).complete.2.2
  have hq' : (c.step ev).workers[id]? = some q := hworkers ▸ hq
  have htreats := ho.treats hb h hq'
  have hlog : c.log <+: (c.step ev).log := by
    obtain ⟨_, _, _, _, -, -, -, -, rfl⟩ := ho
    exact (Flows.step c rfl).log
  obtain ⟨new, hnew⟩ : c.messagesTo q <+: (c.step ev).messagesTo q := (hlog.filter _).map _
  have hstatus : c.collector.status id = none := by rw [h.isUnstarted.collector]; rfl
  have hmem : ∀ m ∈ new, (∃ x, m = .hello x) ∨ (∃ cfg, m = .config cfg) ∨ m = .start := by
    intro m hm
    have hm : m ∈ (c.step ev).messagesTo q := hnew ▸ List.mem_append_right _ hm
    rw [htreats.messages] at hm
    simp only [request, Bool.false_eq_true, if_false, List.append_nil, ite_self, List.mem_cons,
      List.not_mem_nil, or_false] at hm
    rcases hm with rfl | rfl | rfl
    · exact .inl ⟨_, rfl⟩
    · exact .inr (.inl ⟨_, rfl⟩)
    · exact .inr (.inr rfl)
  refine ⟨new, hnew.symm, ?_⟩
  rw [hstatus]
  constructor
  · refine ⟨fun hack => ?_, fun h => by cases h.1⟩
    rcases hmem _ hack with ⟨_, h⟩ | ⟨_, h⟩ | h <;> cases h
  · refine ⟨fun ⟨err, _, hstop⟩ => ?_, fun h => by cases h.1⟩
    rcases hmem _ hstop with ⟨_, h⟩ | ⟨_, h⟩ | h <;> cases h

/-- The verdicts of one event. -/
theorem Orderly.verdict (h : c.Orderly) {id q : Nat} (hq : c.workers[id]? = some q)
    (ev : CoordinatorEvent) (hstart : .start ∈ (c.step ev).deliveredTo q) :
    ∃ new, (c.step ev).messagesTo q = c.messagesTo q ++ new ∧
      (.ack ∈ new ↔ c.collector.status id = some .active ∧
        (c.step ev).collector.status id = some .completed) ∧
      ((∃ err : ProtocolError, err.IsViolation ∧ .stop err.message ∈ new) ↔
        c.collector.status id = some .active ∧ (c.step ev).collector.status id = some .failed) := by
  have hb := h.inv.basics
  have hs' := (h.step ev).started_of_start (deliveredTo_subset _ _ hstart)
  rcases h.inv.stage with hprep | hs
  · obtain ⟨-, hprep' | ⟨hopens, -⟩⟩ := hprep.step hb ev
    · exact absurd hs' hprep'.not_started
    · exact hopens.verdict hb hprep hq
  · have hq' : (c.step ev).workers[id]? = some q := by rwa [hs.workers_step hb ev]
    obtain ⟨rs, e', ms, hserves⟩ := hs'.isUnderway.served id q hq'
    obtain ⟨e, he⟩ := hs.isUnderway.exists_entry hq
    obtain ⟨-, hstarted, haffects⟩ := hs.affects hb hq he ev
    exact haffects.verdict he (hstarted ▸ hserves.start_mem_iff.mp hstart)

/-- A worker that could not be started is never written to again. -/
theorem Orderly.unreached (h : c.Orderly) (hs : c.Started) {id q : Nat}
    (hq : c.workers[id]? = some q) (hid : id ∉ c.started) (es : List CoordinatorEvent) :
    (c.run es).writtenTo q = c.writtenTo q := by
  induction es generalizing c with
  | nil => rfl
  | cons ev es ih =>
    have hb := h.inv.basics
    obtain ⟨e, he⟩ := hs.isUnderway.exists_entry hq
    obtain ⟨hworkers, hstarted, haffects⟩ := hs.affects hb hq he ev
    have hrest := ih (h.step ev) (hs.step hb ev).2 (hworkers ▸ hq) (hstarted ▸ hid)
    exact hrest.trans (haffects.unreached hid)

/-- A worker that is not expected to report any more stays as it is. -/
theorem Orderly.frozen (h : c.Orderly) {id q : Nat} (hq : c.workers[id]? = some q)
    {e : WorkerEntry} (he : c.collector.entryOf? id = some e) (hne : e.status ≠ .active)
    (es : List CoordinatorEvent) : (c.run es).collector.entryOf? id = some e ∧
      (c.run es).writtenTo q = c.writtenTo q := by
  induction es generalizing c with
  | nil => exact ⟨he, rfl⟩
  | cons ev es ih =>
    have hb := h.inv.basics
    have hs : c.Started := h.started_of_status (s := e.status) (by rw [Collector.status, he]; rfl)
    obtain ⟨hworkers, -, haffects⟩ := hs.affects hb hq he ev
    obtain ⟨he', hwritten⟩ := haffects.frozen hne
    obtain ⟨hentry, hrest⟩ := ih (h.step ev) (hworkers ▸ hq) he'
    exact ⟨hentry, hrest.trans hwritten⟩

/-- The coordinator runs exactly as long as some worker is expected to report. -/
theorem Orderly.running_iff (h : c.Orderly) :
    (∃ deadline, c.phase = .running deadline) ↔ ∃ id, c.collector.status id = some .active := by
  constructor
  · rintro ⟨deadline, hp⟩
    have hunsettled := (h.awaiting deadline hp).unsettled
    have hactive : c.collector.active ≠ [] := by
      intro hnil
      rw [(Collector.isSettled_iff _).mpr hnil] at hunsettled
      cases hunsettled
    obtain ⟨id, hid⟩ := List.exists_mem_of_ne_nil _ hactive
    have hs : c.Started := h.inv.stage.resolve_left fun hprep => hprep.phase_ne_running _ hp
    have hnodup : c.collector.ids.Nodup := hs.isUnderway.ids ▸ List.nodup_range
    exact ⟨id, (Collector.mem_active_iff hnodup).mp hid⟩
  · rintro ⟨id, hid⟩
    have hs := h.started_of_status hid
    have hnodup : c.collector.ids.Nodup := hs.isUnderway.ids ▸ List.nodup_range
    obtain ⟨e, he, hactive⟩ := Collector.status_eq_some_iff.mp hid
    cases hs with
    | running hp => exact ⟨_, hp⟩
    | shuttingDown hp _ hsettled | finished hp _ hsettled =>
      exact absurd hactive ((Collector.isSettled_iff_entry hnodup).mp hsettled id e he)

/-- An orderly coordinator is disciplined. -/
theorem Orderly.isDisciplined (h : c.Orderly) : c.IsDisciplined where
  script id q hq := by
    rcases h.inv.stage with hprep | hs
    · exact hprep.script hq
    · obtain ⟨e, asked, verdict, htreats⟩ := h.treats hs id q hq
      exact htreats.script
  verdict id q hq ev hstart := h.verdict hq ev hstart
  unreached id q hq hstart hnot es := by
    have hs := h.started_of_start hstart
    obtain ⟨rs, e, ms, hserves⟩ := hs.isUnderway.served id q hq
    exact h.unreached hs hq (mt hserves.start_mem_iff.mpr hnot) es
  frozen id q hq s hstatus hne es := by
    obtain ⟨e, he, rfl⟩ := Collector.status_eq_some_iff.mp hstatus
    rw [he]
    exact h.frozen hq he hne es
  running := h.running_iff
  connected id hid := by
    obtain ⟨deadline, hp⟩ := h.running_iff.mpr ⟨id, hid⟩
    exact (h.awaiting deadline hp).connected id hid

/-- **Session discipline.** In every run, whatever arrives from the workers and whenever links break,
    interrupts come and deadlines pass, the coordinator is disciplined towards each of its
    workers. -/
theorem isDisciplined_run (setup : CoordinatorSetup) (now : Nat) (es : List CoordinatorEvent) :
    ((start setup now).run es).IsDisciplined :=
  ((orderly_start setup now).run es).isDisciplined

/-- Two workers were started. The last report of the first one has arrived, and of the second one
    something that is no report; neither was read yet. -/
def beforeVerdicts : List CoordinatorEvent := opening ++
  [.arrive 0 (.message (.statsReport { requests := 5, bytes := 500, completed := true })),
   .arrive 1 (.message .ready)]

/-- With its report the first worker is acknowledged. The second one is stopped for its violation.
    Whatever happens from then on, neither is written anything more. -/
theorem isDisciplined_run_verdicts :
    let c := (start twoWorkers 0).run beforeVerdicts
    let acknowledged := (start twoWorkers 0).run (beforeVerdicts ++ [.read 0])
    let stopped := (start twoWorkers 0).run (beforeVerdicts ++ [.read 0, .read 1])
    (∃ new, acknowledged.messagesTo 0 = c.messagesTo 0 ++ new ∧ .ack ∈ new) ∧
      (∃ new err, stopped.messagesTo 1 = acknowledged.messagesTo 1 ++ new ∧
        ProtocolError.IsViolation err ∧ .stop err.message ∈ new) ∧
      ∀ es, (stopped.run es).writtenTo 0 = stopped.writtenTo 0 ∧
        (stopped.run es).writtenTo 1 = stopped.writtenTo 1 := by
  refine ⟨?_, ?_, fun es => ?_⟩
  · obtain ⟨new, hnew, hack, -⟩ := (isDisciplined_run twoWorkers 0 beforeVerdicts).verdict 0 0
      (by decide) (.read 0) (by decide)
    exact ⟨new, hnew, hack.mpr (by decide)⟩
  · obtain ⟨new, hnew, -, hstop⟩ :=
      (isDisciplined_run twoWorkers 0 (beforeVerdicts ++ [.read 0])).verdict 1 1
        (by decide) (.read 1) (by decide)
    obtain ⟨err, hviolation, hmem⟩ := hstop.mpr (by decide)
    exact ⟨new, err, hnew, hviolation, hmem⟩
  · have h := isDisciplined_run twoWorkers 0 (beforeVerdicts ++ [.read 0, .read 1])
    exact ⟨(h.frozen 0 0 (by decide) .completed (by decide) (by decide) es).2,
      (h.frozen 1 1 (by decide) .failed (by decide) (by decide) es).2⟩

end Coordinator

end TxLoad
