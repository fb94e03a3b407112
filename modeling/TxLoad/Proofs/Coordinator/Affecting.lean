import TxLoad.Proofs.Coordinator.Underway

namespace TxLoad.Coordinator

/-!
# What an event means for one worker

Once the workers are started, an event concerns each of them in one of four ways, whichever worker
it comes from: it passes by, it is a reading of this worker, it asks this worker to stop, or it is
the deadline.

* `Affects` are these ways, with the entry of the worker afterwards and what is written to it.
* `Started.affects`: each event affects each worker in one of them.
* `Affects.frozen`: a worker that is not expected to report is not affected at all.
* `Affects.unreached`: nothing is written to a worker that could not be started.
-/

variable {c d : Coordinator}

/-! ### The end of a phase -/

/-- Nothing has changed about the workers. -/
structure Spares (c d : Coordinator) : Prop where
  collector : d.collector = c.collector
  log : d.log = c.log
  workers : d.workers = c.workers
  started : d.started = c.started
  interrupt : d.interrupt = c.interrupt

theorem spares_refl (c : Coordinator) : c.Spares c := ⟨rfl, rfl, rfl, rfl, rfl⟩

theorem spares_conclude (c : Coordinator) : c.Spares c.conclude := by
  unfold conclude
  split <;> exact ⟨rfl, rfl, rfl, rfl, rfl⟩

theorem spares_leave (c : Coordinator) : c.Spares c.leave := by
  unfold leave
  split
  · exact c.spares_conclude
  · exact c.spares_refl

theorem spares_settle (c : Coordinator) : c.Spares c.settle := by
  unfold settle
  split
  · obtain ⟨h₁, h₂, h₃, h₄, h₅⟩ :=
      spares_leave { c with phase := .shuttingDown (c.now + shutdownMs c.setup) }
    exact ⟨h₁, h₂, h₃, h₄, h₅⟩
  · exact c.spares_refl

theorem Spares.writtenTo (h : c.Spares d) (q : Nat) : d.writtenTo q = c.writtenTo q := by
  rw [Coordinator.writtenTo, Coordinator.writtenTo, h.log]

/-! ### One worker -/

/-- What becomes of the worker `id`, the peer `q`, with entry `e`. -/
inductive Affects (c : Coordinator) (id q : Nat) (e : WorkerEntry) (d : Coordinator) : Prop
  /-- The event passes by. -/
  | spared (hentry : d.collector.entryOf? id = some e) (hwritten : d.writtenTo q = c.writtenTo q)
    (hinterrupt : c.interrupt = .heeded → d.interrupt = .heeded)
  /-- A reading of this worker is attended to. -/
  | attended (r : Reading) {rest : List Reading} {ws : List Written}
    (hin : c.inbox q = r :: rest)
    (hentry : d.collector.entryOf? id = some (e.attend id r).1)
    (hwritten : d.writtenTo q = c.writtenTo q ++ ws)
    (hws : ws.map (·.message) = if id ∈ c.started then (e.attend id r).2.toList else [])
    (hinterrupt : d.interrupt = c.interrupt)
  /-- The worker is asked to stop, for the first time. -/
  | asked {ws : List Written} (hs : e.status = .active) (hi : c.interrupt = .requested)
    (hentry : d.collector.entryOf? id = some e)
    (hwritten : d.writtenTo q = c.writtenTo q ++ ws)
    (hws : ws.map (·.message) = if id ∈ c.started then [.stop "interrupted"] else [])
    (hinterrupt : d.interrupt = .heeded)
  /-- The worker is given up at the deadline. -/
  | expired {deadline : Nat} (hp : c.phase = .running deadline) (hnow : deadline ≤ c.now)
    (hentry : d.collector.entryOf? id = some e.lose)
    (hwritten : d.writtenTo q = c.writtenTo q) (hinterrupt : d.interrupt = c.interrupt)

/-- What happens to the workers alone decides how one of them is affected. -/
theorem Affects.spares {id q : Nat} {e : WorkerEntry} {b : Coordinator} (h : c.Affects id q e b)
    (hs : b.Spares d) : c.Affects id q e d := by
  cases h with
  | spared hentry hwritten hinterrupt =>
    exact .spared (hs.collector ▸ hentry) ((hs.writtenTo q).trans hwritten)
      fun hi => hs.interrupt.trans (hinterrupt hi)
  | attended r hin hentry hwritten hws hinterrupt =>
    exact .attended r hin (hs.collector ▸ hentry) ((hs.writtenTo q).trans hwritten) hws
      (hs.interrupt.trans hinterrupt)
  | asked hstatus hi hentry hwritten hws hinterrupt =>
    exact .asked hstatus hi (hs.collector ▸ hentry) ((hs.writtenTo q).trans hwritten) hws
      (hs.interrupt.trans hinterrupt)
  | expired hp hnow hentry hwritten hinterrupt =>
    exact .expired hp hnow (hs.collector ▸ hentry) ((hs.writtenTo q).trans hwritten)
      (hs.interrupt.trans hinterrupt)

theorem spared_of_spares {id q : Nat} {e : WorkerEntry} (he : c.collector.entryOf? id = some e)
    (h : c.Spares d) : c.Affects id q e d :=
  .spared (h.collector ▸ he) (h.writtenTo q) fun hi => h.interrupt.trans hi

/-- **Locality.** Attending to a worker is attending to this one and passes by all others. -/
theorem affects_of_attends {id j q p : Nat} {r : Reading} {inbox : List Reading}
    {e e' : WorkerEntry} (hb : c.Basics) (hin : c.inbox p = r :: inbox)
    (hq : c.workers[id]? = some q) (hp : c.workers[j]? = some p) (he : c.collector.entryOf? id = some e)
    (he' : c.collector.entryOf? j = some e') (ha : (c.take p r inbox).Attends j e' r d) :
    c.Affects id q e d := by
  have hwritten : d.writtenTo q = c.writtenTo q ++
      if q = p then (c.take p r inbox).answers j p e' r else [] := ha.writtenTo_eq hp q
  have hentry := ha.entries id
  have hinterrupt : d.interrupt = c.interrupt := (congrArg Coordinator.interrupt ha.rest :)
  by_cases hid : id = j
  · subst hid
    obtain rfl : q = p := Option.some.inj (hq.symm.trans hp)
    obtain rfl : e = e' := Option.some.inj (he.symm.trans he')
    rw [if_pos rfl] at hwritten hentry
    refine .attended r hin hentry hwritten ?_ hinterrupt
    rw [answers, started_take]
    by_cases hstarted : id ∈ c.started <;> simp [hstarted, letter, Function.comp_def]
  · have hne : q ≠ p := mt (hb.id_inj hq hp).mp hid
    rw [if_neg hid] at hentry
    rw [if_neg hne, List.append_nil] at hwritten
    exact .spared (hentry.trans he) hwritten fun hi => hinterrupt.trans hi

/-- Heeding an interrupt asks each worker to stop that is expected to report. -/
theorem affects_heed {id q : Nat} {e : WorkerEntry} (hb : c.Basics) (h : c.IsUnderway)
    (hq : c.workers[id]? = some q) (he : c.collector.entryOf? id = some e)
    (hi : c.interrupt = .requested) :
    c.heed.workers = c.workers ∧ c.heed.started = c.started ∧ c.Affects id q e c.heed := by
  have heq := h.heed_eq hb
  have hworkers : c.heed.workers = c.workers := by rw [heq]; rfl
  have hstarted : c.heed.started = c.started := by rw [heq]; rfl
  have hentry : c.heed.collector.entryOf? id = some e := by rw [heq, ← he]; rfl
  have hinterrupt : c.heed.interrupt = .heeded := by rw [heq]
  have hwritten := h.writtenTo_heed hb hq he
  refine ⟨hworkers, hstarted, ?_⟩
  by_cases hs : e.status = .active
  · refine .asked hs hi hentry hwritten ?_ hinterrupt
    by_cases hstarted : id ∈ c.started <;> simp [hs, hstarted, letter]
  · rw [if_neg fun h => hs h.1, List.append_nil] at hwritten
    exact .spared hentry hwritten fun _ => hinterrupt

/-- Reading affects the worker that is read from. -/
theorem Started.affects_read (hb : c.Basics) (h : c.Started) {id q p : Nat} {e : WorkerEntry}
    {r : Reading} {inbox : List Reading} (hq : c.workers[id]? = some q)
    (he : c.collector.entryOf? id = some e) (hlisten : c.listensTo p = true)
    (hin : c.inbox p = r :: inbox) :
    ((c.take p r inbox).onRead p r).workers = c.workers ∧
      ((c.take p r inbox).onRead p r).started = c.started ∧
      c.Affects id q e ((c.take p r inbox).onRead p r) := by
  have htake : (c.take p r inbox).idOf? p = c.idOf? p := rfl
  have hid : ∃ j, c.idOf? p = some j := by
    cases hid : c.idOf? p with
    | some j => exact ⟨j, rfl⟩
    | none =>
      cases h with
      | _ hp => simp [listensTo, hp, hid] at hlisten
  obtain ⟨j, hj⟩ := hid
  have hp' := (idOf?_eq_some_iff hb.nodup).mp hj
  obtain ⟨e', he'⟩ := h.isUnderway.exists_entry hp'
  rw [onRead, phase_take]
  cases h with
  | running hp h =>
    have ha : (c.take p r inbox).Attends j e' r ((c.take p r inbox).onReading j r) :=
      attends_onReading (c := c.take p r inbox) he' r
    have hs := spares_settle ((c.take p r inbox).onReading j r)
    simp only [hp, htake, hj]
    exact ⟨hs.workers.trans (workers_of_rest ha.rest :), hs.started.trans ha.started,
      (affects_of_attends hb hin hq hp' he he' ha).spares hs⟩
  | shuttingDown hp h hsettled =>
    have hnodup : c.collector.ids.Nodup := h.ids ▸ List.nodup_range
    have hne := (Collector.isSettled_iff_entry hnodup).mp hsettled j e' he'
    have ha : (c.take p r inbox).Attends j e' r ((c.take p r inbox).onLateReading j r) :=
      attends_onLateReading (c := c.take p r inbox) he' hne r
    have hs := spares_leave ((c.take p r inbox).onLateReading j r)
    simp only [hp, htake, hj]
    exact ⟨hs.workers.trans (workers_of_rest ha.rest :), hs.started.trans ha.started,
      (affects_of_attends hb hin hq hp' he he' ha).spares hs⟩
  | finished hp h hsettled ho => simp [listensTo, hp] at hlisten

/-- The deadline of the running phase gives up the workers that are expected to report. -/
theorem Started.affects_expire (h : c.Started) {id q deadline : Nat} {e : WorkerEntry}
    (he : c.collector.entryOf? id = some e) (hd : c.deadline? = some deadline)
    (hnow : deadline ≤ c.now) :
    c.expire.workers = c.workers ∧ c.expire.started = c.started ∧ c.Affects id q e c.expire := by
  rw [Coordinator.expire]
  cases h with
  | running hp h =>
    have hnodup : c.collector.ids.Nodup := h.ids ▸ List.nodup_range
    have hentry : c.loseActive.collector.entryOf? id = some e.lose := by
      rw [entryOf_loseActive hnodup, he]
      rfl
    rw [deadline?, hp] at hd
    cases hd
    have hlost : c.Affects id q e c.loseActive := .expired hp hnow hentry rfl rfl
    have hs := spares_settle c.loseActive
    simp only [hp]
    exact ⟨hs.workers, hs.started, hlost.spares hs⟩
  | shuttingDown hp h hsettled =>
    have hs := c.spares_conclude
    simp only [hp]
    exact ⟨hs.workers, hs.started, spared_of_spares he hs⟩
  | finished hp h hsettled ho =>
    simp only [hp]
    exact ⟨trivial, trivial, spared_of_spares he c.spares_refl⟩

/-- **One worker at a time.** From the start on there are no more workers and no event starts one of
    them, and each is affected in one of the four ways. -/
theorem Started.affects (hb : c.Basics) (h : c.Started) {id q : Nat} {e : WorkerEntry}
    (hq : c.workers[id]? = some q) (he : c.collector.entryOf? id = some e)
    (ev : CoordinatorEvent) :
    (c.step ev).workers = c.workers ∧ (c.step ev).started = c.started ∧
      c.Affects id q e (c.step ev) := by
  have hr := c.reacts_step ev
  generalize c.step ev = d at hr ⊢
  cases hr with
  | refused | late | again => exact ⟨rfl, rfl, spared_of_spares he c.spares_refl⟩
  | welcome hp => exact absurd hp (h.not_accepting _)
  | arrive | sever | advance => exact ⟨rfl, rfl, .spared he rfl fun hi => hi⟩
  | read hlisten hin => exact h.affects_read hb hq he hlisten hin
  | interrupt hi =>
    refine ⟨rfl, rfl, .spared he rfl fun hheeded => ?_⟩
    rw [hi] at hheeded
    cases hheeded
  | heed hp hi => exact affects_heed hb h.isUnderway hq he hi
  | expire hd hnow => exact h.affects_expire he hd hnow

/-- **Frozen.** A worker that is not expected to report keeps its entry, and nothing is written to
    it. -/
theorem Affects.frozen {id q : Nat} {e : WorkerEntry} (h : c.Affects id q e d)
    (hs : e.status ≠ .active) :
    d.collector.entryOf? id = some e ∧ d.writtenTo q = c.writtenTo q := by
  cases h with
  | spared hentry hwritten => exact ⟨hentry, hwritten⟩
  | attended r hin hentry hwritten hws =>
    rw [WorkerEntry.attend_of_ne hs] at hentry hws
    rw [Option.toList_none, ite_self, List.map_eq_nil_iff] at hws
    rw [hws, List.append_nil] at hwritten
    exact ⟨hentry, hwritten⟩
  | asked hactive => exact absurd hactive hs
  | expired hp hnow hentry hwritten =>
    have hlose : e.lose = e := by simp [WorkerEntry.lose, hs]
    exact ⟨hlose ▸ hentry, hwritten⟩

/-- **Unreached.** Nothing is written to a worker that could not be started. -/
theorem Affects.unreached {id q : Nat} {e : WorkerEntry} (h : c.Affects id q e d)
    (hid : id ∉ c.started) : d.writtenTo q = c.writtenTo q := by
  cases h with
  | spared _ hwritten | expired _ _ _ hwritten => exact hwritten
  | attended _ _ _ hwritten hws | asked _ _ _ hwritten hws =>
    rw [if_neg hid, List.map_eq_nil_iff] at hws
    rwa [hws, List.append_nil] at hwritten

end TxLoad.Coordinator
