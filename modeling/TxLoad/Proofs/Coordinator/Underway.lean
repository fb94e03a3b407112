import TxLoad.Proofs.Coordinator.Preparing

namespace TxLoad.Coordinator

/-!
# From the start on

Whatever happens to a coordinator that has started its workers, it continues to serve them.

* `IsUnderway.attends`: a reading concerns the worker that it comes from.
* `IsUnderway.heed`, `IsUnderway.loseActive`: interrupts and the deadline concern all workers that
  are expected to report.
* `Started.step`: every event keeps the invariant.
* `Inv.step`, `inv_run`: the invariant holds in every run.
-/

variable {c d : Coordinator}

/-! ### Serving -/

/-- What may happen to a worker that is served: readings `hs` come in, messages `ns` go out. -/
theorem Serves.extend {id q : Nat} {rs : List Reading} {e : WorkerEntry} {ms : List Message}
    (h : c.Serves id q rs e ms) {hs : List Reading} {ws : List Written} {e' : WorkerEntry}
    {ns : List Message} (hsetup : d.setup = c.setup) (hstarted : d.started = c.started)
    (hheard : d.heardFrom q = c.heardFrom q ++ hs)
    (hwritten : d.writtenTo q = c.writtenTo q ++ ws)
    (hws : ws.map (·.message) = if id ∈ c.started then ns else [])
    (hentry : d.collector.entryOf? id = some e')
    (hdealings : Dealings id (rs ++ hs) e' (ms ++ ns) (d.acceptedFrom id)) :
    d.Serves id q (rs ++ hs) e' (ms ++ ns) := by
  obtain ⟨x, hx⟩ := h.heard
  obtain ⟨vs, hvs, hv⟩ := h.written
  refine ⟨⟨x, by simp [hheard, hx]⟩, hentry, hdealings, vs ++ ws, ?_, ?_⟩
  · rw [List.map_append, hvs, hws, hstarted]
    by_cases hid : id ∈ c.started <;> simp [hid]
  · rw [hwritten, hv, hsetup, hstarted]
    simp

/-- A worker with whom nothing has passed is served as before. -/
theorem Serves.same {id q : Nat} {rs : List Reading} {e : WorkerEntry} {ms : List Message}
    (h : c.Serves id q rs e ms) (hsetup : d.setup = c.setup) (hstarted : d.started = c.started)
    (hheard : d.heardFrom q = c.heardFrom q) (hwritten : d.writtenTo q = c.writtenTo q)
    (hentry : d.collector.entryOf? id = c.collector.entryOf? id)
    (haccepted : d.acceptedFrom id = c.acceptedFrom id) : d.Serves id q rs e ms := by
  obtain ⟨vs, hvs, hv⟩ := h.written
  refine ⟨hheard ▸ h.heard, hentry.trans h.entry, haccepted ▸ h.dealings, vs, ?_, ?_⟩
  · rw [hstarted, hvs]
  · rw [hwritten, hv, hsetup, hstarted]

/-- Different workers are different peers. -/
theorem Basics.id_inj (h : c.Basics) {i j p q : Nat} (hi : c.workers[i]? = some p)
    (hj : c.workers[j]? = some q) : p = q ↔ i = j := by
  obtain ⟨hlt, -⟩ := List.getElem?_eq_some_iff.mp hi
  constructor
  · intro hpq
    exact (List.getElem?_inj hlt h.nodup).mp (hi.trans (hpq ▸ hj.symm))
  · rintro rfl
    exact Option.some.inj (hi.symm.trans hj)

/-! ### Readings -/

/-- Attending to a worker goes on while shutting down, though nothing comes of it. -/
theorem attends_onLateReading {id : Nat} {e : WorkerEntry}
    (he : c.collector.entryOf? id = some e) (hs : e.status ≠ .active) (r : Reading) :
    c.Attends id e r (c.onLateReading id r) := by
  have ha := WorkerEntry.attend_of_ne hs id r
  have hadmits := WorkerEntry.admits?_of_ne hs r
  cases r with
  | message m => exact attends_ignored he hs m
  | _ =>
    refine ⟨fun j => ?_, rfl, fun _ hp => hp, by simp [ha, onLateReading, disconnect],
      by simp [hadmits, onLateReading, disconnect], rfl, rfl, rfl, rfl⟩
    by_cases hj : j = id <;> simp [ha, hj, he, onLateReading, disconnect]

/-- What attending to the worker `id`, the peer `q`, writes. -/
def answers (c : Coordinator) (id q : Nat) (e : WorkerEntry) (r : Reading) : List Written :=
  if id ∈ c.started then (e.attend id r).2.toList.map fun m => c.letter m q else []

theorem peer_of_mem_answers {id q : Nat} {e : WorkerEntry} {r : Reading} {w : Written}
    (h : w ∈ c.answers id q e r) : w.peer = q := by
  rw [answers] at h
  split at h
  · obtain ⟨m, -, rfl⟩ := List.mem_map.mp h
    rfl
  · cases h

theorem Attends.log_eq {id q : Nat} {e : WorkerEntry} {r : Reading} (h : c.Attends id e r d)
    (hq : c.workers[id]? = some q) : d.log = c.log ++ c.answers id q e r := by
  rw [h.log, answers]
  by_cases hid : id ∈ c.started <;> cases (e.attend id r).2 <;> simp [addressee?, hid, hq]

theorem Attends.writtenTo_eq {id q : Nat} {e : WorkerEntry} {r : Reading}
    (h : c.Attends id e r d) (hq : c.workers[id]? = some q) (p : Nat) :
    d.writtenTo p = c.writtenTo p ++ if p = q then c.answers id q e r else [] := by
  rw [writtenTo, h.log_eq hq, List.filter_append, filter_peer fun w => peer_of_mem_answers]
  rfl

/-- **Attending.** A reading from a worker concerns this worker, and all are still served. -/
theorem IsUnderway.attends {id q : Nat} {r : Reading} {inbox : List Reading} {e : WorkerEntry}
    (hb : c.Basics) (h : c.IsUnderway) (hq : c.workers[id]? = some q) (hlt : q < c.peers.length)
    (he : c.collector.entryOf? id = some e) (ha : (c.take q r inbox).Attends id e r d) :
    d.Basics ∧ d.IsUnderway := by
  have hworkers : d.workers = c.workers := (workers_of_rest ha.rest :)
  have hsetup : d.setup = c.setup := (setup_of_rest ha.rest :)
  have hheard : d.heard = c.heard ++ [⟨q, r⟩] := heard_of_rest ha.rest
  have hq' : (c.take q r inbox).workers[id]? = some q := hq
  have hmessages : ((c.take q r inbox).answers id q e r).map (·.message) =
      if id ∈ c.started then (e.attend id r).2.toList else [] := by
    rw [answers, started_take]
    by_cases hid : id ∈ c.started <;> simp [hid, letter, Function.comp_def]
  constructor
  · have hn : ((c.take q r inbox).note ((c.take q r inbox).answers id q e r)).Basics :=
      (hb.take hlt r inbox).note fun w hw =>
        (peer_of_mem_answers hw).symm ▸ List.mem_of_getElem? hq
    exact hn.congr hworkers (ha.log_eq hq') hheard (by simp [ha.peers])
  · have hids : d.collector.ids = c.collector.ids := ha.ids
    have hnodup : c.collector.ids.Nodup := h.ids ▸ List.nodup_range
    refine ⟨?_, ?_, ha.published hnodup h.published, fun j p hp => ?_⟩
    · rw [hworkers, expected, hsetup]
      exact h.full
    · rw [hids, h.ids, hworkers]
    · rw [hworkers] at hp
      obtain ⟨rs, e', ms, hs⟩ := h.served j p hp
      have hfrom : d.heardFrom p = c.heardFrom p ++ if p = q then [r] else [] := by
        rw [← heardFrom_take c q r inbox, heardFrom, heardFrom]
        exact congrArg _ (congrArg _ hheard)
      have hwritten : d.writtenTo p = c.writtenTo p ++
          if p = q then (c.take q r inbox).answers id q e r else [] := ha.writtenTo_eq hq' p
      have hentry := ha.entries j
      have haccepted : d.acceptedFrom j =
          c.acceptedFrom j ++ if j = id then (e.admits? r).toList else [] := by
        rw [acceptedFrom, ha.accepted, accepted_take, List.filter_append, List.map_append]
        by_cases hj : j = id
        · cases e.admits? r <;> simp [hj, acceptedFrom]
        · cases e.admits? r <;> simp [hj, acceptedFrom, Ne.symm hj]
      have hpq := hb.id_inj hp hq
      by_cases hj : j = id
      · subst hj
        obtain rfl : e' = e := Option.some.inj (hs.entry.symm.trans he)
        rw [if_pos rfl] at hentry haccepted
        rw [if_pos (hpq.mpr rfl)] at hfrom hwritten
        refine ⟨_, _, _, hs.extend hsetup ha.started hfrom hwritten hmessages hentry ?_⟩
        rw [haccepted]
        exact hs.dealings.attend r
      · rw [if_neg hj] at hentry haccepted
        rw [if_neg (mt hpq.mp hj), List.append_nil] at hfrom hwritten
        rw [List.append_nil] at haccepted
        exact ⟨rs, e', ms, hs.same hsetup ha.started hfrom hwritten hentry haccepted⟩

/-! ### Interrupts and the deadline -/

/-- Heeding an interrupt writes to the started workers that are expected to report. -/
theorem IsUnderway.heed_eq (hb : c.Basics) (h : c.IsUnderway) :
    c.heed = { c.note ((c.collector.active.filterMap c.addressee?).map
      (c.letter (.stop "interrupted"))) with interrupt := .heeded } := by
  have hnodup : c.collector.ids.Nodup := h.ids ▸ List.nodup_range
  rw [Coordinator.heed, sendAll_eq_note hb.nodup (Collector.nodup_active hnodup)]

/-- What heeding an interrupt writes to one worker. -/
theorem IsUnderway.writtenTo_heed (hb : c.Basics) (h : c.IsUnderway) {id q : Nat} {e : WorkerEntry}
    (hq : c.workers[id]? = some q) (he : c.collector.entryOf? id = some e) :
    c.heed.writtenTo q = c.writtenTo q ++
      if e.status = .active ∧ id ∈ c.started then [c.letter (.stop "interrupted") q] else [] := by
  have hnodup : c.collector.ids.Nodup := h.ids ▸ List.nodup_range
  have hstatus : id ∈ c.collector.active ↔ e.status = .active := by
    rw [Collector.mem_active_iff hnodup, Collector.status_eq_some_iff, he]
    simp
  have hmem : q ∈ c.collector.active.filterMap c.addressee? ↔
      e.status = .active ∧ id ∈ c.started := by
    rw [← hstatus]
    simp only [List.mem_filterMap, addressee?, Option.ite_none_right_eq_some,
      List.contains_iff_mem]
    constructor
    · rintro ⟨j, hj, hstarted, hjq⟩
      obtain rfl := (hb.id_inj hjq hq).mp rfl
      exact ⟨hj, hstarted⟩
    · rintro ⟨hid, hstarted⟩
      exact ⟨id, hid, hstarted, hq⟩
  have hwritten := writtenTo_note c ((c.collector.active.filterMap c.addressee?).map
    (c.letter (.stop "interrupted"))) q
  rw [filter_letters (nodup_addressees hb.nodup (Collector.nodup_active hnodup))] at hwritten
  simp only [hmem] at hwritten
  rw [h.heed_eq hb]
  exact hwritten

/-- Heeding an interrupt asks the workers to stop that are expected to report. -/
theorem IsUnderway.heed (hb : c.Basics) (h : c.IsUnderway) : c.heed.Basics ∧ c.heed.IsUnderway := by
  have heq := h.heed_eq hb
  constructor
  · have hn : (c.note ((c.collector.active.filterMap c.addressee?).map
        (c.letter (.stop "interrupted")))).Basics := by
      refine hb.note fun w hw => ?_
      obtain ⟨q, hq, rfl⟩ := List.mem_map.mp hw
      obtain ⟨id, -, hid⟩ := List.mem_filterMap.mp hq
      simp only [addressee?, Option.ite_none_right_eq_some] at hid
      exact List.mem_of_getElem? hid.2
    rw [heq]
    exact hn.congr rfl rfl rfl (Nat.le_refl _)
  · have hsetup : c.heed.setup = c.setup := by rw [heq]; rfl
    have hworkers : c.heed.workers = c.workers := by rw [heq]; rfl
    have hstarted : c.heed.started = c.started := by rw [heq]; rfl
    have hheard : c.heed.heard = c.heard := by rw [heq]; rfl
    have hcollector : c.heed.collector = c.collector := by rw [heq]; rfl
    have haccepted : c.heed.accepted = c.accepted := by rw [heq]; rfl
    refine ⟨?_, ?_, ?_, fun id q hq => ?_⟩
    · rw [hworkers, expected, hsetup]
      exact h.full
    · rw [hcollector, hworkers]
      exact h.ids
    · rw [hcollector]
      exact h.published
    rw [hworkers] at hq
    obtain ⟨rs, e, ms, hs⟩ := h.served id q hq
    have hfrom : c.heed.heardFrom q = c.heardFrom q := by rw [heardFrom, heardFrom, hheard]
    have hentry : c.heed.collector.entryOf? id = some e := by rw [hcollector, hs.entry]
    have hmerged : c.heed.acceptedFrom id = c.acceptedFrom id := by
      rw [acceptedFrom, acceptedFrom, haccepted]
    have hwritten := h.writtenTo_heed hb hq hs.entry
    by_cases hid : e.status = .active
    · refine ⟨rs ++ [], e, ms ++ [.stop "interrupted"], hs.extend hsetup hstarted
        (by rw [hfrom, List.append_nil]) hwritten ?_ hentry ?_⟩
      · by_cases hst : id ∈ c.started <;> simp [hid, hst, letter]
      · rw [List.append_nil, hmerged]
        exact hs.dealings.interrupt hid
    · rw [if_neg fun h => hid h.1, List.append_nil] at hwritten
      exact ⟨rs, e, ms, hs.same hsetup hstarted hfrom hwritten (hentry.trans hs.entry.symm)
        hmerged⟩

/-- At the deadline all workers that are expected to report are lost. -/
theorem IsUnderway.loseActive (h : c.IsUnderway) : c.loseActive.IsUnderway := by
  have hnodup : c.collector.ids.Nodup := h.ids ▸ List.nodup_range
  refine ⟨h.full, (Collector.ids_foldl_lose _ _).trans h.ids,
    h.published.foldl_lose hnodup _, fun id q hq => ?_⟩
  obtain ⟨rs, e, ms, hs⟩ := h.served id q hq
  have hentry : c.loseActive.collector.entryOf? id = some e.lose := by
    rw [entryOf_loseActive hnodup, hs.entry]
    rfl
  refine ⟨rs ++ [], e.lose, ms ++ [], hs.extend rfl rfl (List.append_nil _).symm
    (List.append_nil _).symm (by simp) hentry ?_⟩
  rw [List.append_nil, List.append_nil]
  exact hs.dealings.expire

/-! ### The end -/

/-- The end of a run that some worker has completed. -/
theorem conclude_of_ne (h : c.collector.numCompleted ≠ 0) : c.conclude =
    { c with files := c.files ++ (c.setup.storage.conclude c.setup.cfg
        (c.collector.finalize (Clock.nanos c.now))).2.toList }.finish
      (c.setup.storage.conclude c.setup.cfg (c.collector.finalize (Clock.nanos c.now))).1 := by
  rw [conclude, if_neg h]

theorem started_conclude (hb : c.Basics) (h : c.IsUnderway) (hs : c.collector.isSettled = true) :
    c.conclude.Basics ∧ c.conclude.Started := by
  by_cases hn : c.collector.numCompleted = 0
  · rw [conclude, if_pos hn]
    exact ⟨hb.congr rfl rfl rfl (by simp [finish]),
      .finished rfl (h.frame _ _ _ _ _ _) hs (.failed hn)⟩
  · rw [conclude_of_ne hn]
    exact ⟨hb.congr rfl rfl rfl (by simp [finish]),
      .finished rfl (h.frame _ _ _ _ _ _) hs (.summed hn rfl)⟩

theorem started_leave {deadline : Nat} (hb : c.Basics) (h : c.IsUnderway)
    (hs : c.collector.isSettled = true) (hp : c.phase = .shuttingDown deadline) :
    c.leave.Basics ∧ c.leave.Started := by
  rw [leave]
  split
  · exact started_conclude hb h hs
  · exact ⟨hb, .shuttingDown hp h hs⟩

theorem started_settle {deadline : Nat} (hb : c.Basics) (h : c.IsUnderway)
    (hp : c.phase = .running deadline) : c.settle.Basics ∧ c.settle.Started := by
  by_cases hs : c.collector.isSettled = true
  · rw [settle, if_pos hs]
    exact started_leave (hb.congr rfl rfl rfl (Nat.le_refl _)) (h.frame _ _ _ _ _ _) hs rfl
  · rw [settle, if_neg hs]
    exact ⟨hb, .running hp h⟩

/-! ### Steps from the start on -/

/-- Whoever is no worker has no entry. -/
theorem IsUnderway.entryOf_eq_none (h : c.IsUnderway) {id : Nat} (hid : c.workers[id]? = none) :
    c.collector.entryOf? id = none := by
  rw [← Option.not_isSome_iff_eq_none, Collector.entryOf_isSome_iff, h.ids, List.mem_range]
  simpa using hid

/-- Every worker that is served has an entry. -/
theorem IsUnderway.exists_entry (h : c.IsUnderway) {id q : Nat} (hq : c.workers[id]? = some q) :
    ∃ e, c.collector.entryOf? id = some e := by
  obtain ⟨_, e, _, hs⟩ := h.served id q hq
  exact ⟨e, hs.entry⟩

/-- Reading from the start on. -/
theorem Started.read (hb : c.Basics) (h : c.Started) {q : Nat} {r : Reading}
    {inbox : List Reading} (hlisten : c.listensTo q = true) (hinbox : c.inbox q = r :: inbox) :
    ((c.take q r inbox).onRead q r).Basics ∧ ((c.take q r inbox).onRead q r).Started := by
  have hlt := lt_of_inbox hinbox
  have hid : ∃ id, c.idOf? q = some id := by
    cases hid : c.idOf? q with
    | some id => exact ⟨id, rfl⟩
    | none =>
      cases h with
      | _ hp => simp [listensTo, hp, hid] at hlisten
  have htake : (c.take q r inbox).idOf? q = c.idOf? q := rfl
  cases h with
  | running hp h =>
    obtain ⟨id, hid⟩ := hid
    have hq := (idOf?_eq_some_iff hb.nodup).mp hid
    obtain ⟨e, he⟩ := h.exists_entry hq
    have ha : (c.take q r inbox).Attends id e r ((c.take q r inbox).onReading id r) :=
      attends_onReading (c := c.take q r inbox) he r
    obtain ⟨hb', hu'⟩ := h.attends hb hq hlt he ha
    rw [onRead, phase_take, hp]
    simp only [htake, hid]
    exact started_settle hb' hu' ((phase_of_rest ha.rest).trans hp)
  | shuttingDown hp h hs =>
    obtain ⟨id, hid⟩ := hid
    have hq := (idOf?_eq_some_iff hb.nodup).mp hid
    obtain ⟨e, he⟩ := h.exists_entry hq
    have hnodup : c.collector.ids.Nodup := h.ids ▸ List.nodup_range
    have hne := (Collector.isSettled_iff_entry hnodup).mp hs id e he
    have ha : (c.take q r inbox).Attends id e r ((c.take q r inbox).onLateReading id r) :=
      attends_onLateReading (c := c.take q r inbox) he hne r
    obtain ⟨hb', hu'⟩ := h.attends hb hq hlt he ha
    rw [onRead, phase_take, hp]
    simp only [htake, hid]
    refine started_leave hb' hu' ?_ ((phase_of_rest ha.rest).trans hp)
    cases r <;> exact hs
  | finished hp h hs ho => simp [listensTo, hp] at hlisten

theorem Started.expire (hb : c.Basics) (h : c.Started) : c.expire.Basics ∧ c.expire.Started := by
  cases h with
  | running hp h =>
    rw [Coordinator.expire, hp]
    exact started_settle (hb.congr rfl rfl rfl (Nat.le_refl _)) h.loseActive hp
  | shuttingDown hp h hs =>
    rw [Coordinator.expire, hp]
    exact started_conclude hb h hs
  | finished hp h hs ho =>
    rw [Coordinator.expire, hp]
    exact ⟨hb, .finished hp h hs ho⟩

/-- An interrupt is heeded. -/
theorem Started.heed {deadline : Nat} (hb : c.Basics) (h : c.Started)
    (hp : c.phase = .running deadline) : c.heed.Basics ∧ c.heed.Started := by
  have hu := h.isUnderway
  obtain ⟨hb', hu'⟩ := hu.heed hb
  have hphase : c.heed.phase = c.phase := by
    rw [hu.heed_eq hb]
    rfl
  exact ⟨hb', .running (hphase.trans hp) hu'⟩

/-- No more peers connect. -/
theorem Started.not_accepting (h : c.Started) (deadline : Nat) :
    c.phase ≠ .accepting deadline := by
  intro hp
  cases h with
  | _ hp' =>
    rw [hp] at hp'
    cases hp'

/-- **From the start on.** Every event keeps the invariant. -/
theorem Started.step (hb : c.Basics) (h : c.Started) (e : CoordinatorEvent) :
    (c.step e).Basics ∧ (c.step e).Started := by
  have hr := c.reacts_step e
  generalize c.step e = d at hr ⊢
  cases hr with
  | refused | late | again => exact ⟨hb, h⟩
  | welcome hp => exact absurd hp (h.not_accepting _)
  | arrive q r => exact ⟨hb.modifyPeer q _, h.frame _ _ _⟩
  | sever q writes => exact ⟨hb.modifyPeer q _, h.frame _ _ _⟩
  | read hlisten hin => exact h.read hb hlisten hin
  | interrupt | advance => exact ⟨hb.congr rfl rfl rfl (Nat.le_refl _), h.frame _ _ _⟩
  | heed hp => exact h.heed hb hp
  | expire => exact h.expire hb

/-! ### Runs -/

/-- **The invariant** of a coordinator. -/
structure Inv (c : Coordinator) : Prop where
  basics : c.Basics
  stage : c.Preparing ∨ c.Started

theorem inv_start (setup : CoordinatorSetup) (now : Nat) : (start setup now).Inv where
  basics := by refine ⟨List.nodup_nil, ?_, ?_, ?_, ?_⟩ <;> simp [start]
  stage := by
    refine .inl (.accepting rfl ⟨⟨⟨rfl, rfl, rfl⟩, ?_⟩, ?_, ?_⟩)
    · simp [start]
    · have : 0 < max 1 (start setup now).expected := by omega
      exact this
    · intro q hq
      cases hq

/-- Every event keeps the invariant. -/
theorem Inv.step (h : c.Inv) (e : CoordinatorEvent) : (c.step e).Inv := by
  obtain ⟨hb, hp | hs⟩ := h
  · obtain ⟨hb', hp' | ⟨-, hs'⟩⟩ := hp.step hb e
    · exact ⟨hb', .inl hp'⟩
    · exact ⟨hb', .inr hs'⟩
  · obtain ⟨hb', hs'⟩ := hs.step hb e
    exact ⟨hb', .inr hs'⟩

/-- Every run keeps the invariant. -/
theorem Inv.run (h : c.Inv) (es : List CoordinatorEvent) : (c.run es).Inv := by
  induction es generalizing c with
  | nil => exact h
  | cons e es ih => exact ih (h.step e)

theorem Started.run (hb : c.Basics) (h : c.Started) (es : List CoordinatorEvent) :
    (c.run es).Started := by
  induction es generalizing c with
  | nil => exact h
  | cons e es ih =>
    obtain ⟨hb', hs'⟩ := h.step hb e
    exact ih hb' hs'

/-! ### A run of two workers -/

/-- A coordinator of two workers. -/
def twoWorkers : CoordinatorSetup where
  cfg := { endpoints := ["localhost"] }
  settings := ⟨.v4 [127, 0, 0, 1] 0, 2, 60, 10, none⟩
  storage := Storage.unlimited

/-- Two peers connect, say hello and accept the configuration. -/
def opening : List CoordinatorEvent :=
  [.connect, .connect, .arrive 0 (.message (.hello none)), .arrive 1 (.message (.hello none)),
   .read 0, .read 1, .arrive 1 (.message .ready), .arrive 0 (.message .ready), .read 0, .read 1]

end TxLoad.Coordinator
