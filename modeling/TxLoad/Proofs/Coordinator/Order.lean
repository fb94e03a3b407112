import TxLoad.Proofs.Coordinator.Underway

namespace TxLoad

/-!
# The order in which workers are read

While a coordinator collects reports, each event concerns one worker or none. What becomes of a
worker therefore depends on its own events alone, in whatever way they are mixed with those of
others, and also if the last report that was awaited is among them.

* `Share` is all that an event of a worker depends on, `Share.step` what the event does to it.
* `handles_step`: an event of a worker changes the share of this worker and of no other.
* `share_run`: in a run, a share undergoes the worker's own events.
* `reads_commute`: status, totals, connections and writes do not depend on the order.
-/

/-- The peer that an event concerns, if there is one. -/
def CoordinatorEvent.peer? : CoordinatorEvent → Option Nat
  | .arrive peer _ => some peer
  | .sever peer _ => some peer
  | .read peer => some peer
  | _ => none

/-- Whether an event concerns at most one worker: interrupts that are heeded and deadlines concern
    all. -/
def CoordinatorEvent.isSingle : CoordinatorEvent → Bool
  | .heed => false
  | .expire => false
  | _ => true

/-- What a coordinator has to do with one worker. -/
structure Share where
  peer : Option Peer
  entry : Option WorkerEntry
  isConnected : Bool
  written : List Written

namespace Share

/-- What becomes of a share when the given reading is taken from the peer `q`, the worker `id`. -/
def attend (id q : Nat) (isStarted : Bool) (s : Share) (p : Peer) (e : WorkerEntry) (r : Reading)
    (inbox : List Reading) : Share where
  peer := some { p with inbox }
  entry := some (e.attend id r).1
  isConnected := r.isMessage
  written := s.written ++
    if isStarted then
      (e.attend id r).2.toList.map (⟨q, ·, p.limit.all (s.written.length < ·)⟩)
    else []

/-- What becomes of a share when the worker is read from. -/
def read (id q : Nat) (isStarted : Bool) (s : Share) : Share :=
  match s.isConnected, s.peer, s.entry with
  | true, some p, some e =>
    match p.inbox with
    | r :: inbox => s.attend id q isStarted p e r inbox
    | [] => s
  | _, _, _ => s

theorem read_of_left {s : Share} (h : s.isConnected = false) (id q : Nat) (b : Bool) :
    s.read id q b = s := by
  rw [read, h]

theorem read_of_empty {s : Share} (h : ∀ p, s.peer = some p → p.inbox = []) (id q : Nat)
    (b : Bool) : s.read id q b = s := by
  unfold read
  split
  · rename_i p e _ hp _
    rw [h p hp]
  · rfl

/-- What becomes of the share of the worker `id`, the peer `q`, at an event of this worker. -/
def step (id q : Nat) (isStarted : Bool) (s : Share) : CoordinatorEvent → Share
  | .arrive _ r => { s with peer := s.peer.map fun p => { p with inbox := p.inbox ++ [r] } }
  | .sever _ writes =>
    { s with
      peer := s.peer.map fun p => { p with limit := some (p.limit.elim writes (min writes)) } }
  | .read _ => s.read id q isStarted
  | _ => s

end Share

namespace Coordinator

variable {c d : Coordinator}

/-- The share of the worker `id`, the peer `q`. -/
def share (c : Coordinator) (id q : Nat) : Share :=
  ⟨c.lines[q]?, c.collector.entryOf? id, c.connected.contains id, c.writtenTo q⟩

/-! ### Ends -/

/-- How a coordinator may end: in another phase, with another file, and with no links kept. -/
def EndsAs (c d : Coordinator) : Prop :=
  d.lines = c.lines ∧ ∃ phase peers files, d = { c with phase, peers, files }

theorem endsAs_conclude (c : Coordinator) : c.EndsAs c.conclude := by
  by_cases h : c.collector.numCompleted = 0
  · rw [conclude, if_pos h]
    exact ⟨lines_finish _ _, _, _, _, rfl⟩
  · rw [conclude_of_ne h]
    exact ⟨lines_finish _ _, _, _, _, rfl⟩

theorem endsAs_leave (c : Coordinator) : c.EndsAs c.leave := by
  rw [leave]
  split
  · exact endsAs_conclude c
  · exact ⟨rfl, c.phase, c.peers, c.files, rfl⟩

theorem endsAs_settle (c : Coordinator) : c.EndsAs c.settle := by
  rw [settle]
  split
  · obtain ⟨hlines, phase, peers, files, h⟩ :=
      endsAs_leave { c with phase := .shuttingDown (c.now + shutdownMs c.setup) }
    exact ⟨hlines, phase, peers, files, h⟩
  · exact ⟨rfl, c.phase, c.peers, c.files, rfl⟩

theorem EndsAs.share_eq (h : c.EndsAs d) (id q : Nat) : d.share id q = c.share id q := by
  obtain ⟨hlines, _, _, _, rfl⟩ := h
  rw [share, hlines]
  rfl

theorem EndsAs.workers_eq (h : c.EndsAs d) : d.workers = c.workers := by
  obtain ⟨-, _, _, _, rfl⟩ := h
  rfl

theorem EndsAs.started_eq (h : c.EndsAs d) : d.started = c.started := by
  obtain ⟨-, _, _, _, rfl⟩ := h
  rfl

theorem EndsAs.connected_eq (h : c.EndsAs d) : d.connected = c.connected := by
  obtain ⟨-, _, _, _, rfl⟩ := h
  rfl

/-! ### Single events -/

/-- Changing what is known of a peer, but not whether it is kept. -/
theorem lines_modifyPeer (c : Coordinator) (q : Nat) {f : Peer → Peer}
    (hf : ∀ p : Peer, { f p with isOpen := true } = f { p with isOpen := true }) (p : Nat) :
    (c.modifyPeer q f).lines[p]? = if p = q then (c.lines[p]?).map f else c.lines[p]? := by
  simp only [lines, modifyPeer, List.getElem?_map, List.getElem?_modify]
  by_cases h : p = q
  · cases c.peers[p]? <;> simp [h, hf]
  · simp [h, Ne.symm h]

section

variable {id q : Nat} {e : WorkerEntry} {r : Reading} {inbox : List Reading}

theorem Attends.lines_eq (h : (c.take q r inbox).Attends id e r d) (p : Nat) :
    d.lines[p]? =
      if p = q then (c.lines[p]?).map fun p => { p with inbox } else c.lines[p]? := by
  have hlines : d.lines = (c.take q r inbox).lines := by rw [lines, h.peers, lines]
  rw [hlines]
  exact c.lines_modifyPeer q (fun _ => rfl) p

/-- Attending to a worker changes its share as reading does. -/
theorem Attends.share_read (hq : c.workers[id]? = some q)
    (he : c.collector.entryOf? id = some e) (hin : c.inbox q = r :: inbox)
    (hid : c.connected.contains id = true) (h : (c.take q r inbox).Attends id e r d) :
    d.share id q = (c.share id q).read id q (c.started.contains id) := by
  obtain ⟨pr, hpr, hprin⟩ : ∃ pr, c.lines[q]? = some pr ∧ pr.inbox = r :: inbox := by
    rw [inbox_eq_lines] at hin
    cases hpr : c.lines[q]? with
    | none => simp [hpr] at hin
    | some pr => exact ⟨pr, rfl, by simpa [hpr] using hin⟩
  have hread : (c.share id q).read id q (c.started.contains id) =
      (c.share id q).attend id q (c.started.contains id) pr e r inbox := by
    simp only [Share.read, share, hid, hpr, he, hprin]
  have hconnected : d.connected = if r.isMessage then c.connected
      else c.connected.filter (· != id) := h.connected
  have hcan : (c.take q r inbox).canWrite q = pr.limit.all ((c.writtenTo q).length < ·) := by
    rw [canWrite_take, canWrite_eq_lines, hpr]
    rfl
  rw [hread, share, h.lines_eq, h.writtenTo_eq hq, h.entries, hconnected]
  simp only [Share.attend, Share.mk.injEq, if_true]
  refine ⟨by simp [hpr], trivial, ?_, ?_⟩
  · cases r.isMessage
    · simp
    · simpa using hid
  · refine congrArg (c.writtenTo q ++ ·) ?_
    by_cases hst : id ∈ c.started <;> simp [answers, hst, letter, hcan, share]

/-- Attending to a worker changes the share of no other. -/
theorem Attends.share_other (hq : c.workers[id]? = some q)
    (h : (c.take q r inbox).Attends id e r d) {j p : Nat} (hj : j ≠ id) (hp : p ≠ q) :
    d.share j p = c.share j p := by
  have hconnected : d.connected = if r.isMessage then c.connected
      else c.connected.filter (· != id) := h.connected
  rw [share, h.lines_eq, h.writtenTo_eq hq, h.entries, hconnected, if_neg hp, if_neg hp, if_neg hj,
    List.append_nil, share]
  simp only [Share.mk.injEq]
  refine ⟨trivial, rfl, ?_, rfl⟩
  cases r.isMessage
  · simp [hj]
  · rfl

end

/-- A coordinator that collects reports. It finishes only when all workers have left. -/
structure IsCollecting (c : Coordinator) : Prop where
  basics : c.Basics
  started : c.Started
  left : ∀ result, c.phase = .finished result → c.connected = []

/-- It listens to the workers that have not left. -/
theorem IsCollecting.listensTo_eq (h : c.IsCollecting) {id q : Nat}
    (hq : c.workers[id]? = some q) : c.listensTo q = c.connected.contains id := by
  have hid : c.idOf? q = some id := (idOf?_eq_some_iff h.basics.nodup).mpr hq
  cases h.started with
  | running hp => simp [listensTo, hp, hid]
  | shuttingDown hp => simp [listensTo, hp, hid]
  | finished hp => simp [listensTo, hp, h.left _ hp]

/-- It listens to nobody else. -/
theorem IsCollecting.not_listensTo (h : c.IsCollecting) {q : Nat} (hq : q ∉ c.workers) :
    c.listensTo q = false := by
  have hid : c.idOf? q = none := idOf?_eq_none_iff.mpr hq
  cases h.started with
  | _ hp => simp [listensTo, hp, hid]

/-- A coordinator that leaves finishes only when all workers have left. -/
theorem connected_of_leave {deadline : Nat} (hp : c.phase = .shuttingDown deadline) :
    ∀ result, c.leave.phase = .finished result → c.leave.connected = [] := by
  intro result hf
  rw [leave] at hf ⊢
  split at hf
  · rename_i hc
    rw [if_pos hc, (endsAs_conclude c).connected_eq]
    simpa using hc
  · rw [hp] at hf
    cases hf

theorem connected_of_settle {deadline : Nat} (hp : c.phase = .running deadline) :
    ∀ result, c.settle.phase = .finished result → c.settle.connected = [] := by
  intro result hf
  rw [settle] at hf ⊢
  split at hf
  · rename_i hs
    rw [if_pos hs]
    exact connected_of_leave rfl result hf
  · rw [hp] at hf
    cases hf

/-- Reading from a worker that has not left attends to it, whether or not all reports are in. -/
theorem IsCollecting.read_cases (h : c.IsCollecting) {id q : Nat} (hq : c.workers[id]? = some q)
    (hid : c.connected.contains id = true) (r : Reading) (inbox : List Reading) :
    ∃ e d, c.collector.entryOf? id = some e ∧ (c.take q r inbox).Attends id e r d ∧
      d.EndsAs ((c.take q r inbox).onRead q r) ∧
      ∀ result, ((c.take q r inbox).onRead q r).phase = .finished result →
        ((c.take q r inbox).onRead q r).connected = [] := by
  have hidOf : (c.take q r inbox).idOf? q = some id :=
    (idOf?_eq_some_iff h.basics.nodup).mpr hq
  obtain ⟨e, he⟩ := h.started.isUnderway.exists_entry hq
  cases h.started with
  | running hp hu =>
    have ha := attends_onReading (c := c.take q r inbox) he r
    rw [onRead, phase_take, hp]
    simp only [hidOf]
    exact ⟨e, _, he, ha, endsAs_settle _, connected_of_settle ((phase_of_rest ha.rest).trans hp)⟩
  | shuttingDown hp hu hs =>
    have hnodup : c.collector.ids.Nodup := hu.ids ▸ List.nodup_range
    have hne := (Collector.isSettled_iff_entry hnodup).mp hs id e he
    have ha := attends_onLateReading (c := c.take q r inbox) he hne r
    rw [onRead, phase_take, hp]
    simp only [hidOf]
    exact ⟨e, _, he, ha, endsAs_leave _, connected_of_leave ((phase_of_rest ha.rest).trans hp)⟩
  | finished hp => simp [h.left _ hp] at hid

/-- What a single event does to a coordinator that collects reports. -/
structure Handles (c : Coordinator) (e : CoordinatorEvent) (d : Coordinator) : Prop where
  collecting : d.IsCollecting
  workers : d.workers = c.workers
  started : d.started = c.started
  shares : ∀ id q, c.workers[id]? = some q → d.share id q =
    if e.peer? = some q then (c.share id q).step id q (c.started.contains id) e else c.share id q
  others : ∀ id, c.workers[id]? = none → (id ∈ d.connected ↔ id ∈ c.connected)

/-- An event that changes nothing but a peer, which is kept or not as before. -/
theorem handles_modifyPeer (h : c.IsCollecting) {e : CoordinatorEvent} {q : Nat} {f : Peer → Peer}
    (he : e.peer? = some q)
    (hf : ∀ p : Peer, { f p with isOpen := true } = f { p with isOpen := true })
    (hstep : ∀ id p b (s : Share), s.step id p b e = { s with peer := s.peer.map f }) :
    c.Handles e (c.modifyPeer q f) where
  collecting := ⟨h.basics.modifyPeer q f, h.started.frame _ _ _, h.left⟩
  workers := rfl
  started := rfl
  shares id p hp := by
    have hline := lines_modifyPeer c q hf p
    by_cases hpq : p = q
    · rw [if_pos hpq] at hline
      rw [he, if_pos (by rw [hpq]), hstep, share, hline]
      rfl
    · rw [if_neg hpq] at hline
      rw [he, if_neg (by simpa using Ne.symm hpq), share, hline]
      rfl
  others _ _ := Iff.rfl

/-- An event that concerns no peer, and changes only the clock or notes an interrupt. -/
theorem handles_frame (h : c.IsCollecting) {e : CoordinatorEvent} (he : e.peer? = none) (now : Nat)
    (interrupt : Interrupt) : c.Handles e { c with now, interrupt } where
  collecting := ⟨h.basics.congr rfl rfl rfl (Nat.le_refl _), h.started.frame _ _ _, h.left⟩
  workers := rfl
  started := rfl
  shares id q hq := by
    rw [he, if_neg (by simp)]
    rfl
  others _ _ := Iff.rfl

/-- Reading from a worker that has not left. -/
theorem handles_onRead (h : c.IsCollecting) {q : Nat} {r : Reading} {inbox : List Reading}
    (hlisten : c.listensTo q = true) (hin : c.inbox q = r :: inbox) :
    c.Handles (.read q) ((c.take q r inbox).onRead q r) := by
  obtain ⟨hb', hs'⟩ := h.started.read h.basics hlisten hin
  have hmem : q ∈ c.workers := by
    by_contra hq
    rw [h.not_listensTo hq] at hlisten
    cases hlisten
  obtain ⟨id, hq⟩ := List.mem_iff_getElem?.mp hmem
  have hid : c.connected.contains id = true := (h.listensTo_eq hq).symm.trans hlisten
  obtain ⟨e, d, he, ha, hends, hleft⟩ := h.read_cases hq hid r inbox
  have hworkers : d.workers = c.workers := (workers_of_rest ha.rest :)
  refine ⟨⟨hb', hs', hleft⟩, hends.workers_eq.trans hworkers, hends.started_eq.trans ha.started,
    fun j p hp => ?_, fun j hj => ?_⟩
  · rw [hends.share_eq]
    have hiff := h.basics.id_inj hp hq
    by_cases hpq : p = q
    · obtain rfl : j = id := hiff.mp hpq
      subst hpq
      rw [CoordinatorEvent.peer?, if_pos rfl, Share.step]
      exact ha.share_read hq he hin hid
    · rw [CoordinatorEvent.peer?, if_neg (by simpa using Ne.symm hpq)]
      exact ha.share_other hq (mt hiff.mpr hpq) hpq
  · have hne : j ≠ id := by
      rintro rfl
      rw [hj] at hq
      cases hq
    rw [hends.connected_eq, ha.connected]
    cases r.isMessage
    · simp [hne, take, modifyPeer]
    · rfl

/-- Reading from a worker that has left, or from which nothing has arrived. -/
theorem handles_refused (h : c.IsCollecting) {q : Nat} (hcan : c.canHappen (.read q) = false) :
    c.Handles (.read q) c := by
  refine ⟨h, rfl, rfl, fun id p hp => ?_, fun _ _ => Iff.rfl⟩
  by_cases hpq : p = q
  · subst hpq
    have hread : (c.share id p).read id p (c.started.contains id) = c.share id p := by
      simp only [canHappen, h.listensTo_eq hp, inbox_eq_lines] at hcan
      cases hid : c.connected.contains id
      · exact Share.read_of_left hid ..
      · refine Share.read_of_empty (fun pr hpr => ?_) ..
        have hpr : c.lines[p]? = some pr := hpr
        rw [hid, hpr] at hcan
        simpa using hcan
    rw [CoordinatorEvent.peer?, if_pos rfl, Share.step, hread]
  · rw [CoordinatorEvent.peer?, if_neg (by simpa using Ne.symm hpq)]

/-- **Locality.** An event of a worker changes the share of this worker and of no other. -/
theorem handles_step (h : c.IsCollecting) {e : CoordinatorEvent} (he : e.isSingle = true) :
    c.Handles e (c.step e) := by
  have hr := c.reacts_step e
  generalize c.step e = d at hr ⊢
  cases hr with
  | refused hcan =>
    cases e with
    | read q => exact handles_refused h hcan
    | heed => cases he
    | expire => cases he
    | _ => cases hcan
  | late => exact handles_frame h rfl c.now c.interrupt
  | again => exact handles_frame h rfl c.now c.interrupt
  | welcome hp => exact absurd hp (h.started.not_accepting _)
  | arrive q r => exact handles_modifyPeer h rfl (fun _ => rfl) fun _ _ _ _ => rfl
  | sever q writes => exact handles_modifyPeer h rfl (fun _ => rfl) fun _ _ _ _ => rfl
  | read hlisten hin => exact handles_onRead h hlisten hin
  | interrupt => exact handles_frame h rfl c.now .requested
  | advance => exact handles_frame h rfl _ c.interrupt
  | heed => cases he
  | expire => cases he

/-! ### Runs -/

/-- What a worker's events, without those of others, do to its share. -/
def shareAfter (c : Coordinator) (id q : Nat) (es : List CoordinatorEvent) : Share :=
  (es.filter (·.peer? == some q)).foldl (Share.step id q (c.started.contains id)) (c.share id q)

/-- In a run every share undergoes the events of its own worker. -/
theorem share_run (h : c.IsCollecting) {es : List CoordinatorEvent}
    (hes : ∀ e ∈ es, e.isSingle = true) :
    (c.run es).IsCollecting ∧ (c.run es).workers = c.workers ∧
      (∀ id q, c.workers[id]? = some q → (c.run es).share id q = c.shareAfter id q es) ∧
      ∀ id, c.workers[id]? = none → (id ∈ (c.run es).connected ↔ id ∈ c.connected) := by
  induction es generalizing c with
  | nil => exact ⟨h, rfl, fun _ _ _ => rfl, fun _ _ => Iff.rfl⟩
  | cons e es ih =>
    have hd := handles_step h (hes e (by simp))
    obtain ⟨hcollecting, hworkers, hshares, hothers⟩ :=
      ih hd.collecting fun e he => hes e (by simp [he])
    rw [hd.workers] at hworkers hshares hothers
    have hrun : c.run (e :: es) = (c.step e).run es := rfl
    rw [hrun]
    refine ⟨hcollecting, hworkers, fun id q hq => ?_, fun id hid =>
      (hothers id hid).trans (hd.others id hid)⟩
    rw [hshares id q hq, shareAfter, shareAfter, hd.started, hd.shares id q hq, List.filter_cons]
    by_cases he : e.peer? = some q <;> simp [he]

/-- **Order.** What is read from the workers of a running coordinator may come in any order that
    keeps each worker's own: as long as neither a deadline nor an interrupt takes effect, every
    worker comes to stand where it does in the other order, the totals and what is shown of them
    are the same, the same workers are still connected, and every worker has been written the
    same. -/
theorem reads_commute {setup : CoordinatorSetup} {now deadline : Nat}
    {es es₁ es₂ : List CoordinatorEvent}
    (hrunning : ((start setup now).run es).phase = .running deadline)
    (h₁ : ∀ e ∈ es₁, e.isSingle = true) (h₂ : ∀ e ∈ es₂, e.isSingle = true)
    (horder : ∀ q, es₁.filter (·.peer? == some q) = es₂.filter (·.peer? == some q)) :
    let d₁ := ((start setup now).run es).run es₁
    let d₂ := ((start setup now).run es).run es₂
    (∀ id, d₁.collector.status id = d₂.collector.status id) ∧
      d₁.collector.totals = d₂.collector.totals ∧
      d₁.collector.live = d₂.collector.live ∧
      (∀ id, id ∈ d₁.connected ↔ id ∈ d₂.connected) ∧
      d₁.workers = d₂.workers ∧ ∀ q ∈ d₁.workers, d₁.writtenTo q = d₂.writtenTo q := by
  intro d₁ d₂
  have hc : ((start setup now).run es).IsCollecting := by
    obtain ⟨hb, hp | hs⟩ := (inv_start setup now).run es
    · cases hp with
      | _ hp => rw [hrunning] at hp; cases hp
    · exact ⟨hb, hs, fun _ h => by rw [hrunning] at h; cases h⟩
  obtain ⟨hc₁, hw₁, hs₁, ho₁⟩ := share_run hc h₁
  obtain ⟨hc₂, hw₂, hs₂, ho₂⟩ := share_run hc h₂
  have hworkers : d₁.workers = d₂.workers := hw₁.trans hw₂.symm
  have hshare : ∀ id q, d₁.workers[id]? = some q → d₁.share id q = d₂.share id q := by
    intro id q hq
    rw [hw₁] at hq
    rw [hs₁ id q hq, hs₂ id q hq, shareAfter, shareAfter, horder q]
  have hu₁ : d₁.IsUnderway := hc₁.started.isUnderway
  have hu₂ : d₂.IsUnderway := hc₂.started.isUnderway
  have hids : d₁.collector.ids = d₂.collector.ids := by rw [hu₁.ids, hu₂.ids, hworkers]
  have hentries : ∀ id, d₁.collector.entryOf? id = d₂.collector.entryOf? id := by
    intro id
    cases hq : d₁.workers[id]? with
    | some q => exact congrArg Share.entry (hshare id q hq)
    | none => rw [hu₁.entryOf_eq_none hq, hu₂.entryOf_eq_none (hworkers ▸ hq)]
  have hcollectors : d₁.collector.workers = d₂.collector.workers :=
    Collector.workers_ext (hu₁.ids ▸ List.nodup_range) hids hentries
  have htotals : d₁.collector.totals = d₂.collector.totals :=
    Collector.totals_congr (by rw [hcollectors])
  refine ⟨fun id => by rw [Collector.status, hentries, Collector.status], htotals,
    hu₁.published.trans (htotals.trans hu₂.published.symm), fun id => ?_, hworkers,
    fun q hq => ?_⟩
  · cases hq : ((start setup now).run es).workers[id]? with
    | none => exact (ho₁ id hq).trans (ho₂ id hq).symm
    | some q =>
      have hq : d₁.workers[id]? = some q := hw₁ ▸ hq
      have h : d₁.connected.contains id = d₂.connected.contains id :=
        congrArg Share.isConnected (hshare id q hq)
      rw [← List.contains_iff_mem, h, List.contains_iff_mem]
  · obtain ⟨id, hid⟩ := List.mem_iff_getElem?.mp hq
    exact congrArg Share.written (hshare id q hid)

/-- The last report of one worker and a violation by the other, in either order: whichever comes
    second settles the collector. -/
theorem reads_commute_twoWorkers :
    let last : Reading := .message (.statsReport ⟨3, 300, 0, true⟩)
    let wrong : Reading := .message .ready
    let c := (start twoWorkers 0).run opening
    let d₁ := c.run [.arrive 0 last, .arrive 1 wrong, .read 0, .read 1]
    let d₂ := c.run [.arrive 1 wrong, .read 1, .arrive 0 last, .read 0]
    (∀ id, d₁.collector.status id = d₂.collector.status id) ∧
      d₁.collector.totals = d₂.collector.totals ∧
      d₁.collector.live = d₂.collector.live ∧
      (∀ id, id ∈ d₁.connected ↔ id ∈ d₂.connected) ∧
      d₁.workers = d₂.workers ∧ ∀ q ∈ d₁.workers, d₁.writtenTo q = d₂.writtenTo q := by
  refine reads_commute (rfl : ((start twoWorkers 0).run opening).phase = .running 90000)
    (by decide) (by decide) fun q => ?_
  match q with
  | 0 => rfl
  | 1 => rfl
  | q + 2 => simp [CoordinatorEvent.peer?]

end Coordinator

end TxLoad
