import TxLoad.Proofs.Coordinator.Dealings

namespace TxLoad.Coordinator

/-!
# What holds of a coordinator at all times

The invariant says for every worker what has been written to it and read from it so far.

* `Basics` holds in all phases: different workers are different peers, and nobody else has been
  written to with success.
* `Preparing` holds before the start: every worker was greeted (`IsAccepting`) or also sent the
  configuration (`IsConfiguring`), or all were told to abort (`IsCalledOff`).
* `Started` holds from the start on: `Serves` relates what was written to a worker and read from it
  to its entry.
-/

/-! ### Readings -/

/-- The reports of a worker that were merged, in order. -/
def acceptedFrom (c : Coordinator) (id : Nat) : List Report :=
  (c.accepted.filter (·.1 == id)).map (·.2)

theorem lastReport_eq (c : Coordinator) (id : Nat) :
    c.lastReport id = (c.acceptedFrom id).getLast?.getD {} := by
  simp [lastReport, acceptedFrom]

section

variable (c : Coordinator) (q : Nat) (r : Reading) (inbox : List Reading)

@[simp] theorem setup_take : (c.take q r inbox).setup = c.setup := rfl
@[simp] theorem phase_take : (c.take q r inbox).phase = c.phase := rfl
@[simp] theorem workers_take : (c.take q r inbox).workers = c.workers := rfl
@[simp] theorem started_take : (c.take q r inbox).started = c.started := rfl
@[simp] theorem collector_take : (c.take q r inbox).collector = c.collector := rfl
@[simp] theorem accepted_take : (c.take q r inbox).accepted = c.accepted := rfl
@[simp] theorem log_take : (c.take q r inbox).log = c.log := rfl
@[simp] theorem heard_take : (c.take q r inbox).heard = c.heard ++ [⟨q, r⟩] := rfl
@[simp] theorem length_peers_take : (c.take q r inbox).peers.length = c.peers.length := by
  simp [take, modifyPeer]

@[simp] theorem heardFrom_take (p : Nat) :
    (c.take q r inbox).heardFrom p = c.heardFrom p ++ if p = q then [r] else [] := by
  by_cases h : p = q
  · simp [heardFrom, h]
  · simp [heardFrom, h, Ne.symm h]

/-- Taking a reading changes nothing for writing. -/
@[simp] theorem canWrite_take (p : Nat) : (c.take q r inbox).canWrite p = c.canWrite p := by
  simp only [canWrite, take, modifyPeer, List.getElem?_modify]
  by_cases h : q = p
  · simp only [h, if_true]
    cases c.peers[p]? <;> rfl
  · simp only [h, if_false]
    cases c.peers[p]? <;> rfl

@[simp] theorem isKept_take (p : Nat) : (c.take q r inbox).isKept p = c.isKept p := by
  simp only [isKept, take, modifyPeer, List.getElem?_modify]
  by_cases h : q = p <;> cases c.peers[p]? <;> simp [h]

end

/-- A peer from which something has arrived has connected. -/
theorem lt_of_inbox {c : Coordinator} {q : Nat} {r : Reading} {rest : List Reading}
    (h : c.inbox q = r :: rest) : q < c.peers.length := by
  by_contra hq
  rw [inbox, List.getElem?_eq_none (by omega)] at h
  cases h

/-- The id of a worker is its place among the workers. -/
theorem idOf?_eq_some_iff {c : Coordinator} (hc : c.workers.Nodup) {q id : Nat} :
    c.idOf? q = some id ↔ c.workers[id]? = some q := by
  rw [idOf?, List.idxOf?_eq_some_iff]
  constructor
  · rintro ⟨h, hq, -⟩
    exact List.getElem?_eq_some_iff.mpr ⟨h, hq⟩
  · intro h
    obtain ⟨hlt, hq⟩ := List.getElem?_eq_some_iff.mp h
    refine ⟨hlt, hq, fun j hj hjq => ?_⟩
    have : j = id := (hc.getElem_inj_iff).mp (hjq.trans hq.symm)
    omega

theorem idOf?_eq_none_iff {c : Coordinator} {q : Nat} : c.idOf? q = none ↔ q ∉ c.workers :=
  List.idxOf?_eq_none_iff

/-! ### In all phases -/

/-- The greeting of the worker `id`, which is the peer `q`. -/
def greeting (id q : Nat) : Written := ⟨q, .hello (some (UInt64.ofNat id)), true⟩

/-- What holds in all phases. -/
structure Basics (c : Coordinator) : Prop where
  nodup : c.workers.Nodup
  bounded : ∀ q ∈ c.workers, q < c.peers.length
  written : ∀ w ∈ c.log, w.peer < c.peers.length
  heard : ∀ h ∈ c.heard, h.peer < c.peers.length
  /-- A peer that is no worker could not even be greeted. -/
  strangers : ∀ w ∈ c.log, w.peer ∉ c.workers → ∃ id, w = ⟨w.peer, .hello id, false⟩

namespace Basics

variable {c d : Coordinator}

theorem congr (h : c.Basics) (hworkers : d.workers = c.workers) (hlog : d.log = c.log)
    (hheard : d.heard = c.heard) (hpeers : c.peers.length ≤ d.peers.length) : d.Basics where
  nodup := hworkers ▸ h.nodup
  bounded q hq := Nat.lt_of_lt_of_le (h.bounded q (hworkers ▸ hq)) hpeers
  written w hw := Nat.lt_of_lt_of_le (h.written w (hlog ▸ hw)) hpeers
  heard r hr := Nat.lt_of_lt_of_le (h.heard r (hheard ▸ hr)) hpeers
  strangers w hw := by
    rw [hworkers]
    exact h.strangers w (hlog ▸ hw)

/-- Writing to workers. -/
theorem note (h : c.Basics) {ws : List Written} (hws : ∀ w ∈ ws, w.peer ∈ c.workers) :
    (c.note ws).Basics where
  nodup := h.nodup
  bounded := h.bounded
  written w hw := by
    rcases List.mem_append.mp hw with hw | hw
    · exact h.written w hw
    · exact h.bounded _ (hws w hw)
  heard := h.heard
  strangers w hw hq := by
    rcases List.mem_append.mp hw with hw | hw
    · exact h.strangers w hw hq
    · exact absurd (hws w hw) hq

theorem take (h : c.Basics) {q : Nat} (hq : q < c.peers.length) (r : Reading)
    (inbox : List Reading) : (c.take q r inbox).Basics where
  nodup := h.nodup
  bounded := by simpa using h.bounded
  written := by simpa using h.written
  heard := by
    intro x hx
    rw [heard_take] at hx
    rcases List.mem_append.mp hx with hx | hx
    · simpa using h.heard x hx
    · rw [List.mem_singleton.mp hx]
      simpa using hq
  strangers := h.strangers

/-- Nothing was written to a peer that has not connected, nor read from it. -/
theorem of_le (h : c.Basics) {q : Nat} (hq : c.peers.length ≤ q) :
    c.writtenTo q = [] ∧ c.heardFrom q = [] := by
  constructor
  · rw [writtenTo, List.filter_eq_nil_iff]
    intro w hw
    have := h.written w hw
    simp only [beq_iff_eq]
    omega
  · rw [heardFrom, List.map_eq_nil_iff, List.filter_eq_nil_iff]
    intro r hr
    have := h.heard r hr
    simp only [beq_iff_eq]
    omega

/-- No message has reached a peer that is no worker. -/
theorem deliveredTo_stranger (h : c.Basics) {q : Nat} (hq : q ∉ c.workers) :
    c.deliveredTo q = [] := by
  rw [deliveredTo, writtenTo, List.map_eq_nil_iff, List.filter_filter, List.filter_eq_nil_iff]
  intro w hw
  simp only [Bool.and_eq_true, beq_iff_eq, not_and]
  rintro hd rfl
  obtain ⟨id, hw'⟩ := h.strangers w hw hq
  rw [hw'] at hd
  cases hd

theorem mem_workers_of_delivered (h : c.Basics) {q : Nat} {m : Message}
    (hm : m ∈ c.deliveredTo q) : q ∈ c.workers := by
  by_contra hq
  rw [h.deliveredTo_stranger hq] at hm
  cases hm

end Basics

/-! ### Before the start -/

/-- Nothing has come of the run yet. -/
structure IsUnstarted (c : Coordinator) : Prop where
  collector : c.collector = {}
  started : c.started = []
  accepted : c.accepted = []

/-- The workers were greeted, and nothing else has happened. -/
structure IsGreeting (c : Coordinator) : Prop extends c.IsUnstarted where
  greeted : ∀ id q, c.workers[id]? = some q →
    c.writtenTo q = [greeting id q] ∧ ∃ x, c.heardFrom q = [.message (.hello x)]

/-- Workers are awaited. -/
structure IsAccepting (c : Coordinator) : Prop extends c.IsGreeting where
  short : c.workers.length < max 1 c.expected
  fresh : ∀ q, c.isKept q = true → q ∉ c.workers → c.writtenTo q = [] ∧ c.heardFrom q = []

/-- The configuration was written to all, and the workers before `next` have accepted it. -/
structure IsConfiguring (c : Coordinator) (next : Nat) : Prop extends c.IsUnstarted where
  full : c.workers.length = max 1 c.expected
  next_lt : next < c.workers.length
  briefed : ∀ id q, c.workers[id]? = some q →
    c.writtenTo q = [greeting id q, ⟨q, .config c.setup.cfg, true⟩] ∧
      ∃ x, c.heardFrom q = .message (.hello x) :: if id < next then [.message .ready] else []

/-- Why there is no run. -/
inductive Cause (c : Coordinator) : Error → Prop where
  | tooFew : c.Cause (.connectivity (.workerConnectTimeout c.workers.length c.expected))
  | undistributed : c.Cause (.protocol (.io brokenLink))
  | refused {id q : Nat} {x : Option UInt64} {r : Reading} {e : Error}
    (hq : c.workers[id]? = some q) (hheard : c.heardFrom q = [.message (.hello x), r])
    (hr : refusal? id r = some e) : c.Cause e
  | late (id : Nat) : c.Cause (.protocol (.ackTimeout id))

/-- There will be no run, and the last message written to every worker says so. -/
structure IsCalledOff (c : Coordinator) (e : Error) : Prop extends c.IsUnstarted where
  cause : c.Cause e
  aborted : ∀ id q, c.workers[id]? = some q →
    ∃ ws reason b, c.writtenTo q = greeting id q :: (ws ++ [⟨q, .abort reason, b⟩]) ∧
      (ws = [] ∨ ∃ b, ws = [⟨q, .config c.setup.cfg, b⟩])

/-- The invariant before the start. -/
inductive Preparing (c : Coordinator) : Prop where
  | accepting {deadline : Nat} (hp : c.phase = .accepting deadline) (h : c.IsAccepting)
  | configuring {next deadline : Nat} (hp : c.phase = .configuring next deadline)
    (h : c.IsConfiguring next)
  | calledOff {e : Error} (hp : c.phase = .finished (.error e)) (h : c.IsCalledOff e)

/-- Neither the clock nor what arrives from peers matters before the start, as long as no other
    peers are kept. -/
theorem Preparing.frame {c : Coordinator} (h : c.Preparing) (now : Nat) (peers : List Peer)
    (interrupt : Interrupt)
    (hkept : ∀ q, { c with now, peers, interrupt }.isKept q = true → c.isKept q = true) :
    { c with now, peers, interrupt }.Preparing := by
  cases h with
  | accepting hp h =>
    exact .accepting hp ⟨⟨⟨h.collector, h.started, h.accepted⟩, h.greeted⟩, h.short,
      fun q hq => h.fresh q (hkept q hq)⟩
  | configuring hp h =>
    exact .configuring hp ⟨⟨h.collector, h.started, h.accepted⟩, h.full, h.next_lt, h.briefed⟩
  | calledOff hp h =>
    refine .calledOff hp ⟨⟨h.collector, h.started, h.accepted⟩, ?_, h.aborted⟩
    cases h.cause with
    | tooFew => exact .tooFew
    | undistributed => exact .undistributed
    | refused hq hh hr => exact .refused hq hh hr
    | late id => exact .late id

/-! ### From the start on -/

/-- What was read from the worker `id` after its consent, its entry, and what was written to it
    after the start. -/
structure Serves (c : Coordinator) (id q : Nat) (rs : List Reading) (e : WorkerEntry)
    (ms : List Message) : Prop where
  heard : ∃ x, c.heardFrom q = .message (.hello x) :: .message .ready :: rs
  entry : c.collector.entryOf? id = some e
  dealings : Dealings id rs e ms (c.acceptedFrom id)
  written : ∃ ws, ws.map (·.message) = (if id ∈ c.started then ms else []) ∧
    c.writtenTo q = greeting id q :: ⟨q, .config c.setup.cfg, true⟩ ::
      ⟨q, .start, decide (id ∈ c.started)⟩ :: ws

/-- All workers were started, or could not be reached, and are served. -/
structure IsUnderway (c : Coordinator) : Prop where
  full : c.workers.length = max 1 c.expected
  ids : c.collector.ids = List.range c.workers.length
  published : c.collector.IsPublished
  served : ∀ id q, c.workers[id]? = some q → ∃ rs e ms, c.Serves id q rs e ms

/-- Neither the phase nor the clock nor who is connected matters for how workers are served. -/
theorem IsUnderway.frame {c : Coordinator} (h : c.IsUnderway) (now : Nat)
    (phase : CoordinatorPhase) (peers : List Peer) (connected : List Nat) (interrupt : Interrupt)
    (files : List String) :
    { c with now, phase, peers, connected, interrupt, files }.IsUnderway := by
  refine ⟨h.full, h.ids, h.published, fun id q hq => ?_⟩
  obtain ⟨rs, e, ms, hs⟩ := h.served id q hq
  exact ⟨rs, e, ms, hs.heard, hs.entry, hs.dealings, hs.written⟩

/-- What the result of a run is. -/
inductive Outcome (c : Coordinator) : Except Error Summary → Prop where
  | failed (h : c.collector.numCompleted = 0) :
    c.Outcome (.error (.connectivity (.allWorkersFailed c.expected)))
  | summed {now : Nat} {result : Except Error Summary} (h : c.collector.numCompleted ≠ 0)
    (hr : result = (c.setup.storage.conclude c.setup.cfg (c.collector.finalize now)).1) :
    c.Outcome result

/-- The invariant from the start on. -/
inductive Started (c : Coordinator) : Prop where
  | running {deadline : Nat} (hp : c.phase = .running deadline) (h : c.IsUnderway)
  | shuttingDown {deadline : Nat} (hp : c.phase = .shuttingDown deadline) (h : c.IsUnderway)
    (hs : c.collector.isSettled = true)
  | finished {result : Except Error Summary} (hp : c.phase = .finished result) (h : c.IsUnderway)
    (hs : c.collector.isSettled = true) (ho : c.Outcome result)

/-- Neither the clock nor what arrives from peers matters from the start on. -/
theorem Started.frame {c : Coordinator} (h : c.Started) (now : Nat) (peers : List Peer)
    (interrupt : Interrupt) : { c with now, peers, interrupt }.Started := by
  cases h with
  | running hp h => exact .running hp (h.frame _ _ _ _ _ _)
  | shuttingDown hp h hs => exact .shuttingDown hp (h.frame _ _ _ _ _ _) hs
  | finished hp h hs ho =>
    refine .finished hp (h.frame _ _ _ _ _ _) hs ?_
    cases ho with
    | failed hn => exact .failed hn
    | summed hn hr => exact .summed hn hr

theorem Started.isUnderway {c : Coordinator} (h : c.Started) : c.IsUnderway := by
  cases h <;> assumption

end TxLoad.Coordinator
