import TxLoad.Proofs.Coordinator.Invariant

namespace TxLoad.Coordinator

/-!
# Up to the start

Whatever happens to a coordinator before the start, its invariant is kept, or the start is written
to all workers at once.

* `calledOff_giveUp`: giving up tells every worker to abort.
* `preparing_configure`: with the last worker the configuration is written to all, or there is no
  run.
* `Preparing.step`: every event keeps the invariant unless it is the last consent (`Opens`).
-/

variable {c d : Coordinator}

/-! ### Giving up -/

theorem Cause.congr {e : Error} (h : c.Cause e) (hsetup : d.setup = c.setup)
    (hworkers : d.workers = c.workers) (hheard : d.heard = c.heard) : d.Cause e := by
  cases h with
  | tooFew =>
    rw [← hworkers, expected, ← hsetup]
    exact .tooFew
  | undistributed => exact .undistributed
  | refused hq hh hr =>
    rw [heardFrom, ← hheard] at hh
    exact .refused (hworkers ▸ hq) hh hr
  | late id => exact .late id

/-- Every worker has been greeted and perhaps sent the configuration. -/
def IsAddressed (c : Coordinator) : Prop :=
  ∀ id q, c.workers[id]? = some q → ∃ ws, c.writtenTo q = greeting id q :: ws ∧
    (ws = [] ∨ ∃ b, ws = [⟨q, .config c.setup.cfg, b⟩])

/-- Giving up tells every worker to abort. -/
theorem calledOff_giveUp {e : Error} (hb : c.Basics) (hu : c.IsUnstarted) (ha : c.IsAddressed)
    (hc : c.Cause e) (reason : String) :
    (c.giveUp reason e).Basics ∧ (c.giveUp reason e).Preparing := by
  have h : c.giveUp reason e =
      (c.note (c.workers.map (c.letter (.abort reason)))).finish (.error e) := by
    rw [giveUp, abort_eq_note hb.nodup]
  rw [h]
  constructor
  · refine (hb.note fun w hw => ?_).congr rfl rfl rfl (by simp [finish])
    obtain ⟨q, hq, rfl⟩ := List.mem_map.mp hw
    exact hq
  · refine .calledOff rfl ⟨⟨hu.collector, hu.started, hu.accepted⟩, hc.congr rfl rfl rfl, ?_⟩
    intro id q hq
    obtain ⟨ws, hws, hconfig⟩ := ha id q hq
    refine ⟨ws, reason, c.canWrite q, ?_, hconfig⟩
    have hmem : q ∈ c.workers := List.mem_of_getElem? hq
    have hnote := writtenTo_note c (c.workers.map (c.letter (.abort reason))) q
    rw [filter_letters hb.nodup, if_pos hmem, hws] at hnote
    exact hnote

/-! ### The configuration -/

/-- The coordinator that has written the configuration as far as it could. -/
def distributed (c : Coordinator) : Coordinator :=
  c.dropOthers.note ((c.dropOthers.reached c.workers).map
    (c.dropOthers.letter (.config c.setup.cfg)))

theorem configure_eq (hc : c.workers.Nodup) : c.configure =
    if c.workers.all c.dropOthers.canWrite then
      { c.distributed with phase := .configuring 0 (c.now + configureMs c.setup) }
    else c.distributed.giveUp undistributed (.protocol (.io brokenLink)) := by
  have h : c.dropOthers.distribute c.workers =
      (c.distributed, c.workers.all c.dropOthers.canWrite) :=
    distribute_eq (c := c.dropOthers) hc
  rw [configure, h]
  cases c.workers.all c.dropOthers.canWrite <;> rfl

theorem writtenTo_distributed (hc : c.workers.Nodup) (q : Nat) :
    c.distributed.writtenTo q = c.writtenTo q ++
      if q ∈ c.dropOthers.reached c.workers then
        [⟨q, .config c.setup.cfg, c.dropOthers.canWrite q⟩] else [] := by
  have hprefix := c.dropOthers.reached_isPrefix c.workers
  rw [distributed, writtenTo_note, filter_letters (hc.sublist hprefix.sublist)]
  rfl

/-- With the last worker the configuration is written to all, or there is no run. -/
theorem preparing_configure (hb : c.Basics) (hg : c.IsGreeting)
    (hfull : c.workers.length = max 1 c.expected) :
    c.configure.Basics ∧ c.configure.Preparing := by
  have hn : c.distributed.Basics := by
    -- Those who are no workers are let go of, which concerns no worker.
    have hb' : c.dropOthers.Basics := hb.congr rfl rfl rfl (by simp [dropOthers])
    refine hb'.note fun w hw => ?_
    obtain ⟨q, hq, rfl⟩ := List.mem_map.mp hw
    exact (c.dropOthers.reached_isPrefix c.workers).subset hq
  have hu : c.distributed.IsUnstarted := ⟨hg.collector, hg.started, hg.accepted⟩
  rw [configure_eq hb.nodup]
  by_cases hall : c.workers.all c.dropOthers.canWrite = true
  · rw [if_pos hall]
    refine ⟨hn.congr rfl rfl rfl (Nat.le_refl _),
      .configuring rfl ⟨⟨hu.collector, hu.started, hu.accepted⟩, hfull, ?_, ?_⟩⟩
    · have : 0 < c.workers.length := by omega
      exact this
    · intro id q hq
      obtain ⟨hw, x, hx⟩ := hg.greeted id q hq
      have hmem : q ∈ c.workers := List.mem_of_getElem? hq
      have hcan : c.dropOthers.canWrite q = true := List.all_eq_true.mp hall q hmem
      have h := writtenTo_distributed hb.nodup q
      rw [reached_of_all hall, if_pos hmem, hw, hcan] at h
      exact ⟨h, x, hx⟩
  · rw [if_neg hall]
    refine calledOff_giveUp hn hu (fun id q hq => ?_) .undistributed _
    obtain ⟨hw, -⟩ := hg.greeted id q hq
    refine ⟨_, (writtenTo_distributed hb.nodup q).trans (by rw [hw]; rfl), ?_⟩
    by_cases hq : q ∈ c.dropOthers.reached c.workers
    · rw [if_pos hq]
      exact .inr ⟨_, rfl⟩
    · exact .inl (if_neg hq)

/-! ### Greetings -/

/-- What happens to a peer that becomes no worker concerns no other one. -/
theorem IsAccepting.other {q : Nat} (h : c.IsAccepting) (hq : q ∉ c.workers)
    (hu : d.IsUnstarted) (hsetup : d.setup = c.setup) (hworkers : d.workers = c.workers)
    (hwritten : ∀ p ≠ q, d.writtenTo p = c.writtenTo p)
    (hheard : ∀ p ≠ q, d.heardFrom p = c.heardFrom p)
    (hkept : ∀ p, d.isKept p = true → p ≠ q ∧ c.isKept p = true) : d.IsAccepting where
  toIsUnstarted := hu
  greeted id p hp := by
    rw [hworkers] at hp
    have hne : p ≠ q := fun h => hq (h ▸ List.mem_of_getElem? hp)
    rw [hwritten p hne, hheard p hne]
    exact h.greeted id p hp
  short := by
    rw [hworkers, expected, hsetup]
    exact h.short
  fresh p hp hnot := by
    obtain ⟨hne, hp⟩ := hkept p hp
    rw [hwritten p hne, hheard p hne]
    exact h.fresh p hp (hworkers ▸ hnot)

theorem isKept_drop (c : Coordinator) (q p : Nat) (h : (c.drop q).isKept p = true) :
    p ≠ q ∧ c.isKept p = true := by
  simp only [isKept, drop, modifyPeer, List.getElem?_modify] at h ⊢
  by_cases hq : q = p
  · cases hp : c.peers[p]? <;> simp [hq, hp] at h
  · simp only [hq, if_false] at h
    exact ⟨Ne.symm hq, by simpa using h⟩

/-- A peer that does not say hello, or cannot be greeted, is let go of. -/
theorem preparing_drop {q deadline : Nat} (hb : c.Basics) (h : c.IsAccepting)
    (hp : c.phase = .accepting deadline) (hlt : q < c.peers.length) (hq : q ∉ c.workers)
    (r : Reading) (inbox : List Reading) (ws : List Written)
    (hws : ∀ w ∈ ws, ∃ id, w = ⟨q, .hello id, false⟩) :
    (((c.take q r inbox).note ws).drop q).Basics ∧
      (((c.take q r inbox).note ws).drop q).Preparing := by
  have hb' := hb.take hlt r inbox
  constructor
  · refine ⟨hb.nodup, ?_, ?_, ?_, ?_⟩
    · simpa [drop, modifyPeer] using hb'.bounded
    · intro w hw
      rcases List.mem_append.mp hw with hw | hw
      · simpa [drop, modifyPeer] using hb'.written w hw
      · obtain ⟨id, rfl⟩ := hws w hw
        simpa [drop, modifyPeer] using hlt
    · simpa [drop, modifyPeer] using hb'.heard
    · intro w hw hnot
      rcases List.mem_append.mp hw with hw | hw
      · exact hb.strangers w hw hnot
      · obtain ⟨id, rfl⟩ := hws w hw
        exact ⟨id, rfl⟩
  · refine .accepting hp (h.other hq ⟨h.collector, h.started, h.accepted⟩ rfl rfl ?_ ?_ ?_)
    · intro p hp
      have hnone : ws.filter (·.peer == p) = [] := by
        rw [List.filter_eq_nil_iff]
        intro w hw
        obtain ⟨id, rfl⟩ := hws w hw
        simpa using Ne.symm hp
      exact (writtenTo_note _ ws p).trans (by rw [hnone, List.append_nil]; rfl)
    · intro p hp
      exact (heardFrom_take c q r inbox p).trans (by simp [hp])
    · intro p hp
      obtain ⟨hne, hkept⟩ := isKept_drop _ q p hp
      exact ⟨hne, (isKept_take c q r inbox p).symm.trans hkept⟩

/-- The coordinator that has made a peer a worker. -/
def enlisted (c : Coordinator) (q : Nat) : Coordinator :=
  { c.note [greeting c.workers.length q] with workers := c.workers ++ [q] }

theorem enlist_of_canWrite {q : Nat} (h : c.canWrite q = true) : c.enlist q =
    if c.workers.length + 1 < c.expected then c.enlisted q else (c.enlisted q).configure := by
  have hw : c.write q (.hello (some (UInt64.ofNat c.workers.length))) =
      c.note [greeting c.workers.length q] := by
    rw [write, h]
    rfl
  simp only [enlist, h, if_true, hw, List.length_append, List.length_singleton]
  rfl

theorem enlist_of_not_canWrite {q : Nat} (h : c.canWrite q = false) : c.enlist q =
    (c.note [⟨q, .hello (some (UInt64.ofNat c.workers.length)), false⟩]).drop q := by
  simp only [enlist, h, write]
  rfl

/-- The places among the workers after a peer has become one. -/
theorem getElem?_enlisted {q id p : Nat} (h : (c.enlisted q).workers[id]? = some p) :
    c.workers[id]? = some p ∨ id = c.workers.length ∧ p = q := by
  have h : (c.workers ++ [q])[id]? = some p := h
  rw [List.getElem?_append] at h
  split at h
  · exact .inl h
  · obtain ⟨hlt, rfl⟩ := List.getElem?_eq_some_iff.mp h
    simp only [List.length_singleton] at hlt
    exact .inr ⟨by omega, by simp⟩

theorem writtenTo_enlisted (c : Coordinator) (q p : Nat) :
    (c.enlisted q).writtenTo p =
      c.writtenTo p ++ if p = q then [greeting c.workers.length q] else [] := by
  by_cases h : p = q
  · simp [h, greeting, enlisted, writtenTo]
  · simp [h, greeting, Ne.symm h, enlisted, writtenTo]

theorem Basics.enlisted {q : Nat} (h : c.Basics) (hlt : q < c.peers.length)
    (hq : q ∉ c.workers) : (c.enlisted q).Basics where
  nodup := by
    refine List.nodup_append.mpr ⟨h.nodup, List.nodup_singleton q, ?_⟩
    rintro a ha b hb rfl
    exact hq (List.mem_singleton.mp hb ▸ ha)
  bounded p hp := by
    rcases List.mem_append.mp hp with hp | hp
    · exact h.bounded p hp
    · rw [List.mem_singleton.mp hp]
      exact hlt
  written w hw := by
    rcases List.mem_append.mp hw with hw | hw
    · exact h.written w hw
    · rw [List.mem_singleton.mp hw]
      exact hlt
  heard := h.heard
  strangers w hw hnot := by
    rcases List.mem_append.mp hw with hw | hw
    · exact h.strangers w hw fun h => hnot (List.mem_append_left _ h)
    · rw [List.mem_singleton.mp hw] at hnot
      exact absurd (List.mem_append_right _ (List.mem_singleton.mpr rfl)) hnot

/-- A peer that says hello and can be greeted is a worker. -/
theorem preparing_enlist {q deadline : Nat} {x : Option UInt64} {inbox : List Reading}
    (hb : c.Basics) (h : c.IsAccepting) (hp : c.phase = .accepting deadline)
    (hlt : q < c.peers.length) (hkept : c.isKept q = true) (hq : q ∉ c.workers)
    (hcan : c.canWrite q = true) :
    ((c.take q (.message (.hello x)) inbox).enlist q).Basics ∧
      ((c.take q (.message (.hello x)) inbox).enlist q).Preparing := by
  have henlist : (c.take q (.message (.hello x)) inbox).enlist q =
      if c.workers.length + 1 < c.expected then
        (c.take q (.message (.hello x)) inbox).enlisted q
      else ((c.take q (.message (.hello x)) inbox).enlisted q).configure :=
    enlist_of_canWrite (by rw [canWrite_take, hcan])
  rw [henlist]
  have hb' : ((c.take q (.message (.hello x)) inbox).enlisted q).Basics :=
    (hb.take hlt _ inbox).enlisted (by simpa using hlt) hq
  have hwritten : ∀ p, ((c.take q (.message (.hello x)) inbox).enlisted q).writtenTo p =
      c.writtenTo p ++ if p = q then [greeting c.workers.length q] else [] :=
    writtenTo_enlisted _ q
  have hheard : ∀ p, ((c.take q (.message (.hello x)) inbox).enlisted q).heardFrom p =
      c.heardFrom p ++ if p = q then [.message (.hello x)] else [] :=
    heardFrom_take c q _ inbox
  have hg : ((c.take q (.message (.hello x)) inbox).enlisted q).IsGreeting := by
    refine ⟨⟨h.collector, h.started, h.accepted⟩, fun id p hid => ?_⟩
    rw [hwritten, hheard]
    rcases getElem?_enlisted hid with hid | ⟨rfl, rfl⟩
    · have hne : p ≠ q := fun h => hq (h ▸ List.mem_of_getElem? hid)
      simpa [hne] using h.greeted id p hid
    · obtain ⟨hw, hh⟩ := h.fresh p hkept hq
      simp [hw, hh]
  have hlength : ((c.take q (.message (.hello x)) inbox).enlisted q).workers.length =
      c.workers.length + 1 := by simp [enlisted]
  have hshort := h.short
  by_cases hmore : c.workers.length + 1 < c.expected
  · rw [if_pos hmore]
    refine ⟨hb', .accepting hp ⟨hg, ?_, fun p hp hnot => ?_⟩⟩
    · have : c.workers.length + 1 < max 1 c.expected := by omega
      rwa [hlength]
    · have hne : p ≠ q := fun h => hnot (h ▸ List.mem_append_right _ (List.mem_singleton.mpr rfl))
      have hkept : c.isKept p = true := by
        rw [← isKept_take c q (.message (.hello x)) inbox]
        exact hp
      rw [hwritten, hheard]
      simpa [hne] using h.fresh p hkept fun h => hnot (List.mem_append_left _ h)
  · rw [if_neg hmore]
    have hfull : c.workers.length + 1 = max 1 c.expected := by omega
    exact preparing_configure hb' hg (hlength.trans hfull)

/-! ### The start -/

/-- The peers of all ids are the workers. -/
theorem filterMap_range (ws : List Nat) : (List.range ws.length).filterMap (ws[·]?) = ws := by
  induction ws with
  | nil => rfl
  | cons w ws ih => simp [List.range_succ_eq_map, List.filterMap_map, ih]

/-- The coordinator that has registered all its workers. -/
def registered (c : Coordinator) : Coordinator :=
  { c with
    collector := (List.range c.workers.length).foldl Collector.register c.collector
    connected := List.range c.workers.length }

theorem workers_registered (hu : c.IsUnstarted) : c.registered.collector.workers =
    (List.range c.workers.length).map fun id => (id, ({} : WorkerEntry)) := by
  rw [registered, hu.collector]
  exact Collector.workers_foldl_register _

theorem ids_registered (hu : c.IsUnstarted) :
    c.registered.collector.ids = List.range c.workers.length := by
  rw [Collector.ids, workers_registered hu, List.map_map]
  simp [Function.comp_def]

/-- Every worker has been sent the configuration and has accepted it. -/
structure IsAgreed (c : Coordinator) : Prop extends c.IsUnstarted where
  full : c.workers.length = max 1 c.expected
  agreed : ∀ id q, c.workers[id]? = some q →
    c.writtenTo q = [greeting id q, ⟨q, .config c.setup.cfg, true⟩] ∧
      ∃ x, c.heardFrom q = [.message (.hello x), .message .ready]

section

variable (hs : c.registered.StartsTo (List.range c.workers.length) d)
include hs

theorem log_of_startsTo : d.log = c.log ++ c.workers.map (c.registered.letter .start) :=
  hs.log.trans (congrArg (fun ws => c.log ++ ws.map (c.registered.letter .start))
    (filterMap_range c.workers))

theorem basics_of_startsTo (hb : c.Basics) : d.Basics := by
  have hn : (c.note (c.workers.map (c.registered.letter .start))).Basics := by
    refine hb.note fun w hw => ?_
    obtain ⟨q, hq, rfl⟩ := List.mem_map.mp hw
    exact hq
  have hpeers : c.peers.length = d.peers.length := by
    rw [← length_lines d, hs.lines, length_lines]
    rfl
  exact hn.congr (workers_of_rest hs.rest) (log_of_startsTo hs) (heard_of_rest hs.rest)
    (Nat.le_of_eq hpeers)

/-- A worker that was just started, or could not be reached. -/
theorem serves_of_startsTo (hb : c.Basics) (h : c.IsAgreed) {id q : Nat}
    (hq : c.workers[id]? = some q) : d.Serves id q [] {} [] := by
  obtain ⟨hlt, -⟩ := List.getElem?_eq_some_iff.mp hq
  obtain ⟨hw, x, hx⟩ := h.agreed id q hq
  have hids : c.registered.collector.ids.Nodup := ids_registered h.toIsUnstarted ▸ List.nodup_range
  have hstarted : decide (id ∈ d.started) = c.registered.canWrite q := by
    have hnil : c.registered.started = [] := h.started
    rw [hs.started, hnil, Bool.eq_iff_iff, decide_eq_true_iff]
    simp only [startable, List.nil_append, List.mem_filter, List.mem_range, hlt, true_and]
    rw [show c.registered.workers[id]? = some q from hq]
    rfl
  refine ⟨⟨x, ?_⟩, ?_, ?_, [], by simp, ?_⟩
  · rw [← hx, heardFrom, heardFrom]
    exact congrArg _ (congrArg _ (heard_of_rest hs.rest))
  · rw [hs.collector, Collector.entryOf_eq_some_iff hids, workers_registered h.toIsUnstarted]
    exact List.mem_map.mpr ⟨id, List.mem_range.mpr hlt, rfl⟩
  · have haccepted : d.accepted = [] := hs.accepted.trans h.accepted
    simpa [acceptedFrom, haccepted] using Dealings.start
  · have hsetup : d.setup = c.setup := setup_of_rest hs.rest
    have hnote := writtenTo_note c (c.workers.map (c.registered.letter .start)) q
    rw [filter_letters hb.nodup, if_pos (List.mem_of_getElem? hq), hw] at hnote
    rw [hstarted, hsetup, writtenTo, log_of_startsTo hs]
    exact hnote

/-- **Start.** When all have agreed, the start is written to all. -/
theorem isUnderway_of_startsTo (hb : c.Basics) (h : c.IsAgreed) : d.IsUnderway := by
  have hworkers : d.workers = c.workers := workers_of_rest hs.rest
  have hsetup : d.setup = c.setup := setup_of_rest hs.rest
  refine ⟨?_, ?_, ?_, fun id q hq => ?_⟩
  · rw [hworkers, expected, hsetup]
    exact h.full
  · rw [hs.collector, ids_registered h.toIsUnstarted, hworkers]
  · rw [hs.collector, registered, h.collector]
    exact Collector.isPublished_foldl_register _
  · rw [hworkers] at hq
    exact ⟨[], {}, [], serves_of_startsTo hs hb h hq⟩

end

theorem startsTo_startAll (hc : c.workers.Nodup) :
    c.registered.StartsTo (List.range c.workers.length)
      ((List.range c.workers.length).foldl startWorker c.registered) :=
  foldl_startWorker (c := c.registered) hc List.nodup_range

theorem started_startAll (hb : c.Basics) (h : c.IsAgreed) :
    c.startAll.Basics ∧ c.startAll.Started := by
  have hs := startsTo_startAll hb.nodup
  have hb' := basics_of_startsTo hs hb
  have hu := isUnderway_of_startsTo hs hb h
  exact ⟨hb'.congr rfl rfl rfl (Nat.le_refl _),
    .running rfl (hu.frame _ (.running _) _ _ _ _)⟩

/-! ### Steps before the start -/

/-- An event that starts the run: the last consent is read. -/
def Opens (c : Coordinator) (e : CoordinatorEvent) : Prop :=
  ∃ next deadline q rest, c.phase = .configuring next deadline ∧ next + 1 = c.workers.length ∧
    c.workers[next]? = some q ∧ c.inbox q = .message .ready :: rest ∧ e = .read q

/-- Only consent is no reason to refuse. -/
theorem refusal?_eq_none_iff {id : Nat} {r : Reading} :
    refusal? id r = none ↔ r = .message .ready := by
  cases r with
  | message m => cases m <;> simp [refusal?]
  | _ => simp [refusal?]

/-- The state of accepting, in which a peer's first reading is read. -/
theorem Preparing.read_accepting {q deadline : Nat} {r : Reading} {inbox : List Reading}
    (hb : c.Basics) (h : c.IsAccepting) (hp : c.phase = .accepting deadline)
    (hlisten : c.listensTo q = true) (hlt : q < c.peers.length) :
    ((c.take q r inbox).onRead q r).Basics ∧ ((c.take q r inbox).onRead q r).Preparing := by
  simp only [listensTo, hp, Bool.and_eq_true, Option.isNone_iff_eq_none, idOf?_eq_none_iff]
    at hlisten
  obtain ⟨hkept, hq⟩ := hlisten
  have hdrop : (c.take q r inbox).onGreeting q r = (c.take q r inbox).drop q →
      ((c.take q r inbox).onRead q r).Basics ∧ ((c.take q r inbox).onRead q r).Preparing := by
    intro h'
    rw [onRead, phase_take, hp]
    simp only [h']
    simpa using preparing_drop hb h hp hlt hq r inbox [] (by simp)
  cases r with
  | message m =>
    cases m with
    | hello x =>
      rw [onRead, phase_take, hp]
      by_cases hcan : c.canWrite q = true
      · exact preparing_enlist hb h hp hlt hkept hq hcan
      · have hcan : (c.take q (.message (.hello x)) inbox).canWrite q = false := by
          simpa using hcan
        simp only [onGreeting, enlist_of_not_canWrite hcan]
        exact preparing_drop hb h hp hlt hq _ inbox _ (by simp)
    | _ => exact hdrop rfl
  | _ => exact hdrop rfl

/-- The next worker's consent leaves one answer less to wait for. -/
theorem IsConfiguring.heardFrom_take {q next : Nat} (hb : c.Basics) (h : c.IsConfiguring next)
    (hq : c.workers[next]? = some q) (inbox : List Reading) {id p : Nat}
    (hp : c.workers[id]? = some p) : ∃ x, (c.take q (.message .ready) inbox).heardFrom p =
      .message (.hello x) :: if id < next + 1 then [.message .ready] else [] := by
  obtain ⟨-, x, hx⟩ := h.briefed id p hp
  have hiff : p = q ↔ id = next := by
    obtain ⟨hid, -⟩ := List.getElem?_eq_some_iff.mp hp
    exact ⟨fun h => (List.getElem?_inj hid hb.nodup).mp (hp.trans (h ▸ hq.symm)),
      fun h => by simpa [h, hq] using hp.symm⟩
  refine ⟨x, ?_⟩
  rw [Coordinator.heardFrom_take, hx, List.cons_append]
  by_cases hid : id = next
  · simp [hid, hiff.mpr hid]
  · have : (id < next + 1) = (id < next) := by
      rw [eq_iff_iff]
      omega
    simp [mt hiff.mp hid, this]

/-- With the last consent all have agreed. -/
theorem IsConfiguring.isAgreed {q next : Nat} (hb : c.Basics) (h : c.IsConfiguring next)
    (hq : c.workers[next]? = some q) (hlast : next + 1 = c.workers.length)
    (inbox : List Reading) : (c.take q (.message .ready) inbox).IsAgreed := by
  refine ⟨⟨h.collector, h.started, h.accepted⟩, h.full, fun id p hp =>
    ⟨(h.briefed id p hp).1, ?_⟩⟩
  obtain ⟨x, hx⟩ := h.heardFrom_take hb hq inbox hp
  obtain ⟨hid, -⟩ := List.getElem?_eq_some_iff.mp hp
  rw [if_pos (hlast ▸ hid)] at hx
  exact ⟨x, hx⟩

/-- The state of configuring, in which the answer of the next worker is read. -/
theorem Preparing.read_configuring {q next deadline : Nat} {r : Reading} {inbox : List Reading}
    (hb : c.Basics) (h : c.IsConfiguring next) (hp : c.phase = .configuring next deadline)
    (hq : c.workers[next]? = some q) (hlt : q < c.peers.length) :
    ((c.take q r inbox).onRead q r).Basics ∧
      (((c.take q r inbox).onRead q r).Preparing ∨
        next + 1 = c.workers.length ∧ r = .message .ready ∧
          ((c.take q r inbox).onRead q r).Started) := by
  have hb' := hb.take hlt r inbox
  have hu : (c.take q r inbox).IsUnstarted := ⟨h.collector, h.started, h.accepted⟩
  rw [onRead, phase_take, hp]
  simp only [onAnswer]
  cases hr : refusal? next r with
  | some e =>
    refine (calledOff_giveUp hb' hu (fun id p hp => ?_) ?_ _).imp_right .inl
    · obtain ⟨hw, -⟩ := h.briefed id p hp
      exact ⟨_, hw, .inr ⟨_, rfl⟩⟩
    · obtain ⟨-, x, hx⟩ := h.briefed next q hq
      refine .refused hq ?_ hr (x := x)
      simp [hx]
  | none =>
    obtain rfl := refusal?_eq_none_iff.mp hr
    by_cases hmore : next + 1 < c.workers.length
    · simp only [workers_take, hmore, if_true]
      refine ⟨hb'.congr rfl rfl rfl (Nat.le_refl _), .inl (.configuring rfl
        ⟨⟨hu.collector, hu.started, hu.accepted⟩, h.full, hmore, fun id p hp => ?_⟩)⟩
      exact ⟨(h.briefed id p hp).1, h.heardFrom_take hb hq inbox hp⟩
    · have hlast : next + 1 = c.workers.length := by
        have := h.next_lt
        omega
      simp only [workers_take, hmore, if_false]
      have hagreed := h.isAgreed hb hq hlast inbox
      exact (started_startAll hb' hagreed).imp_right fun hs => .inr ⟨hlast, trivial, hs⟩

/-- Changing what is known of a peer, but not whether it is kept. -/
theorem Preparing.modifyPeer (h : c.Preparing) (q : Nat) {f : Peer → Peer}
    (hf : ∀ p, (f p).isOpen = p.isOpen) : (c.modifyPeer q f).Preparing := by
  refine h.frame _ (c.peers.modify q f) _ fun p hp => ?_
  simp only [isKept, List.getElem?_modify] at hp ⊢
  by_cases hq : q = p <;> cases hpeer : c.peers[p]? <;> simp_all

theorem Basics.modifyPeer (h : c.Basics) (q : Nat) (f : Peer → Peer) :
    (c.modifyPeer q f).Basics :=
  h.congr rfl rfl rfl (by simp [Coordinator.modifyPeer])

/-- The deadline before the start: there will be no run. -/
theorem Preparing.expire (hb : c.Basics) (h : c.Preparing) :
    c.expire.Basics ∧ c.expire.Preparing := by
  cases h with
  | accepting hp h =>
    rw [Coordinator.expire, hp]
    refine calledOff_giveUp hb h.toIsUnstarted (fun id q hq => ?_) .tooFew _
    exact ⟨[], (h.greeted id q hq).1, .inl rfl⟩
  | configuring hp h =>
    rw [Coordinator.expire, hp]
    refine calledOff_giveUp hb h.toIsUnstarted (fun id q hq => ?_) (.late _) _
    exact ⟨_, (h.briefed id q hq).1, .inr ⟨_, rfl⟩⟩
  | calledOff hp h =>
    rw [Coordinator.expire, hp]
    exact ⟨hb, .calledOff hp h⟩

/-- Another peer connects. -/
theorem Preparing.welcome {deadline : Nat} (hb : c.Basics) (h : c.Preparing)
    (hp : c.phase = .accepting deadline) : c.welcome.Basics ∧ c.welcome.Preparing := by
  refine ⟨hb.congr rfl rfl rfl (by simp [Coordinator.welcome]), ?_⟩
  cases h with
  | accepting hp h =>
    refine .accepting hp ⟨⟨⟨h.collector, h.started, h.accepted⟩, h.greeted⟩, h.short,
      fun q hq hnot => ?_⟩
    -- A peer that has just connected was neither written to nor read from.
    by_cases hlt : q < c.peers.length
    · refine h.fresh q ?_ hnot
      simpa [Coordinator.welcome, isKept, List.getElem?_append_left hlt] using hq
    · exact hb.of_le (Nat.le_of_not_lt hlt)
  | _ hp' =>
    rw [hp] at hp'
    cases hp'

/-- Reading before the start. -/
theorem Preparing.read (hb : c.Basics) (h : c.Preparing) {q : Nat} {r : Reading}
    {inbox : List Reading} (hlisten : c.listensTo q = true) (hinbox : c.inbox q = r :: inbox) :
    ((c.take q r inbox).onRead q r).Basics ∧ (((c.take q r inbox).onRead q r).Preparing ∨
      c.Opens (.read q) ∧ ((c.take q r inbox).onRead q r).Started) := by
  have hlt := lt_of_inbox hinbox
  cases h with
  | accepting hp h => exact (Preparing.read_accepting hb h hp hlisten hlt).imp_right .inl
  | @configuring next deadline hp h =>
    have hq : c.workers[next]? = some q := by simpa [listensTo, hp] using hlisten
    refine (Preparing.read_configuring hb h hp hq hlt).imp_right fun h => ?_
    rcases h with h | ⟨hlast, rfl, hs⟩
    · exact .inl h
    · exact .inr ⟨⟨next, deadline, q, inbox, hp, hlast, hq, hinbox, rfl⟩, hs⟩
  | calledOff hp h => simp [listensTo, hp] at hlisten

/-- **Before the start.** Every event keeps the invariant, unless it is the last consent, which
    starts the run. -/
theorem Preparing.step (hb : c.Basics) (h : c.Preparing) (e : CoordinatorEvent) :
    (c.step e).Basics ∧ ((c.step e).Preparing ∨ c.Opens e ∧ (c.step e).Started) := by
  have hr := c.reacts_step e
  generalize c.step e = d at hr ⊢
  cases hr with
  | refused | late | again => exact ⟨hb, .inl h⟩
  | welcome hp => exact (h.welcome hb hp).imp_right .inl
  | arrive q r => exact ⟨hb.modifyPeer q _, .inl (h.modifyPeer q fun _ => rfl)⟩
  | sever q writes => exact ⟨hb.modifyPeer q _, .inl (h.modifyPeer q fun _ => rfl)⟩
  | read hlisten hin => exact h.read hb hlisten hin
  | interrupt | advance =>
    exact ⟨hb.congr rfl rfl rfl (Nat.le_refl _), .inl (h.frame _ _ _ fun _ hq => hq)⟩
  | heed hp =>
    -- An interrupt is heeded only while the coordinator runs.
    cases h with
    | _ hp' =>
      rw [hp] at hp'
      cases hp'
  | expire => exact (h.expire hb).imp_right .inl

end TxLoad.Coordinator
