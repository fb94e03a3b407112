import TxLoad.Client.KeyValue
import TxLoad.Proofs.Coordinator.Barrier
import TxLoad.Proofs.Coordinator.Greeting
import TxLoad.Proofs.Stats.Keeping

namespace TxLoad.Coordinator

/-!
# Who a worker is

A coordinator knows its workers by their ids, its peers know themselves by the ids that they were
told. In every run the two agree.

* `IsTold`: a peer was told an id; `Introduced.isTold_iff`: it is the place of this peer among the
  workers.
* `Introduced` is the invariant on greetings, kept by every event (`Introduced.step`).
* `Identifies` says what the ids are worth: they are given in the order of registration, nobody else
  gets one, and what is written to a worker or merged from it goes by the id that its peer was told.
* `identifies_run`: every run of a coordinator identifies its workers.
-/

variable {c d : Coordinator}

/-! ### Greetings -/

/-- A peer was told the id: the hello that says so was written to it with success. -/
def IsTold (c : Coordinator) (q : Nat) (id : UInt64) : Prop :=
  (⟨q, .hello (some id), true⟩ : Written) ∈ c.log

instance (q : Nat) (id : UInt64) : Decidable (c.IsTold q id) := inferInstanceAs (Decidable (_ ∈ _))

/-- Whether a greeting was written with success. -/
def hasGreeted (w : Written) : Bool := w.message.isHello && w.delivered

/-- The greetings that were written with success, in order. -/
def greetings (c : Coordinator) : List Written := c.log.filter hasGreeted

theorem greetings_of_log {ws : List Written} (hlog : d.log = c.log ++ ws) :
    d.greetings = c.greetings ++ ws.filter hasGreeted := by
  rw [greetings, hlog, List.filter_append]
  rfl

/-- Other messages are no greetings, written with success or not. -/
theorem filter_quiet {ws : List Written} (h : ∀ w ∈ ws, w.message.isHello = false) :
    ws.filter hasGreeted = [] ∧ ws.filter (·.message.isHello) = [] := by
  constructor
  · rw [List.filter_eq_nil_iff]
    intro w hw
    simp [hasGreeted, h w hw]
  · rw [List.filter_eq_nil_iff]
    intro w hw
    simp [h w hw]

/-- What was read is not taken back. -/
theorem heard_prefix_step (c : Coordinator) (ev : CoordinatorEvent) :
    c.heard <+: (c.step ev).heard := by
  have hr := c.reacts_step ev
  generalize c.step ev = d at hr ⊢
  cases hr with
  | read hlisten hin =>
    rw [(keeps_onRead _ _ _).heard, heard_take]
    exact List.prefix_append ..
  | heed => exact c.keeps_heed.heard ▸ List.prefix_rfl
  | expire => exact c.keeps_expire.heard ▸ List.prefix_rfl
  | _ => exact List.prefix_rfl

/-- What a peer said first remains what it said first. -/
theorem head?_heardFrom_step {q : Nat} {r : Reading} (h : (c.heardFrom q).head? = some r)
    (ev : CoordinatorEvent) : ((c.step ev).heardFrom q).head? = some r := by
  have hprefix : c.heardFrom q <+: (c.step ev).heardFrom q :=
    ((c.heard_prefix_step ev).filter _).map _
  obtain ⟨rs, hrs⟩ := hprefix
  rw [← hrs, List.head?_append, h]
  rfl

/-! ### The invariant -/

/-- The greetings that reached their peers are those of the workers, in their order. No peer is
    greeted twice, and nothing is written to a peer before it said hello. -/
structure Introduced (c : Coordinator) : Prop where
  inv : c.Inv
  greetings : c.greetings = c.workers.mapIdx greeting
  once : ((c.log.filter (·.message.isHello)).map (·.peer)).Nodup
  greeted : ∀ w ∈ c.log, ∃ x, (c.heardFrom w.peer).head? = some (.message (.hello x))
  bounded : c.workers.length ≤ max 1 c.expected

theorem introduced_start (setup : CoordinatorSetup) (now : Nat) : (start setup now).Introduced where
  inv := inv_start setup now
  greetings := rfl
  once := .nil
  greeted := by simp [start]
  bounded := Nat.zero_le _

theorem mem_greetings {w : Written} :
    w ∈ c.greetings ↔ w ∈ c.log ∧ w.message.isHello = true ∧ w.delivered = true := by
  simp [greetings, hasGreeted]

/-- Messages other than greetings are written to workers only. -/
theorem Basics.mem_workers (hb : c.Basics) {w : Written} (hw : w ∈ c.log)
    (hquiet : w.message.isHello = false) : w.peer ∈ c.workers := by
  by_contra hnot
  obtain ⟨id, hstranger⟩ := hb.strangers w hw hnot
  rw [hstranger] at hquiet
  cases hquiet

namespace Introduced

/-- Every worker has said hello first. -/
theorem greeted_of_mem (h : c.Introduced) {q : Nat} (hq : q ∈ c.workers) :
    ∃ x, (c.heardFrom q).head? = some (.message (.hello x)) := by
  obtain ⟨id, hid⟩ := List.mem_iff_getElem?.mp hq
  have hmem : greeting id q ∈ c.greetings := by
    rw [h.greetings, List.mem_iff_getElem?]
    exact ⟨id, by simp [List.getElem?_mapIdx, hid]⟩
  exact h.greeted _ (mem_greetings.mp hmem).1

/-- Nothing was written to a peer that said nothing. -/
theorem not_greeted (h : c.Introduced) {q : Nat} (hfresh : c.heardFrom q = []) :
    ∀ w ∈ c.log, w.peer ≠ q := by
  rintro w hw rfl
  obtain ⟨x, hx⟩ := h.greeted w hw
  rw [hfresh] at hx
  cases hx

/-- One more greeting, of a peer that said nothing before. -/
theorem once_append (h : c.Introduced) {q : Nat} (hfresh : c.heardFrom q = [])
    {w : Written} (hw : w.peer = q) {ws : List Written}
    (hws : ∀ w ∈ ws, w.message.isHello = false) :
    (((c.log ++ w :: ws).filter (·.message.isHello)).map (·.peer)).Nodup := by
  rw [List.filter_append, List.filter_cons, (filter_quiet hws).2, List.map_append]
  refine List.nodup_append.mpr ⟨h.once, ?_, ?_⟩
  · split <;> simp
  · rintro p hp p' hp' rfl
    obtain ⟨v, hv, rfl⟩ := List.mem_map.mp hp
    have hne : v.peer ≠ q := h.not_greeted hfresh v (List.mem_filter.mp hv).1
    split at hp'
    · exact hne ((List.mem_singleton.mp hp').trans hw)
    · cases hp'

/-- What was said first before an event was said first after it. -/
theorem greeted_step (h : c.Introduced) (ev : CoordinatorEvent) {w : Written} (hw : w ∈ c.log) :
    ∃ x, ((c.step ev).heardFrom w.peer).head? = some (.message (.hello x)) := by
  obtain ⟨x, hx⟩ := h.greeted w hw
  exact ⟨x, head?_heardFrom_step hx ev⟩

/-- What greets nobody keeps the invariant. -/
theorem quiet (h : c.Introduced) {ev : CoordinatorEvent}
    (hworkers : (c.step ev).workers = c.workers) {ws : List Written}
    (hlog : (c.step ev).log = c.log ++ ws) (hws : ∀ w ∈ ws, w.message.isHello = false) :
    (c.step ev).Introduced := by
  have hinv := h.inv.step ev
  refine ⟨hinv, ?_, ?_, ?_, ?_⟩
  · rw [greetings_of_log hlog, (filter_quiet hws).1, List.append_nil, h.greetings, hworkers]
  · rw [hlog, List.filter_append, (filter_quiet hws).2, List.append_nil]
    exact h.once
  · intro w hw
    have hmem : w ∈ c.log ∨ w ∈ ws := List.mem_append.mp (hlog ▸ hw)
    rcases hmem with hold | hnew
    · exact h.greeted_step ev hold
    · have hworker : w.peer ∈ c.workers := hworkers ▸ hinv.basics.mem_workers hw (hws w hnew)
      obtain ⟨x, hx⟩ := h.greeted_of_mem hworker
      exact ⟨x, head?_heardFrom_step hx ev⟩
  · rw [hworkers, expected, setup_step]
    exact h.bounded

theorem isAccepting (h : c.Introduced) {deadline : Nat} (hp : c.phase = .accepting deadline) :
    c.IsAccepting := by
  rcases h.inv.stage with hprep | hs
  · cases hprep with
    | accepting _ h => exact h
    | configuring hp' | calledOff hp' =>
      rw [hp] at hp'
      cases hp'
  · exact absurd hp (hs.not_accepting deadline)

/-- A peer that cannot be told its id is no worker. -/
theorem unreached (h : c.Introduced) {q : Nat} {x id : Option UInt64}
    (hfresh : c.heardFrom q = [])
    (hheard : (c.step (.read q)).heardFrom q = [.message (.hello x)])
    (hlog : (c.step (.read q)).log = c.log ++ [⟨q, .hello id, false⟩])
    (hworkers : (c.step (.read q)).workers = c.workers) : (c.step (.read q)).Introduced := by
  refine ⟨h.inv.step _, ?_, ?_, ?_, ?_⟩
  · rw [greetings_of_log hlog, hworkers, ← h.greetings]
    simp [hasGreeted]
  · rw [hlog]
    exact h.once_append hfresh rfl (by simp)
  · intro w hw
    have hmem : w ∈ c.log ∨ w ∈ [⟨q, .hello id, false⟩] := List.mem_append.mp (hlog ▸ hw)
    rcases hmem with hold | hnew
    · exact h.greeted_step _ hold
    · obtain rfl := List.mem_singleton.mp hnew
      exact ⟨x, by rw [hheard]; rfl⟩
  · rw [hworkers, expected, setup_step]
    exact h.bounded

/-- A peer that is told its id is the next worker. -/
theorem registered (h : c.Introduced) {q deadline : Nat} {x : Option UInt64}
    (hp : c.phase = .accepting deadline) (hfresh : c.heardFrom q = [])
    (hheard : (c.step (.read q)).heardFrom q = [.message (.hello x)]) {ws : List Written}
    (hlog : (c.step (.read q)).log = c.log ++ (greeting c.workers.length q :: ws))
    (hws : ∀ w ∈ ws, w.message.isHello = false)
    (hworkers : (c.step (.read q)).workers = c.workers ++ [q]) : (c.step (.read q)).Introduced := by
  have hinv := h.inv.step (.read q)
  have hnew : ∃ y, ((c.step (.read q)).heardFrom q).head? = some (.message (.hello y)) :=
    ⟨x, by rw [hheard]; rfl⟩
  refine ⟨hinv, ?_, ?_, ?_, ?_⟩
  · have hgreets : hasGreeted (greeting c.workers.length q) = true := rfl
    rw [greetings_of_log hlog, hworkers, List.filter_cons_of_pos hgreets, (filter_quiet hws).1,
      h.greetings, List.mapIdx_concat]
  · rw [hlog]
    exact h.once_append hfresh rfl hws
  · intro w hw
    have hmem : w ∈ c.log ∨ w ∈ greeting c.workers.length q :: ws :=
      List.mem_append.mp (hlog ▸ hw)
    rcases hmem with hold | hmem
    · exact h.greeted_step _ hold
    · rcases List.mem_cons.mp hmem with rfl | hlater
      · exact hnew
      · -- What follows the greeting goes to workers, of which this peer is the last.
        have hworker := hinv.basics.mem_workers hw (hws w hlater)
        rw [hworkers] at hworker
        rcases List.mem_append.mp hworker with hold | hlast
        · obtain ⟨y, hy⟩ := h.greeted_of_mem hold
          exact ⟨y, head?_heardFrom_step hy _⟩
        · rw [List.mem_singleton.mp hlast]
          exact hnew
  · have hshort := (h.isAccepting hp).short
    rw [hworkers, expected, setup_step, List.length_append, List.length_singleton]
    exact hshort

/-- **Step.** Every event keeps the invariant. -/
theorem step (h : c.Introduced) (ev : CoordinatorEvent) : (c.step ev).Introduced := by
  have halters := h.inv.alters ev
  cases halters with
  | retained hretains =>
    obtain ⟨ws, hlog, hws⟩ := hretains.log
    exact h.quiet hretains.workers hlog hws
  | credited hin hq hcredits =>
    obtain ⟨ws, hlog, hws⟩ := hcredits.log
    exact h.quiet hcredits.workers hlog fun w hw => (hws w hw).2
  | unreached hfresh hheard hlog hworkers =>
    exact h.unreached hfresh hheard hlog hworkers
  | registered hp hfresh hheard hretains =>
    obtain ⟨ws, hlog, hws⟩ := hretains.log
    refine h.registered hp hfresh hheard ?_ hws hretains.workers
    rw [hlog]
    simp [enlisted]

/-- Every run keeps the invariant. -/
theorem run (h : c.Introduced) (es : List CoordinatorEvent) : (c.run es).Introduced := by
  induction es generalizing c with
  | nil => exact h
  | cons e es ih => exact ih (h.step e)

/-! ### Ids -/

/-- Every id is a word. -/
theorem length_lt (h : c.Introduced) {id : Nat} (hid : id < c.workers.length) : id < 2 ^ 64 := by
  have hexpected : c.expected < 2 ^ 64 := c.setup.settings.expectWorkers.toNat_lt
  have hbounded := h.bounded
  omega

/-- **Ids.** A peer was told the id of its place among the workers, and no other one. -/
theorem isTold_iff (h : c.Introduced) {q : Nat} {id : UInt64} :
    c.IsTold q id ↔ c.workers[id.toNat]? = some q := by
  have hmem : c.IsTold q id ↔ (⟨q, .hello (some id), true⟩ : Written) ∈ c.greetings := by
    rw [mem_greetings]
    exact ⟨fun h => ⟨h, rfl, rfl⟩, fun h => h.1⟩
  rw [hmem, h.greetings, List.mem_mapIdx]
  constructor
  · rintro ⟨i, hi, heq⟩
    obtain ⟨hpeer, hid⟩ : c.workers[i] = q ∧ UInt64.ofNat i = id := by
      simpa [greeting] using heq
    rw [← hid, UInt64.toNat_ofNat_of_lt' (h.length_lt hi), List.getElem?_eq_getElem hi, hpeer]
  · intro hq
    obtain ⟨hlt, hpeer⟩ := List.getElem?_eq_some_iff.mp hq
    exact ⟨id.toNat, hlt, by rw [hpeer, greeting, UInt64.ofNat_toNat]⟩

theorem isTold_ofNat (h : c.Introduced) {q id : Nat} (hq : c.workers[id]? = some q) :
    c.IsTold q (UInt64.ofNat id) := by
  obtain ⟨hlt, -⟩ := List.getElem?_eq_some_iff.mp hq
  rw [h.isTold_iff, UInt64.toNat_ofNat_of_lt' (h.length_lt hlt)]
  exact hq

theorem length_greetings (h : c.Introduced) : c.greetings.length = c.workers.length := by
  rw [h.greetings, List.length_mapIdx]

/-- While there is a run, or may be one, all workers are there. -/
theorem full (h : c.Introduced) (hpos : 0 < c.expected)
    (hstage : c.stage = .configuring ∨ c.stage = .running ∨ c.stage = .shuttingDown) :
    c.workers.length = c.expected := by
  have hmax : max 1 c.expected = c.expected := by omega
  rcases h.inv.stage with hprep | hs
  · cases hprep with
    | accepting hp | calledOff hp => simp [stage, hp] at hstage
    | configuring hp hconf => exact hconf.full.trans hmax
  · exact hs.isUnderway.full.trans hmax

/-- The coordinator has started its workers. -/
theorem started (h : c.Introduced) (hstage : c.stage = .running ∨ c.stage = .shuttingDown) :
    c.Started := by
  refine h.inv.stage.resolve_left fun hprep => ?_
  cases hprep with
  | accepting hp | configuring hp | calledOff hp => simp [stage, hp] at hstage

end Introduced

/-! ### What ids are worth -/

/-- Only a deadline that passes while workers are awaited is reported as such. -/
theorem Cause.eq_of_timeout {got n : Nat}
    (h : c.Cause (.connectivity (.workerConnectTimeout got n))) :
    got = c.workers.length ∧ n = c.expected := by
  generalize he : Error.connectivity (.workerConnectTimeout got n) = e at h
  cases h with
  | tooFew =>
    cases he
    exact ⟨rfl, rfl⟩
  | undistributed | late => cases he
  | @refused id q x r e hq hheard hr =>
    subst he
    cases r with
    | message m => cases m <;> cases hr
    | _ => cases hr

/-- A timeout of workers that connect tells how many have. -/
theorem Introduced.timeout (h : c.Introduced) {got n : Nat}
    (hresult : c.result? = some (.error (.connectivity (.workerConnectTimeout got n)))) :
    got = c.workers.length ∧ n = c.expected := by
  rcases h.inv.stage with hprep | hs
  · cases hprep with
    | accepting hp | configuring hp => simp [result?, hp] at hresult
    | calledOff hp hoff =>
      simp only [result?, hp, Option.some.injEq, Except.error.injEq] at hresult
      exact (hresult ▸ hoff.cause).eq_of_timeout
  · cases hs with
    | running hp | shuttingDown hp => simp [result?, hp] at hresult
    | finished hp hu hsettled ho =>
      simp only [result?, hp, Option.some.injEq] at hresult
      subst hresult
      generalize hr : Except.error (Error.connectivity (.workerConnectTimeout got n)) = r at ho
      cases ho with
      | failed => cases hr
      | summed hne hconclude =>
        obtain ⟨reason, hreason⟩ := Storage.exists_reason (hconclude.symm.trans hr.symm)
        cases hreason

/-- The ids that peers were told say who they are. -/
structure Identifies (c : Coordinator) : Prop where
  /-- The ids of the hello replies that reached their peers are 0, 1, 2 and so on, in this order. -/
  ids : c.greetings.map (·.message) =
    (List.range c.greetings.length).map fun id => .hello (some (UInt64.ofNat id))
  /-- The workers are the peers that took these replies, in the order of the replies. -/
  order : c.workers = c.greetings.map (·.peer)
  /-- No peer has two ids, and no id has two peers. -/
  unique : ∀ p q id id', c.IsTold p id → c.IsTold q id' → (p = q ↔ id = id')
  /-- There are never more workers than needed, and no fewer from the configuration on. -/
  bounded : c.greetings.length ≤ c.expected
  complete : c.stage = .configuring ∨ c.stage = .running ∨ c.stage = .shuttingDown →
    c.greetings.length = c.expected
  /-- Nothing is written to a peer before it said hello. -/
  greeted : ∀ w ∈ c.log, ∃ x, (c.heardFrom w.peer).head? = some (.message (.hello x))
  /-- A peer is greeted only once: one that does not take the reply gets no id later. -/
  once : ((c.log.filter (·.message.isHello)).map (·.peer)).Nodup
  /-- A peer that is no worker has got no message, and nothing but a greeting was tried. -/
  strangers : ∀ q ∉ c.workers, c.deliveredTo q = [] ∧
    ∀ w ∈ c.writtenTo q, w.message.isHello = true
  /-- There are no more ids once workers are no longer awaited. -/
  closed : c.stage ≠ .waitingForWorkers → ∀ ev, (c.step ev).greetings = c.greetings
  /-- A message for a worker that was started is written to the peer that was told its id. -/
  addressed : ∀ q id m, c.IsTold q id →
    c.send id.toNat m = if id.toNat ∈ c.started then c.write q m else c
  /-- Nothing is written in the name of an id that nobody was told. -/
  unassigned : ∀ id m, (∀ q, ¬ c.IsTold q id) → c.send id.toNat m = c
  /-- The start is written to the peer that was told the id as well. -/
  launched : ∀ q id, c.IsTold q id →
    (c.startWorker id.toNat).log = c.log ++ [⟨q, .start, c.canWrite q⟩]
  /-- From the start on, what is written to a peer and what becomes of the entry under its id go
      together, whatever happens. -/
  affected : c.stage = .running ∨ c.stage = .shuttingDown → ∀ q id, c.IsTold q id →
    ∃ e, c.collector.entryOf? id.toNat = some e ∧ ∀ ev, c.Affects id.toNat q e (c.step ev)
  /-- What is read from a peer is credited to the id that it was told. -/
  credited : c.stage = .running ∨ c.stage = .shuttingDown → ∀ q id r rest, c.IsTold q id →
    c.listensTo q = true → c.inbox q = r :: rest → c.Credits id.toNat q r (c.step (.read q))
  /-- Nothing else is merged. -/
  merged : ∀ ev, (c.step ev).accepted = c.accepted ∨ ∃ q id r rest, ev = .read q ∧
    c.IsTold q id ∧ c.inbox q = .message (.statsReport r) :: rest ∧
    (c.step ev).accepted = c.accepted ++ [(id.toNat, r)]
  /-- When workers are no longer awaited, too few of them are there, and the error says how many. -/
  expired : ∀ deadline, c.phase = .accepting deadline → c.greetings.length < c.expected ∧
    (deadline ≤ c.now → (c.step .expire).result? =
      some (.error (.connectivity (.workerConnectTimeout c.greetings.length c.expected))))
  timeout : ∀ got n, c.result? = some (.error (.connectivity (.workerConnectTimeout got n))) →
    got = c.greetings.length ∧ n = c.expected

namespace Introduced

variable (h : c.Introduced)
include h

theorem addressed {q : Nat} {id : UInt64} (htold : c.IsTold q id) (m : Message) :
    c.send id.toNat m = if id.toNat ∈ c.started then c.write q m else c := by
  have hq := h.isTold_iff.mp htold
  simp only [send, hq, List.contains_iff_mem]

theorem unassigned {id : UInt64} (hnobody : ∀ q, ¬ c.IsTold q id) (m : Message) :
    c.send id.toNat m = c := by
  cases hq : c.workers[id.toNat]? with
  | none => simp only [send, hq]
  | some q => exact absurd (h.isTold_iff.mpr hq) (hnobody q)

theorem launched {q : Nat} {id : UInt64} (htold : c.IsTold q id) :
    (c.startWorker id.toNat).log = c.log ++ [⟨q, .start, c.canWrite q⟩] := by
  have hq := h.isTold_iff.mp htold
  have hlog := (startsTo_startWorker c id.toNat).log
  rw [List.filterMap_cons_some hq] at hlog
  exact hlog

theorem affected (hstage : c.stage = .running ∨ c.stage = .shuttingDown) {q : Nat} {id : UInt64}
    (htold : c.IsTold q id) :
    ∃ e, c.collector.entryOf? id.toNat = some e ∧ ∀ ev, c.Affects id.toNat q e (c.step ev) := by
  have hs := h.started hstage
  have hq := h.isTold_iff.mp htold
  obtain ⟨e, he⟩ := hs.isUnderway.exists_entry hq
  exact ⟨e, he, fun ev => (hs.affects h.inv.basics hq he ev).2.2⟩

theorem credited (hstage : c.stage = .running ∨ c.stage = .shuttingDown) {q : Nat} {id : UInt64}
    {r : Reading} {rest : List Reading} (htold : c.IsTold q id) (hlisten : c.listensTo q = true)
    (hin : c.inbox q = r :: rest) : c.Credits id.toNat q r (c.step (.read q)) := by
  obtain ⟨i, hi, hcredits⟩ : ∃ i, c.workers[i]? = some q ∧
      c.Credits i q r ((c.take q r rest).onRead q r) :=
    (h.started hstage).credits h.inv.basics hlisten
  -- A peer has one place among the workers.
  have heq : i = id.toNat := (h.inv.basics.id_inj hi (h.isTold_iff.mp htold)).mp rfl
  rw [step_read hlisten hin, ← heq]
  exact hcredits

theorem merged (ev : CoordinatorEvent) :
    (c.step ev).accepted = c.accepted ∨ ∃ q id r rest, ev = .read q ∧ c.IsTold q id ∧
      c.inbox q = .message (.statsReport r) :: rest ∧
      (c.step ev).accepted = c.accepted ++ [(id.toNat, r)] := by
  have halters := h.inv.alters ev
  cases halters with
  | retained hretains => exact .inl hretains.accepted
  | unreached _ _ _ _ haccepted => exact .inl haccepted
  | registered _ _ _ hretains => exact .inl hretains.accepted
  | @credited i q r rest hin hq hcredits =>
    obtain ⟨e, -, -, haccepted⟩ := hcredits.entry
    cases hadmits : e.admits? r with
    | none => exact .inl (by simpa [hadmits] using haccepted)
    | some report =>
      -- Only a report is admitted.
      have hr : r = .message (.statsReport report) := by
        cases r with
        | message m =>
          cases m with
          | statsReport r' =>
            simp only [WorkerEntry.admits?] at hadmits
            split at hadmits
            · rw [Option.some.inj hadmits]
            · cases hadmits
          | _ => cases hadmits
        | _ => cases hadmits
      subst hr
      have hlt : i < c.workers.length := (List.getElem?_eq_some_iff.mp hq).1
      refine .inr ⟨q, UInt64.ofNat i, report, rest, rfl, h.isTold_ofNat hq, hin, ?_⟩
      rw [UInt64.toNat_ofNat_of_lt' (h.length_lt hlt), haccepted, hadmits]
      rfl

theorem closed (hstage : c.stage ≠ .waitingForWorkers) (ev : CoordinatorEvent) :
    (c.step ev).greetings = c.greetings := by
  have hworkers : (c.step ev).workers = c.workers := by
    have halters := h.inv.alters ev
    cases halters with
    | retained hretains => exact hretains.workers
    | unreached _ _ _ hworkers => exact hworkers
    | credited _ _ hcredits => exact hcredits.workers
    | registered hp => exact absurd (by rw [stage, hp]) hstage
  rw [(h.step ev).greetings, hworkers, h.greetings]

theorem expired (hpos : 0 < c.expected) {deadline : Nat} (hp : c.phase = .accepting deadline) :
    c.greetings.length < c.expected ∧ (deadline ≤ c.now → (c.step .expire).result? =
      some (.error (.connectivity (.workerConnectTimeout c.greetings.length c.expected)))) := by
  rw [h.length_greetings]
  constructor
  · have hshort := (h.isAccepting hp).short
    omega
  · intro hnow
    have hcan : c.canHappen .expire = true := by simp [canHappen, deadline?, hp, hnow]
    rw [Coordinator.step, if_pos hcan, act, expire, hp]
    rfl

/-- Greetings and what follows from them. -/
theorem identifies (hpos : 0 < c.expected) : c.Identifies where
  ids := by
    rw [h.greetings, List.length_mapIdx]
    refine List.ext_getElem (by simp) fun i hi _ => ?_
    simp [greeting]
  order := by
    rw [h.greetings]
    refine List.ext_getElem (by simp) fun i hi _ => ?_
    simp [greeting]
  unique p q id id' hp hq := by
    rw [h.inv.basics.id_inj (h.isTold_iff.mp hp) (h.isTold_iff.mp hq)]
    exact UInt64.toNat_inj
  bounded := by
    have hbounded := h.bounded
    rw [h.length_greetings]
    omega
  complete hstage := h.length_greetings.trans (h.full hpos hstage)
  greeted := h.greeted
  once := h.once
  strangers q hq := by
    refine ⟨h.inv.basics.deliveredTo_stranger hq, fun w hw => ?_⟩
    obtain ⟨hlog, hpeer⟩ := List.mem_filter.mp hw
    obtain rfl : w.peer = q := by simpa using hpeer
    by_contra hhello
    exact hq (h.inv.basics.mem_workers hlog (by simpa using hhello))
  closed := h.closed
  addressed q id m htold := h.addressed htold m
  unassigned id m hnobody := h.unassigned hnobody m
  launched q id := h.launched
  affected hstage q id := h.affected hstage
  credited hstage q id r rest := h.credited hstage
  merged := h.merged
  expired deadline := h.expired hpos
  timeout got n hresult := by
    rw [h.length_greetings]
    exact h.timeout hresult

end Introduced

/-- **Identity.** Whatever peers connect to a coordinator, whatever they say and in whichever order,
    and whichever of them can be written to, the ids that they were told identify its workers at
    all times. -/
theorem identifies_run {setup : CoordinatorSetup} {registry : Registry} {now : Nat}
    (hcreate : create setup registry now = .ok c) (es : List CoordinatorEvent) :
    (c.run es).Identifies := by
  obtain ⟨rfl, hpos⟩ := eq_start_of_create hcreate
  refine ((introduced_start setup now).run es).identifies ?_
  rw [expected, setup_run]
  exact hpos

/-- Of four peers the third says hello first, the second does not say hello at all, the fourth says
    hello but cannot be written to, and the first is the last to be told an id. -/
def reception : List CoordinatorEvent :=
  [.connect, .connect, .connect, .connect, .sever 3 0, .arrive 1 (.message .ready),
   .arrive 2 (.message (.hello none)), .arrive 3 (.message (.hello none)), .read 3, .read 2,
   .read 1, .arrive 0 (.message (.hello none)), .read 0]

theorem identifies_run_reception :
    create twoWorkers .builtin 0 = .ok (start twoWorkers 0) ∧
      ((start twoWorkers 0).run reception).Identifies ∧
      ((start twoWorkers 0).run reception).IsTold 2 0 ∧
      ((start twoWorkers 0).run reception).IsTold 0 1 ∧
      ((start twoWorkers 0).run reception).workers = [2, 0] := by
  have hcreate : create twoWorkers .builtin 0 = .ok (start twoWorkers 0) := rfl
  exact ⟨hcreate, identifies_run hcreate reception, by decide, by decide, by decide⟩

end TxLoad.Coordinator
