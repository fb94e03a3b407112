import TxLoad.Coordinator.Session
import TxLoad.Proofs.Coordinator.Ending

namespace TxLoad.Coordinator

/-!
# How long a coordinator waits

No peer can hold a coordinator, neither by silence nor by an endless flood of messages: every stage
ends by its deadline.

* `effort` falls with every event of the coordinator's own (`effort_step_lt`), so that there are
  finitely many of them at one instant, and `Session.settle` does them all
  (`nextEvent?_settle`).
* `now_lt_of_quiet`: a coordinator that has nothing left to do has not reached its deadline.
* `endure`: rounds of whatever events, each followed by a millisecond.
* `IsTimely`: the deadline of the present stage, seen from its beginning and from that of the run;
  `Endures.step`: a stage keeps its deadline as long as it lasts.
* `isUnheld_start`: how long each stage and the whole run may last.
-/

variable {c d : Coordinator}

/-! ### What is left to do at an instant -/

/-- How many readings have arrived and were not read yet. -/
def waiting (c : Coordinator) : Nat := (c.lines.map (·.inbox.length)).sum

/-- How many events of the coordinator's own may follow at an instant. -/
def effort (c : Coordinator) : Nat :=
  c.waiting + (if c.interrupt = .requested then 1 else 0) + c.phase.rank

private theorem sum_modify_add {ps : List Peer} {q : Nat} {p : Peer} (h : ps[q]? = some p)
    (f : Peer → Peer) (g : Peer → Nat) :
    ((ps.modify q f).map g).sum + g p = (ps.map g).sum + g (f p) := by
  induction ps generalizing q with
  | nil => cases h
  | cons p' ps ih =>
    cases q with
    | zero =>
      obtain rfl : p' = p := Option.some.inj h
      simp only [List.modify_zero_cons, List.map_cons, List.sum_cons]
      omega
    | succ q =>
      have := ih (q := q) h
      simp only [List.modify_succ_cons, List.map_cons, List.sum_cons]
      omega

theorem waiting_eq (c : Coordinator) : c.waiting = (c.peers.map (·.inbox.length)).sum := by
  simp [waiting, lines, Function.comp_def]

/-- What is read does not wait any longer. -/
theorem waiting_take {q : Nat} {r : Reading} {inbox : List Reading} (h : c.inbox q = r :: inbox) :
    (c.take q r inbox).waiting + 1 = c.waiting := by
  obtain ⟨p, hp⟩ : ∃ p, c.peers[q]? = some p :=
    ⟨_, List.getElem?_eq_getElem (lt_of_inbox h)⟩
  have hinbox : p.inbox = r :: inbox := by simpa [Coordinator.inbox, hp] using h
  have hsum : ((c.peers.modify q fun p => { p with inbox }).map (·.inbox.length)).sum +
      p.inbox.length = (c.peers.map (·.inbox.length)).sum + inbox.length :=
    sum_modify_add hp _ _
  have htake : (c.take q r inbox).peers = c.peers.modify q fun p => { p with inbox } := rfl
  rw [hinbox, List.length_cons] at hsum
  rw [waiting_eq, waiting_eq, htake]
  omega

theorem waiting_of_keeps (h : c.Keeps d) : d.waiting = c.waiting := by
  rw [waiting, h.lines, waiting]

/-- Reading does not touch an interrupt. -/
theorem Inv.interrupt_onRead (h : c.Inv) {q : Nat} {r : Reading} {inbox : List Reading}
    (hlisten : c.listensTo q = true) :
    ((c.take q r inbox).onRead q r).interrupt = c.interrupt := by
  obtain ⟨hb, hprep | hs⟩ := h
  · exact (interrupt_of_backdrop (hprep.backdrop_onRead hb hlisten)).trans rfl
  · rw [onRead, phase_take]
    cases hs with
    | running hp h =>
      simp only [hp]
      split
      · rename_i id hid
        have hq := (idOf?_eq_some_iff hb.nodup).mp hid
        obtain ⟨e, he⟩ := h.exists_entry hq
        have ha : (c.take q r inbox).Attends id e r ((c.take q r inbox).onReading id r) :=
          attends_onReading (c := c.take q r inbox) he r
        exact (spares_settle _).interrupt.trans (congrArg Coordinator.interrupt ha.rest :)
      · rfl
    | shuttingDown hp h hsettled =>
      simp only [hp]
      split
      · refine (spares_leave _).interrupt.trans ?_
        cases r <;> rfl
      · rfl
    | finished hp => simp [listensTo, hp] at hlisten

/-- Neither does the deadline. -/
theorem Inv.interrupt_expire (h : c.Inv) : c.expire.interrupt = c.interrupt := by
  obtain ⟨hb, hprep | hs⟩ := h
  · exact interrupt_of_backdrop (hprep.backdrop_expire hb)
  · rw [expire]
    cases hs with
    | running hp =>
      simp only [hp]
      exact (spares_settle _).interrupt.trans rfl
    | shuttingDown hp =>
      simp only [hp]
      exact (spares_conclude _).interrupt
    | finished hp => simp only [hp]

/-- The events of the coordinator's own that are no news from outside. -/
inductive IsOwn : CoordinatorEvent → Prop
  | read (q : Nat) : IsOwn (.read q)
  | heed : IsOwn .heed
  | expire : IsOwn .expire

/-- **Effort.** Every event of the coordinator's own leaves less to do. -/
theorem effort_step_lt (h : c.Inv) {ev : CoordinatorEvent} (hown : IsOwn ev)
    (hcan : c.canHappen ev = true) : (c.step ev).effort < c.effort := by
  have hrank := rank_step_le h ev
  have hr := reacts_act hcan
  have hstep : c.step ev = c.act ev := if_pos hcan
  rw [← hstep] at hr
  cases hown with
  | read q =>
    generalize hd : c.step (.read q) = d at hr hrank
    cases hr with
    | refused hno =>
      rw [hcan] at hno
      cases hno
    | @read _ r inbox hlisten hin =>
      have hwaiting := waiting_of_keeps (keeps_onRead (c.take q r inbox) q r)
      have htake := waiting_take hin
      rw [effort, effort, h.interrupt_onRead hlisten]
      omega
  | heed =>
    generalize hd : c.step .heed = d at hr hrank
    cases hr with
    | refused hno =>
      rw [hcan] at hno
      cases hno
    | heed hp hi =>
      have hwaiting := waiting_of_keeps c.keeps_heed
      have hheeded : c.heed.interrupt = .heeded := rfl
      rw [effort, effort, hheeded, hi, if_neg (by decide), if_pos rfl]
      omega
  | expire =>
    have hlt := rank_expire_lt h hcan
    generalize hd : c.step .expire = d at hr hlt
    cases hr with
    | refused hno =>
      rw [hcan] at hno
      cases hno
    | expire hdeadline hnow hin =>
      have hwaiting := waiting_of_keeps c.keeps_expire
      rw [effort, effort, h.interrupt_expire]
      omega

/-- The coordinator's next event is one of its own that can happen. -/
theorem nextEvent?_eq_some {ev : CoordinatorEvent} (h : Session.nextEvent? c = some ev) :
    IsOwn ev ∧ c.canHappen ev = true := by
  unfold Session.nextEvent? at h
  refine ⟨?_, List.find?_some h⟩
  have hmem := List.mem_of_find?_eq_some h
  simp only [List.mem_append, List.mem_map, List.mem_range, List.mem_cons, List.not_mem_nil,
    or_false] at hmem
  rcases hmem with ⟨q, -, rfl⟩ | rfl | rfl
  · exact .read q
  · exact .heed
  · exact .expire

/-- A coordinator without a next event has nothing left to do. -/
theorem canHappen_of_quiet (h : Session.nextEvent? c = none) {ev : CoordinatorEvent}
    (hown : IsOwn ev) : c.canHappen ev = false := by
  unfold Session.nextEvent? at h
  rw [List.find?_eq_none] at h
  cases hown with
  | read q =>
    by_cases hq : q < c.peers.length
    · have := h (.read q) (by simp [hq])
      simpa using this
    · -- Nothing has arrived from a peer that does not exist.
      have hinbox : c.inbox q = [] := by
        rw [inbox, List.getElem?_eq_none (by omega)]
        rfl
      simp [canHappen, hinbox]
  | heed => simpa using h .heed (by simp)
  | expire => simpa using h .expire (by simp)

/-- Settling is a run of the coordinator's own events. -/
theorem exists_run_settleFor (fuel : Nat) (c : Coordinator) :
    ∃ es, Session.settleFor fuel c = c.run es := by
  induction fuel generalizing c with
  | zero => exact ⟨[], rfl⟩
  | succ fuel ih =>
    rw [Session.settleFor]
    cases Session.nextEvent? c with
    | none => exact ⟨[], rfl⟩
    | some ev =>
      obtain ⟨es, hes⟩ := ih (c.step ev)
      exact ⟨ev :: es, hes⟩

theorem exists_run_settle (c : Coordinator) : ∃ es, Session.settle c = c.run es :=
  exists_run_settleFor _ c

theorem nextEvent?_settleFor (h : c.Inv) {fuel : Nat} (hfuel : c.effort < fuel) :
    Session.nextEvent? (Session.settleFor fuel c) = none := by
  induction fuel generalizing c with
  | zero => omega
  | succ fuel ih =>
    rw [Session.settleFor]
    cases hnext : Session.nextEvent? c with
    | none => exact hnext
    | some ev =>
      obtain ⟨hown, hcan⟩ := nextEvent?_eq_some hnext
      have hlt := effort_step_lt h hown hcan
      exact ih (h.step ev) (by omega)

theorem effort_lt_budget (c : Coordinator) : c.effort < Session.budget c := by
  have hsum : Session.budget c = 6 + c.waiting := by
    rw [waiting_eq, List.sum_eq_foldl, Session.budget]
    exact @List.foldl_assoc Nat _ _ _ 6 0
  have hrank : c.phase.rank ≤ 4 := by cases c.phase <;> simp [CoordinatorPhase.rank]
  rw [effort, hsum]
  split <;> omega

/-- **Settling.** A coordinator that has settled has nothing left to do at this instant. -/
theorem nextEvent?_settle (h : c.Inv) : Session.nextEvent? (Session.settle c) = none :=
  nextEvent?_settleFor h c.effort_lt_budget

/-! ### The clock -/

/-- A coordinator that has nothing left to do has not reached its deadline. -/
theorem now_lt_of_quiet (hquiet : Session.nextEvent? c = none) {deadline : Nat}
    (hd : c.deadline? = some deadline) : c.now < deadline := by
  by_contra hnow
  have hexpire := canHappen_of_quiet hquiet .expire
  simp only [canHappen, hd, Option.any_some, Bool.and_eq_false_iff, decide_eq_false_iff_not]
    at hexpire
  rcases hexpire with hexpire | hexpire
  · omega
  · -- Only an answer that has arrived holds up the deadline, and that can be read.
    split at hexpire
    · rename_i next deadline' hp
      obtain ⟨q, hq, hin⟩ : ∃ q, c.workers[next]? = some q ∧ (c.inbox q).isEmpty = false := by
        cases hq : c.workers[next]? with
        | none => simp [hq] at hexpire
        | some q => exact ⟨q, rfl, by simpa [hq] using hexpire⟩
      have hread := canHappen_of_quiet hquiet (.read q)
      simp [canHappen, listensTo, hp, hq, hin] at hread
    · cases hexpire

theorem now_step_advance (c : Coordinator) (ms : Nat) :
    (c.step (.advance ms)).now = c.deadline?.elim (c.now + ms) (min (c.now + ms)) := by
  have hr := c.reacts_step (.advance ms)
  generalize c.step (.advance ms) = d at hr ⊢
  cases hr with
  | refused hcan => cases hcan
  | advance hnow => exact hnow

/-- No event takes the clock back or beyond the deadline. -/
theorem now_step_of_deadline {deadline : Nat} (hd : c.deadline? = some deadline)
    (hnow : c.now ≤ deadline) (ev : CoordinatorEvent) :
    c.now ≤ (c.step ev).now ∧ (c.step ev).now ≤ deadline := by
  by_cases hev : ∃ ms, ev = .advance ms
  · obtain ⟨ms, rfl⟩ := hev
    rw [now_step_advance, hd, Option.elim_some]
    omega
  · rw [c.now_step fun ms hms => hev ⟨ms, hms⟩]
    exact ⟨Nat.le_refl _, hnow⟩

/-- Time never runs backwards. -/
theorem le_now_step (hdue : ∀ deadline, c.deadline? = some deadline → c.now ≤ deadline)
    (ev : CoordinatorEvent) : c.now ≤ (c.step ev).now := by
  cases hd : c.deadline? with
  | some deadline => exact (now_step_of_deadline hd (hdue _ hd) ev).1
  | none =>
    by_cases hev : ∃ ms, ev = .advance ms
    · obtain ⟨ms, rfl⟩ := hev
      rw [now_step_advance, hd]
      exact Nat.le_add_right _ _
    · exact Nat.le_of_eq (c.now_step fun ms hms => hev ⟨ms, hms⟩).symm

/-! ### The bounds -/

/-- How long a stage may last. -/
def stageMs (s : CoordinatorSetup) : CoordinatorStage → Nat
  | .waitingForWorkers => acceptMs s
  | .configuring => configureMs s
  | .running => runMs s
  | .shuttingDown => shutdownMs s
  | .done | .failed => 0

/-- How long the stages may last that follow a stage. -/
def laterMs (s : CoordinatorSetup) : CoordinatorStage → Nat
  | .waitingForWorkers => configureMs s + runMs s + shutdownMs s
  | .configuring => runMs s + shutdownMs s
  | .running => shutdownMs s
  | .shuttingDown | .done | .failed => 0

/-- How long all stages may last. -/
def totalMs (s : CoordinatorSetup) : Nat :=
  acceptMs s + configureMs s + runMs s + shutdownMs s

/-- What holds at all times of a coordinator that was started at the instant `origin`: its deadline
    has not passed, leaves the stage no more than its time, and leaves the stages that follow all of
    theirs. -/
structure IsTimely (origin : Nat) (c : Coordinator) : Prop where
  inv : c.Inv
  due : ∀ deadline, c.deadline? = some deadline → c.now ≤ deadline ∧
    deadline ≤ c.now + stageMs c.setup c.stage ∧
      deadline + laterMs c.setup c.stage ≤ origin + totalMs c.setup

theorem isTimely_start (setup : CoordinatorSetup) (now : Nat) :
    (start setup now).IsTimely now where
  inv := inv_start setup now
  due deadline hd := by
    obtain rfl : now + acceptMs setup = deadline := Option.some.inj hd
    refine ⟨Nat.le_add_right _ _, Nat.le_refl _, ?_⟩
    show now + acceptMs setup + (configureMs setup + runMs setup + shutdownMs setup) ≤
      now + totalMs setup
    rw [totalMs]
    omega

/-- A stage keeps its deadline as long as it lasts. -/
theorem deadline_step (h : c.Inv) (ev : CoordinatorEvent) :
    (c.step ev).phase.rank < c.phase.rank ∨
      (c.step ev).deadline? = c.deadline? ∧ (c.step ev).stage = c.stage := by
  have hproceeds := proceeds_step h ev
  unfold deadline? stage
  generalize (c.step ev).phase = phase at hproceeds
  cases hproceeds with
  | same => exact .inr ⟨rfl, rfl⟩
  | agreed hp =>
    rw [hp]
    exact .inr ⟨rfl, rfl⟩
  | opened ho =>
    obtain ⟨_, _, _, _, hp, -⟩ := ho
    rw [hp]
    exact .inl (Nat.lt_succ_self 2)
  | called hp | undistributed hp | tooFew hp | refused hp | late hp | settled hp =>
    rw [hp]
    exact .inl (by simp [CoordinatorPhase.rank])
  | concluded hp =>
    rcases hp with hp | hp <;> rw [hp] <;> exact .inl (Nat.zero_lt_succ _)

/-- A stage that goes on, while time may pass up to its deadline. -/
theorem IsTimely.goes_on {origin : Nat} (h : c.IsTimely origin) {ev : CoordinatorEvent}
    (hdeadline : (c.step ev).deadline? = c.deadline?) (hstage : (c.step ev).stage = c.stage) :
    (c.step ev).IsTimely origin := by
  refine ⟨h.inv.step ev, fun deadline hd => ?_⟩
  rw [hdeadline] at hd
  obtain ⟨hdue, hspan, htotal⟩ := h.due deadline hd
  obtain ⟨hle, hnow⟩ := now_step_of_deadline hd hdue ev
  rw [c.setup_step, hstage]
  exact ⟨hnow, by omega, htotal⟩

/-- A stage that begins has its full time, since the one before has not used up more than its
    own. -/
theorem IsTimely.enters {origin deadline : Nat} (h : c.IsTimely origin) {ev : CoordinatorEvent}
    (hd : c.deadline? = some deadline) (hnow : (c.step ev).now = c.now)
    (hd' : (c.step ev).deadline? = some (c.now + stageMs c.setup (c.step ev).stage))
    (hlater : stageMs c.setup (c.step ev).stage + laterMs c.setup (c.step ev).stage ≤
      laterMs c.setup c.stage) : (c.step ev).IsTimely origin := by
  refine ⟨h.inv.step ev, fun deadline' hdeadline => ?_⟩
  obtain ⟨hdue, -, htotal⟩ := h.due deadline hd
  obtain rfl := Option.some.inj (hd'.symm.trans hdeadline)
  rw [c.setup_step, hnow]
  omega

/-- **Step lemma.** Every event keeps a coordinator timely. -/
theorem IsTimely.step {origin : Nat} (h : c.IsTimely origin) (ev : CoordinatorEvent) :
    (c.step ev).IsTimely origin := by
  by_cases hev : ∃ ms, ev = .advance ms
  · obtain ⟨ms, rfl⟩ := hev
    obtain ⟨now, -, hstep⟩ := c.step_advance ms
    exact h.goes_on (by rw [hstep]; rfl) (by rw [hstep]; rfl)
  have hnow := c.now_step fun ms hms => hev ⟨ms, hms⟩
  have hproceeds := proceeds_step h.inv ev
  -- The run has ended, and nothing is waited for.
  have hends : ∀ {result}, (c.step ev).phase = .finished result → (c.step ev).IsTimely origin := by
    intro result hp
    refine ⟨h.inv.step ev, fun deadline hd => ?_⟩
    rw [deadline?, hp] at hd
    cases hd
  generalize hphase : (c.step ev).phase = phase at hproceeds
  cases hproceeds with
  | same => exact h.goes_on (by rw [deadline?, hphase]; rfl) (by rw [stage, hphase]; rfl)
  | agreed hp =>
    exact h.goes_on (by rw [deadline?, hphase, deadline?, hp]) (by rw [stage, hphase, stage, hp])
  | @called q deadline hp =>
    have hstage : (c.step (.read q)).stage = .configuring := by rw [stage, hphase]
    refine h.enters (by rw [deadline?, hp]) hnow (by rw [deadline?, hphase, hstage]; rfl) ?_
    rw [hstage, stage, hp]
    simp only [stageMs, laterMs]
    omega
  | opened ho =>
    obtain ⟨_, _, _, _, hp, -⟩ := ho
    have hstage : (c.step ev).stage = .running := by rw [stage, hphase]
    refine h.enters (by rw [deadline?, hp]) hnow (by rw [deadline?, hphase, hstage]; rfl) ?_
    rw [hstage, stage, hp]
    exact Nat.le_refl _
  | settled hp =>
    have hstage : (c.step ev).stage = .shuttingDown := by rw [stage, hphase]
    refine h.enters (by rw [deadline?, hp]) hnow (by rw [deadline?, hphase, hstage]; rfl) ?_
    rw [hstage, stage, hp]
    simp only [stageMs, laterMs]
    omega
  | undistributed | tooFew | refused | late | concluded => exact hends hphase

/-- **Run lemma.** -/
theorem IsTimely.run {origin : Nat} (h : c.IsTimely origin) (es : List CoordinatorEvent) :
    (c.run es).IsTimely origin :=
  of_run (fun _ ev hc => hc.step ev) h es

/-- A coordinator that runs on does not go back in time. -/
theorem IsTimely.le_now_run {origin : Nat} (h : c.IsTimely origin) (es : List CoordinatorEvent) :
    c.now ≤ (c.run es).now := by
  induction es generalizing c with
  | nil => exact Nat.le_refl _
  | cons ev es ih =>
    have hstep := le_now_step (fun deadline hd => (h.due deadline hd).1) ev
    exact Nat.le_trans hstep (ih (h.step ev))

/-! ### Rounds -/

/-- A millisecond passes, whatever the deadline. -/
def tick (c : Coordinator) : Coordinator := { c with now := c.now + 1 }

/-- Rounds of whatever events: at the end of each the coordinator does what it can, and a
    millisecond passes. -/
def endure (c : Coordinator) (rounds : List (List CoordinatorEvent)) : Coordinator :=
  rounds.foldl (fun c es => (Session.settle (c.run es)).tick) c

theorem Inv.tick (h : c.Inv) : c.tick.Inv where
  basics := h.basics.congr rfl rfl rfl (Nat.le_refl _)
  stage := h.stage.imp (fun hprep => hprep.frame _ _ _ fun _ hq => hq) fun hs => hs.frame _ _ _

/-- **Tick lemma.** The clock that goes on when the coordinator has nothing left to do keeps it
    timely. -/
theorem IsTimely.tick {origin : Nat} (h : c.IsTimely origin)
    (hquiet : Session.nextEvent? c = none) : c.tick.IsTimely origin := by
  refine ⟨h.inv.tick, fun deadline hd => ?_⟩
  have hlt := now_lt_of_quiet hquiet hd
  obtain ⟨-, hspan, htotal⟩ := h.due deadline hd
  show c.now + 1 ≤ deadline ∧ deadline ≤ c.now + 1 + stageMs c.setup c.stage ∧
    deadline + laterMs c.setup c.stage ≤ origin + totalMs c.setup
  omega

/-- One round. -/
theorem IsTimely.round {origin : Nat} (h : c.IsTimely origin) (es : List CoordinatorEvent) :
    (Session.settle (c.run es)).tick.IsTimely origin := by
  have hrun := h.run es
  obtain ⟨own, hown⟩ := exists_run_settle (c.run es)
  have hsettled : (Session.settle (c.run es)).IsTimely origin := hown ▸ hrun.run own
  exact hsettled.tick (nextEvent?_settle hrun.inv)

theorem IsTimely.endure {origin : Nat} (h : c.IsTimely origin)
    (rounds : List (List CoordinatorEvent)) : (c.endure rounds).IsTimely origin := by
  induction rounds generalizing c with
  | nil => exact h
  | cons es rounds ih => exact ih (h.round es)

/-- Every round takes its time. -/
theorem IsTimely.now_endure {origin : Nat} (h : c.IsTimely origin)
    (rounds : List (List CoordinatorEvent)) : c.now + rounds.length ≤ (c.endure rounds).now := by
  induction rounds generalizing c with
  | nil => exact Nat.le_refl _
  | cons es rounds ih =>
    have hround := ih (h.round es)
    obtain ⟨own, hown⟩ := exists_run_settle (c.run es)
    have hrun := h.le_now_run es
    have hsettle : (c.run es).now ≤ (Session.settle (c.run es)).now :=
      hown ▸ (h.run es).le_now_run own
    have htick : (Session.settle (c.run es)).tick.now = (Session.settle (c.run es)).now + 1 := rfl
    rw [List.length_cons]
    have hendure : c.endure (es :: rounds) = (Session.settle (c.run es)).tick.endure rounds := rfl
    rw [hendure]
    omega

theorem setup_settle (c : Coordinator) : (Session.settle c).setup = c.setup := by
  obtain ⟨own, hown⟩ := exists_run_settle c
  rw [hown, setup_run]

theorem setup_endure (c : Coordinator) (rounds : List (List CoordinatorEvent)) :
    (c.endure rounds).setup = c.setup := by
  induction rounds generalizing c with
  | nil => rfl
  | cons es rounds ih =>
    exact (ih _).trans ((setup_settle _).trans (c.setup_run es))

/-! ### One stage -/

/-- Either a later stage has been reached, or the stage goes on with its deadline. -/
def Endures (c d : Coordinator) : Prop :=
  d.phase.rank < c.phase.rank ∨ d.phase.rank = c.phase.rank ∧ d.deadline? = c.deadline?

theorem endures_refl (c : Coordinator) : c.Endures c := .inr ⟨rfl, rfl⟩

theorem Endures.step (h : c.Endures d) (hd : d.Inv) (ev : CoordinatorEvent) :
    c.Endures (d.step ev) := by
  have hrank := rank_step_le hd ev
  rcases h with hlt | ⟨heq, hdeadline⟩
  · exact .inl (by omega)
  · rcases deadline_step hd ev with hlt | ⟨hsame, -⟩
    · exact .inl (by omega)
    · by_cases hlt : (d.step ev).phase.rank < c.phase.rank
      · exact .inl hlt
      · exact .inr ⟨by omega, hsame.trans hdeadline⟩

theorem Endures.run (h : c.Endures d) (hd : d.Inv) (es : List CoordinatorEvent) :
    c.Endures (d.run es) := by
  induction es generalizing d with
  | nil => exact h
  | cons ev es ih => exact ih (h.step hd ev) (hd.step ev)

theorem Endures.endure {origin : Nat} (h : c.Endures d) (hd : d.IsTimely origin)
    (rounds : List (List CoordinatorEvent)) : c.Endures (d.endure rounds) := by
  induction rounds generalizing d with
  | nil => exact h
  | cons es rounds ih =>
    obtain ⟨own, hown⟩ := exists_run_settle (d.run es)
    have hsettled : c.Endures (Session.settle (d.run es)) :=
      hown ▸ (h.run hd.inv es).run (hd.run es).inv own
    -- The clock changes neither the stage nor its deadline.
    exact ih hsettled (hd.round es)

/-- Stages tell the phases apart. -/
theorem rank_of_stage (h : d.stage = c.stage) : d.phase.rank = c.phase.rank := by
  unfold stage at h
  cases hd : d.phase with
  | finished r =>
    cases hc : c.phase with
    | finished r' => rfl
    | _ => cases r <;> simp [hd, hc] at h
  | _ =>
    cases hc : c.phase with
    | finished r' => cases r' <;> simp [hd, hc] at h
    | _ => simp_all [CoordinatorPhase.rank]

/-- A coordinator that has not finished has a deadline. -/
theorem exists_deadline (h : c.isFinished = false) : ∃ deadline, c.deadline? = some deadline := by
  unfold isFinished result? at h
  unfold deadline?
  cases hp : c.phase with
  | finished r => simp [hp] at h
  | _ => exact ⟨_, rfl⟩

/-- A coordinator that has not finished has not used up the time of all stages. -/
theorem IsTimely.now_le {origin : Nat} (h : c.IsTimely origin) (hf : c.isFinished = false) :
    c.now ≤ origin + totalMs c.setup := by
  obtain ⟨deadline, hd⟩ := exists_deadline hf
  obtain ⟨hdue, -, htotal⟩ := h.due deadline hd
  omega

/-- A stage that goes on has not used up its time. -/
theorem IsTimely.now_le_of_stage {origin : Nat} (hc : c.IsTimely origin) (hd : d.IsTimely origin)
    (he : c.Endures d) (hf : d.isFinished = false) (hstage : d.stage = c.stage) :
    d.now ≤ c.now + stageMs c.setup c.stage := by
  obtain ⟨deadline, hdeadline⟩ := exists_deadline hf
  obtain ⟨hdue, -, -⟩ := hd.due deadline hdeadline
  have hsame : d.deadline? = c.deadline? := by
    rcases he with hlt | ⟨-, hsame⟩
    · rw [rank_of_stage hstage] at hlt
      exact absurd hlt (Nat.lt_irrefl _)
    · exact hsame
  obtain ⟨-, hspan, -⟩ := hc.due deadline (hsame ▸ hdeadline)
  omega

/-! ### Every run -/

/-- How long a coordinator that was just started can be held up, whatever happens in how many rounds
    and at which moment of a round one looks. -/
structure IsUnheld (c : Coordinator) : Prop where
  /-- No stage lasts longer than its time. -/
  stays : ∀ rounds es rounds' es',
    let d := (c.endure rounds).run es
    let d' := (d.endure rounds').run es'
    d'.isFinished = false → d'.stage = d.stage → d'.now ≤ d.now + stageMs c.setup d.stage
  /-- Neither does the run last longer than all stages. -/
  ends : ∀ rounds es,
    let d := (c.endure rounds).run es
    d.isFinished = false → d.now ≤ c.now + totalMs c.setup
  /-- It ends. -/
  returns : ∀ rounds, totalMs c.setup < rounds.length → (c.endure rounds).isFinished = true

/-- **No peer can hold a coordinator.** Whatever arrives from the peers and whatever does not, every
    stage ends within its time, and the run within the sum of these times. -/
theorem isUnheld_start (setup : CoordinatorSetup) (now : Nat) : (start setup now).IsUnheld := by
  have htimely : (start setup now).IsTimely now := isTimely_start setup now
  have hsetup : ∀ rounds es, (((start setup now).endure rounds).run es).setup = setup :=
    fun rounds es => (setup_run _ es).trans (setup_endure _ rounds)
  constructor
  · intro rounds es rounds' es' d d' hf hstage
    have hd : d.IsTimely now := (htimely.endure rounds).run es
    have hendures : d.Endures d' :=
      ((endures_refl d).endure hd rounds').run (hd.endure rounds').inv es'
    have hspan := hd.now_le_of_stage ((hd.endure rounds').run es') hendures hf hstage
    rwa [hsetup rounds es] at hspan
  · intro rounds es d hf
    have hd : d.IsTimely now := (htimely.endure rounds).run es
    have htotal := hd.now_le hf
    rwa [hsetup rounds es] at htotal
  · intro rounds hrounds
    by_contra hf
    have htotal := (htimely.endure rounds).now_le (by simpa using hf)
    rw [setup_endure] at htotal
    -- By then more rounds have passed than the run can last.
    have hclock := htimely.now_endure rounds
    have hnow : (start setup now).now = now := rfl
    omega

end TxLoad.Coordinator
