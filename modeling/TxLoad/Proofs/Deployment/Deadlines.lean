import TxLoad.Proofs.Deployment.OnTime

namespace TxLoad.TimedDeployment

/-!
# Deadlines of a deployment on one clock

While links hold, the coordinator never waits up to a deadline for a worker that was sent the
configuration or told to start.

* `IsBriefed`, `IsUnderway`: since when the workers have been preparing or running, and that all of
  them will be done in time.
* `Inv` is the invariant; `Inv.conduct`, `Inv.put` and `Inv.tick` are its steps.
* `Inv.clock_le_of_configuring`, `Inv.clock_le_of_running`: the clock does not come to the deadlines.
* `Inv.step`, `Inv.run`: the invariant holds in every run.
-/

variable {n : Nat} {t : TimedDeployment n}

/-! ### The invariant -/

/-- The configuration was written at the instant `first`, and every worker answers it in time. -/
structure IsBriefed (t : TimedDeployment n) (first : Nat) : Prop where
  clock_le : t.clock ≤ first + Discovery.waitMs t.coordinator.setup.cfg
  prepares : ∀ i q, (t.members i).peer? = some q → q ∈ t.coordinator.workers →
    (t.members i).Prepares t.clock first (first + Discovery.waitMs t.coordinator.setup.cfg)

/-- How long a worker may take to send its last report: the time of the run, and the connect or send
    that may then be under way. -/
def performMs (cfg : Config) : Nat :=
  Clock.seconds cfg.time.toNat + Clock.seconds cfg.sendTimeout.toNat

/-- The workers were started at the instant `first`, and every worker sends its last report in
    time. -/
structure IsUnderway (t : TimedDeployment n) (first : Nat) : Prop where
  first_le : first ≤ t.clock
  clock_le : t.clock ≤ first + performMs t.coordinator.setup.cfg
  plays : ∀ i q, (t.members i).peer? = some q → q ∈ t.coordinator.workers →
    (t.members i).Plays t.clock first (first + performMs t.coordinator.setup.cfg)

/-- **The invariant** of a deployment on one clock. -/
structure Inv (t : TimedDeployment n) : Prop where
  deployment : t.toDeployment.Inv
  steady : t.coordinator.IsSteady
  now : t.clock ≤ t.coordinator.now
  members : ∀ i, (t.members i).IsOnTime t.clock
  configuring : ∀ next deadline, t.coordinator.phase = .configuring next deadline →
    ∃ first, deadline = first + Coordinator.configureMs t.coordinator.setup ∧ t.IsBriefed first
  running : ∀ deadline, t.coordinator.phase = .running deadline →
    ∃ first, deadline = first + Coordinator.runMs t.coordinator.setup ∧ t.IsUnderway first
  /-- No worker is lost. -/
  present : ∀ id e, t.coordinator.collector.entryOf? id = some e → e.status ≠ .lost
  /-- No worker is late. -/
  prompt : ∀ id, t.coordinator.phase ≠ .finished (.error (Coordinator.tardy id))

theorem inv_start (setup : CoordinatorSetup) (now : Nat) (crew : Fin n → WorkerSetup × Nat) :
    (start (.start setup now) crew).Inv where
  deployment := Deployment.inv_start setup now crew
  steady := Coordinator.isSteady_start setup now
  now := Nat.zero_le _
  members i := Member.isOnTime_start _ _
  configuring next deadline hp := by cases hp
  running deadline hp := by cases hp
  present id e he := by cases he
  prompt id hp := by cases hp

/-! ### Deadlines -/

/-- What the deadlines rest on: there is some time to connect, and some time after the last send. -/
structure HasMargin (s : CoordinatorSetup) : Prop where
  connect : 1 ≤ s.settings.workerConnectTimeout.toNat
  leave : 1 ≤ s.cfg.sendTimeout.toNat + s.settings.shutdownWait.toNat

theorem configureMs_eq (s : CoordinatorSetup) :
    Coordinator.configureMs s = Coordinator.acceptMs s + Discovery.waitMs s.cfg := by
  unfold Coordinator.configureMs Discovery.waitMs
  cases hmethod : s.cfg.selectMethod with
  | supplied => exact (Nat.add_zero _).symm
  | _ => rfl

theorem runMs_eq (s : CoordinatorSetup) : Coordinator.runMs s =
    performMs s.cfg + Clock.seconds s.cfg.sendTimeout.toNat + Coordinator.shutdownMs s := by
  unfold Coordinator.runMs performMs
  omega

/-- The clock does not come to the deadline for consent. -/
theorem Inv.clock_le_of_configuring (h : t.Inv)
    {next deadline : Nat} (hp : t.coordinator.phase = .configuring next deadline) :
    t.clock + Coordinator.acceptMs t.coordinator.setup ≤ deadline := by
  obtain ⟨first, rfl, hbriefed⟩ := h.configuring next deadline hp
  have hclock := hbriefed.clock_le
  rw [configureMs_eq]
  omega

theorem Inv.clock_le_of_running (h : t.Inv) {deadline : Nat}
    (hp : t.coordinator.phase = .running deadline) :
    t.clock + Clock.seconds t.coordinator.setup.cfg.sendTimeout.toNat +
      Coordinator.shutdownMs t.coordinator.setup ≤ deadline := by
  obtain ⟨first, rfl, hunderway⟩ := h.running deadline hp
  have hclock := hunderway.clock_le
  rw [runMs_eq]
  omega

/-! ### Steps of a worker and of its links -/

/-- How a member may change without falling behind. -/
structure Follows (t : TimedDeployment n) (i : Fin n) (m : Member) : Prop where
  peer : ∀ q, m.peer? = some q → q ∈ t.coordinator.workers → (t.members i).peer? = some q
  onTime : m.IsOnTime t.clock
  prepares : ∀ next deadline, t.coordinator.phase = .configuring next deadline →
    ∀ q first, (t.members i).peer? = some q → q ∈ t.coordinator.workers →
      (t.members i).Prepares t.clock first
        (first + Discovery.waitMs t.coordinator.setup.cfg) →
      m.Prepares t.clock first (first + Discovery.waitMs t.coordinator.setup.cfg)
  plays : ∀ deadline, t.coordinator.phase = .running deadline →
    ∀ q first, (t.members i).peer? = some q → q ∈ t.coordinator.workers →
      (t.members i).Plays t.clock first (first + performMs t.coordinator.setup.cfg) →
      m.Plays t.clock first (first + performMs t.coordinator.setup.cfg)

/-- What arrives from outside changes nothing that the coordinator waits for. -/
structure Stays (c d : Coordinator) : Prop where
  setup : d.setup = c.setup
  now : d.now = c.now
  phase : d.phase = c.phase
  workers : d.workers = c.workers
  collector : d.collector = c.collector

theorem stays_refl (c : Coordinator) : Stays c c := ⟨rfl, rfl, rfl, rfl, rfl⟩

/-- A member and what has arrived from it change. -/
theorem Inv.put (h : t.Inv) {c : Coordinator} {i : Fin n} {m : Member}
    (hd : (t.put c i m).toDeployment.Inv) (hsteady : c.IsSteady) (hc : Stays t.coordinator c)
    (hm : t.Follows i m) : (t.put c i m).Inv := by
  have hmembers : ∀ j, (t.put c i m).members j = if j = i then m else t.members j :=
    fun j => Deployment.members_set _ i j m
  have hsetup : (t.put c i m).coordinator.setup = t.coordinator.setup := hc.setup
  refine ⟨hd, hsteady, hc.now.symm ▸ h.now, fun j => ?_, fun next deadline hp => ?_,
    fun deadline hp => ?_, fun id e he => ?_, fun id hp => ?_⟩
  · rw [hmembers]
    by_cases hj : j = i
    · rw [if_pos hj]
      exact hm.onTime
    · rw [if_neg hj]
      exact h.members j
  · have hp' : t.coordinator.phase = .configuring next deadline := hc.phase.symm.trans hp
    obtain ⟨first, hfirst, hbriefed⟩ := h.configuring next deadline hp'
    refine ⟨first, hsetup.symm ▸ hfirst, hsetup.symm ▸ hbriefed.clock_le, fun j q hq hworker => ?_⟩
    have hworker' : q ∈ t.coordinator.workers := hc.workers ▸ hworker
    rw [hmembers] at hq ⊢
    rw [hsetup]
    by_cases hj : j = i
    · subst hj
      rw [if_pos rfl] at hq ⊢
      have hpeer := hm.peer q hq hworker'
      exact hm.prepares next deadline hp' q first hpeer hworker'
        (hbriefed.prepares j q hpeer hworker')
    · rw [if_neg hj] at hq ⊢
      exact hbriefed.prepares j q hq hworker'
  · have hp' : t.coordinator.phase = .running deadline := hc.phase.symm.trans hp
    obtain ⟨first, hfirst, hunderway⟩ := h.running deadline hp'
    refine ⟨first, hsetup.symm ▸ hfirst, hunderway.first_le, hsetup.symm ▸ hunderway.clock_le,
      fun j q hq hworker => ?_⟩
    have hworker' : q ∈ t.coordinator.workers := hc.workers ▸ hworker
    rw [hmembers] at hq ⊢
    rw [hsetup]
    by_cases hj : j = i
    · subst hj
      rw [if_pos rfl] at hq ⊢
      have hpeer := hm.peer q hq hworker'
      exact hm.plays deadline hp' q first hpeer hworker' (hunderway.plays j q hpeer hworker')
    · rw [if_neg hj] at hq ⊢
      exact hunderway.plays j q hq hworker'
  · exact h.present id e (hc.collector ▸ he)
  · exact h.prompt id (hc.phase.symm.trans hp)

/-- What was delivered to a worker that is to accept the configuration. -/
theorem Inv.deliveredTo_of_configuring (h : t.Inv) {next deadline : Nat}
    (hp : t.coordinator.phase = .configuring next deadline) {q : Nat}
    (hq : q ∈ t.coordinator.workers) :
    ∃ x, t.coordinator.deliveredTo q = [.hello (some x), .config t.coordinator.setup.cfg] := by
  obtain ⟨id, hid⟩ := List.mem_iff_getElem?.mp hq
  exact ⟨_, (h.steady.inv.isConfiguring hp).deliveredTo_eq hid⟩

/-- What was delivered to a worker from the start on. -/
theorem Inv.deliveredTo_of_started (h : t.Inv) (hs : t.coordinator.Started) {q : Nat}
    (hq : q ∈ t.coordinator.workers) : ∃ x more, t.coordinator.deliveredTo q =
      .hello (some x) :: .config t.coordinator.setup.cfg :: .start :: more := by
  obtain ⟨id, hid⟩ := List.mem_iff_getElem?.mp hq
  obtain ⟨rs, e, ms, hserves⟩ := hs.isUnderway.served id q hid
  obtain ⟨hlt, -⟩ := List.getElem?_eq_some_iff.mp hid
  obtain ⟨more, hmore⟩ := hserves.deliveredTo_eq (h.steady.reached hs id hlt)
  exact ⟨_, more, hmore⟩

/-- A worker acts in no time. -/
theorem Inv.follows_operate (h : t.Inv) {i : Fin n} {e : WorkerEvent} (he : e.isPrompt = true)
    (hnow : (t.members i).worker.now ≤ t.clock) :
    t.Follows i { t.members i with worker := (t.members i).worker.step e } := by
  have hinv := h.deployment.members i
  have ht := h.members i
  refine ⟨fun _ hq _ => hq, ht.operate hinv he, fun next deadline hp q first hq hworker hprep => ?_,
    fun deadline hp q first hq hworker hplays => ?_⟩
  · obtain ⟨x, hdelivered⟩ := h.deliveredTo_of_configuring hp hworker
    exact hprep.operate hinv ht hq hdelivered hnow
  · obtain ⟨x, more, hdelivered⟩ :=
      h.deliveredTo_of_started (h.steady.inv.started_of_running hp) hworker
    exact hplays.operate hinv ht hq hdelivered (by rw [performMs, Nat.add_assoc]) hnow

/-- Something arrives at a worker. -/
theorem Inv.follows_descend (h : t.Inv) {i : Fin n} {q : Nat} {r : Reading} {down : Link}
    (hn : (t.members i).down.next? (t.coordinator.deliveredTo q) none = some (r, down)) :
    t.Follows i
      { t.members i with worker := (t.members i).worker.step (.arrive r), down } := by
  have hinv := h.deployment.members i
  have ht := h.members i
  exact ⟨fun _ hq _ => hq, ht.descend hn,
    fun _ _ _ _ _ _ _ hprep => hprep.descend ht.unbroken.writable r down,
    fun _ _ _ _ _ _ hplays => hplays.descend hinv ht r down⟩

/-- Something arrives from a worker, or its link is closed. -/
theorem follows_up {i : Fin n} {up : Link} (ht : { t.members i with up }.IsOnTime t.clock) :
    t.Follows i { t.members i with up } :=
  ⟨fun _ hq _ => hq, ht, fun _ _ _ _ _ _ _ hprep => hprep.up up,
    fun _ _ _ _ _ _ hplays => hplays.up up⟩

/-- A link is accepted: the new peer is no worker yet. -/
theorem Inv.follows_accept (h : t.Inv) {i : Fin n} {deadline : Nat}
    (hp : t.coordinator.phase = .accepting deadline) :
    t.Follows i { t.members i with peer? := some t.coordinator.peers.length } := by
  have ht := h.members i
  refine ⟨fun _ hq hworker => ?_, ⟨ht.now, ht.unbroken, ht.excused, ht.up, ht.down⟩,
    fun _ _ hp' => ?_, fun _ hp' => ?_⟩
  · cases hq
    exact absurd (h.deployment.coordinator.basics.bounded _ hworker) (Nat.lt_irrefl _)
  · rw [hp] at hp'
    cases hp'
  · rw [hp] at hp'
    cases hp'

/-! ### Steps of the coordinator -/

/-- Neither what is on its way nor what has arrived matters for since when workers prepare. -/
theorem IsBriefed.congr {u : TimedDeployment n} {first : Nat} (h : t.IsBriefed first)
    (hclock : u.clock = t.clock) (hmembers : u.members = t.members)
    (hsetup : u.coordinator.setup = t.coordinator.setup)
    (hworkers : u.coordinator.workers = t.coordinator.workers) : u.IsBriefed first := by
  refine ⟨hclock ▸ hsetup ▸ h.clock_le, fun i q hq hworker => ?_⟩
  rw [hmembers] at hq ⊢
  rw [hclock, hsetup]
  exact h.prepares i q hq (hworkers ▸ hworker)

theorem IsUnderway.congr {u : TimedDeployment n} {first : Nat} (h : t.IsUnderway first)
    (hclock : u.clock = t.clock) (hmembers : u.members = t.members)
    (hsetup : u.coordinator.setup = t.coordinator.setup)
    (hworkers : u.coordinator.workers = t.coordinator.workers) : u.IsUnderway first := by
  refine ⟨hclock ▸ h.first_le, hclock ▸ hsetup ▸ h.clock_le, fun i q hq hworker => ?_⟩
  rw [hmembers] at hq ⊢
  rw [hclock, hsetup]
  exact h.plays i q hq (hworkers ▸ hworker)

/-- The coordinator acts. -/
def conduct (t : TimedDeployment n) (e : CoordinatorEvent) : TimedDeployment n :=
  ⟨{ t.toDeployment with coordinator := t.coordinator.step e }, t.clock⟩

theorem Inv.deployment_conduct (h : t.Inv) {e : CoordinatorEvent} (he : e.isInner = true) :
    (t.conduct e).toDeployment.Inv := by
  have hstep := h.deployment.step (.coordinate e)
  rwa [Deployment.step, if_pos he] at hstep

/-- Whoever was sent the configuration just now has still to read it. -/
theorem Inv.prepares_of_called (h : t.Inv) {e : CoordinatorEvent} (he : e.isInner = true)
    {deadline next last : Nat} (hp : t.coordinator.phase = .accepting deadline)
    (hp' : (t.conduct e).coordinator.phase = .configuring next last) {i : Fin n} {q bound : Nat}
    (hq : (t.members i).peer? = some q) (hworker : q ∈ (t.conduct e).coordinator.workers) :
    (t.members i).Prepares t.clock t.clock bound := by
  have hd := h.deployment_conduct he
  have ht := h.members i
  obtain ⟨id, hid⟩ := List.mem_iff_getElem?.mp hworker
  obtain ⟨-, x, hheard⟩ := (hd.coordinator.isConfiguring hp').briefed id q hid
  -- The coordinator has read the greeting of the worker.
  have hsent : .hello x ∈ (t.members i).worker.sent := by
    refine ((hd.members i).linked q hq).up.mem (List.mem_append_left _ ?_)
    rw [hheard]
    exact List.mem_cons_self ..
  have htold : (t.members i).worker.told ≠ [] := by
    rw [← ht.unbroken.sent_eq]
    exact List.ne_nil_of_mem hsent
  obtain ⟨y, hdelivered⟩ := h.deployment.coordinator.deliveredTo_of_accepting hp q
  have hprefix := (((h.deployment.members i).linked q hq).heard_isPrefix ht.down).trans
    (hdelivered.map _)
  refine .greeted rfl ((h.deployment.members i).worker.phase_of_greeted ht.excused htold
    ⟨_, t.coordinator.setup.cfg, hprefix.trans ⟨[_], rfl⟩⟩ hprefix.length_le)

/-- Whoever was told to start just now has still to read it. -/
theorem Inv.plays_of_opened (h : t.Inv) {e : CoordinatorEvent} (he : e.isInner = true)
    (ho : t.coordinator.Opens e) (hs : (t.conduct e).coordinator.Started) {i : Fin n}
    {q bound : Nat} (hq : (t.members i).peer? = some q)
    (hworker : q ∈ (t.conduct e).coordinator.workers) :
    (t.members i).Plays t.clock t.clock bound := by
  have hd := h.deployment_conduct he
  have ht := h.members i
  obtain ⟨next, deadline, _, _, hp, -⟩ := ho
  obtain ⟨id, hid⟩ := List.mem_iff_getElem?.mp hworker
  obtain ⟨rs, entry, ms, hserves⟩ := hs.isUnderway.served id q hid
  obtain ⟨x, hheard⟩ := hserves.heard
  -- The coordinator has read the consent of the worker.
  have hsent : .ready ∈ (t.members i).worker.sent := by
    refine ((hd.members i).linked q hq).up.mem (List.mem_append_left _ ?_)
    rw [hheard]
    exact List.mem_cons_of_mem _ (List.mem_cons_self ..)
  have hworker' : q ∈ t.coordinator.workers := by
    have hne : ∀ deadline, t.coordinator.phase ≠ .accepting deadline := by simp [hp]
    rwa [show (t.conduct e).coordinator.workers = _ from
      Coordinator.workers_step h.steady.inv hne e] at hworker
  obtain ⟨y, hdelivered⟩ := h.deliveredTo_of_configuring hp hworker'
  have hprefix := ((h.deployment.members i).linked q hq).heard_isPrefix ht.down
  rw [hdelivered] at hprefix
  obtain ⟨cfg, clients, pool, hphase⟩ := (h.deployment.members i).worker.phase_of_ready ht.excused
    (ht.unbroken.sent_eq ▸ hsent) ⟨_, _, hprefix⟩
  exact .ready rfl hphase

theorem Inv.configuring_conduct (h : t.Inv) {e : CoordinatorEvent} (he : e.isInner = true)
    (hnow : t.coordinator.now = t.clock) {next deadline : Nat}
    (hp : (t.conduct e).coordinator.phase = .configuring next deadline) :
    ∃ first, deadline = first + Coordinator.configureMs (t.conduct e).coordinator.setup ∧
      (t.conduct e).IsBriefed first := by
  have hsetup : (t.conduct e).coordinator.setup = t.coordinator.setup :=
    t.coordinator.setup_step e
  rcases h.steady.inv.configuring_of_step hp with ⟨before, hbefore⟩ | ⟨⟨d, hbefore⟩, rfl⟩
  · obtain ⟨first, hfirst, hbriefed⟩ := h.configuring _ _ hbefore
    exact ⟨first, hsetup.symm ▸ hfirst, hbriefed.congr rfl rfl hsetup
      (Coordinator.workers_step h.steady.inv (by simp [hbefore]) e)⟩
  · refine ⟨t.clock, ?_, Nat.le_add_right _ _, fun i q hq hworker => ?_⟩
    · rw [hnow, hsetup]
    · exact h.prepares_of_called he hbefore hp hq hworker

theorem Inv.running_conduct (h : t.Inv) {e : CoordinatorEvent} (he : e.isInner = true)
    (hnow : t.coordinator.now = t.clock) {deadline : Nat}
    (hp : (t.conduct e).coordinator.phase = .running deadline) :
    ∃ first, deadline = first + Coordinator.runMs (t.conduct e).coordinator.setup ∧
      (t.conduct e).IsUnderway first := by
  have hsetup : (t.conduct e).coordinator.setup = t.coordinator.setup :=
    t.coordinator.setup_step e
  rcases h.steady.inv.running_of_step hp with hbefore | ⟨hopens, rfl⟩
  · obtain ⟨first, hfirst, hunderway⟩ := h.running _ hbefore
    exact ⟨first, hsetup.symm ▸ hfirst, hunderway.congr rfl rfl hsetup
      (Coordinator.workers_step h.steady.inv (by simp [hbefore]) e)⟩
  · refine ⟨t.clock, ?_, Nat.le_refl _, Nat.le_add_right _ _, fun i q hq hworker => ?_⟩
    · rw [hnow, hsetup]
    · have hs := (h.deployment_conduct he).coordinator.started_of_running hp
      exact h.plays_of_opened he hopens hs hq hworker

/-- Whoever closes its link while the coordinator runs has sent its last report, and it was read. -/
theorem Inv.status_ne_active_of_closed (h : t.Inv) {deadline : Nat}
    (hp : t.coordinator.phase = .running deadline) {id q : Nat} {e : WorkerEntry}
    (hq : t.coordinator.workers[id]? = some q) (he : t.coordinator.collector.entryOf? id = some e)
    {r : Reading} {rest : List Reading} (hin : t.coordinator.inbox q = r :: rest)
    (hr : ∀ m, r ≠ .message m) : e.status ≠ .active := by
  obtain ⟨i, hi⟩ := h.deployment.covered q (Coordinator.lt_of_inbox hin)
  obtain ⟨rs, e', ms, hserves⟩ :=
    (h.steady.inv.started_of_running hp).isUnderway.served id q hq
  obtain rfl : e' = e := Option.some.inj (hserves.entry.symm.trans he)
  obtain ⟨hstopped, hheard⟩ :=
    (h.members i).heardFrom_of_closed (h.deployment.members i) hi hin hr
  obtain ⟨first, -, hunderway⟩ := h.running deadline hp
  obtain ⟨report, hsent, hlast⟩ := Worker.exists_lastReport
    ((hunderway.plays i q hi (List.mem_of_getElem? hq)).tells_of_stopped hstopped)
  exact hserves.status_ne_active (hheard ▸ List.mem_map_of_mem hsent) hlast

/-- No worker is lost. -/
theorem Inv.present_conduct (h : t.Inv) (hm : HasMargin t.coordinator.setup)
    {e : CoordinatorEvent} (hnow : t.coordinator.now = t.clock) {id : Nat} {entry : WorkerEntry}
    (hentry : (t.conduct e).coordinator.collector.entryOf? id = some entry) :
    entry.status ≠ .lost := by
  have hb := h.steady.inv.basics
  intro hlost
  rcases h.steady.inv.stage with hprep | hs
  · obtain ⟨-, hprep' | ⟨hopens, hs'⟩⟩ := hprep.step hb e
    · rw [show (t.conduct e).coordinator.collector = {} from hprep'.isUnstarted.collector]
        at hentry
      cases hentry
    · obtain ⟨hid, -⟩ := hs'.isUnderway.entry hentry
      have htreats := hopens.treats hb hprep (List.getElem?_eq_getElem hid)
      obtain rfl : {} = entry := Option.some.inj (htreats.entry.symm.trans hentry)
      cases hlost
  · obtain ⟨hid, -⟩ := (hs.step hb e).2.isUnderway.entry hentry
    rw [hs.workers_step hb e] at hid
    have hq := List.getElem?_eq_getElem hid
    obtain ⟨before, hbefore⟩ := hs.isUnderway.exists_entry hq
    obtain ⟨-, -, haffects⟩ := hs.affects hb hq hbefore e
    rcases haffects.of_lost hentry hlost with hlost | ⟨r, rest, hin, hr, hactive⟩ |
      ⟨deadline, hp, hdeadline⟩
    · exact h.present id before hbefore hlost
    · obtain ⟨deadline, hp⟩ := h.steady.running_iff.mpr ⟨id, by
        rw [Collector.status, hbefore, Option.map_some, hactive]⟩
      refine h.status_ne_active_of_closed hp hq hbefore hin (fun m hm => ?_) hactive
      rw [hm] at hr
      cases hr
    · have hclock := h.clock_le_of_running hp
      have hleave := hm.leave
      rw [hnow] at hdeadline
      simp only [Clock.seconds, Coordinator.shutdownMs] at hclock
      omega

/-- **Step lemma** for the coordinator. -/
theorem Inv.conduct (h : t.Inv) (hm : HasMargin t.coordinator.setup) {e : CoordinatorEvent}
    (he : e.isInner = true) (hprompt : e.isPrompt = true)
    (hpresent : t.coordinator.now ≤ t.clock) : (t.conduct e).Inv := by
  have hnow := Nat.le_antisymm hpresent h.now
  have hadvance : ∀ ms, e ≠ .advance ms := by
    rintro ms rfl
    cases hprompt
  have hsever : ∀ peer writes, e ≠ .sever peer writes := by
    rintro peer writes rfl
    cases hprompt
  refine ⟨h.deployment_conduct he, h.steady.step hsever, ?_, h.members, fun _ _ hp =>
    h.configuring_conduct he hnow hp, fun _ hp => h.running_conduct he hnow hp,
    fun _ _ hentry => h.present_conduct hm hnow hentry, fun id hp => ?_⟩
  · exact (t.coordinator.now_step hadvance).symm ▸ h.now
  · rcases h.steady.inv.tardy_of_step hp with hbefore | ⟨next, deadline, hbefore, hdeadline⟩
    · exact h.prompt id hbefore
    · -- The coordinator is not ahead of the clock, which does not come to the deadline.
      have hclock := h.clock_le_of_configuring hbefore
      have hconnect := hm.connect
      rw [hnow] at hdeadline
      simp only [Clock.seconds, Coordinator.acceptMs] at hclock
      omega

/-! ### The clock goes on -/

/-- Time passes for the coordinator and changes nothing else. -/
theorem coordinator_later (t : TimedDeployment n) :
    ∃ now, t.later.coordinator = { t.coordinator with now } := by
  obtain ⟨now, -, hstep⟩ := t.coordinator.step_advance (t.clock + 1 - t.coordinator.now)
  exact ⟨now, hstep⟩

theorem Inv.deployment_later (h : t.Inv) : t.later.toDeployment.Inv :=
  t.toDeployment_later ▸ h.deployment.run _

theorem le_now_of_isTogether (h : t.isTogether = true) :
    t.clock ≤ t.coordinator.now ∧ ∀ i, t.clock ≤ (t.members i).worker.now := by
  simp only [isTogether, Bool.and_eq_true, decide_eq_true_eq, List.all_eq_true,
    List.mem_finRange, true_implies] at h
  exact h

/-- Before time goes on, the coordinator has nothing to read. -/
theorem inbox_eq_nil_of_isQuiet (h : t.isQuiet = true) {q : Nat}
    (hlisten : t.coordinator.listensTo q = true) : t.coordinator.inbox q = [] := by
  simp only [Deployment.isQuiet, Bool.and_eq_true, List.all_eq_true, List.mem_range] at h
  cases hin : t.coordinator.inbox q with
  | nil => rfl
  | cons r rest =>
    have hread := h.1 q (Coordinator.lt_of_inbox hin)
    simp [Coordinator.canHappen, hlisten, hin] at hread

theorem isQuiet_member (h : t.isQuiet = true) (i : Fin n) :
    (t.members i).isQuiet t.coordinator = true := by
  simp only [Deployment.isQuiet, Bool.and_eq_true, List.all_eq_true, List.mem_finRange,
    true_implies] at h
  exact h.2 i

/-- Before time goes on, all that was sent by a worker that the coordinator listens to was read. -/
theorem Inv.mem_heardFrom_of_isQuiet (h : t.Inv) (hquiet : t.isQuiet = true) {i : Fin n} {q : Nat}
    (hq : (t.members i).peer? = some q) (hlisten : t.coordinator.listensTo q = true) {x : Message}
    (hx : x ∈ (t.members i).worker.sent) : .message x ∈ t.coordinator.heardFrom q := by
  have hmem := Member.mem_arrived_of_isQuiet (h.deployment.members i) (h.members i) hq
    (isQuiet_member hquiet i) hx
  rwa [inbox_eq_nil_of_isQuiet hquiet hlisten, List.append_nil] at hmem

/-- What a worker that the coordinator listens to has told was read before time goes on. -/
theorem Inv.exists_heard_of_tells (h : t.Inv) (hquiet : t.isQuiet = true) {i : Fin n} {q : Nat}
    (hq : (t.members i).peer? = some q) (hlisten : t.coordinator.listensTo q = true)
    {ms first last : Nat} {p : Message → Bool}
    (htold : ((t.members i).worker.step (.advance ms)).TellsWithin first last p) :
    ∃ m, p m = true ∧ .message m ∈ t.coordinator.heardFrom q := by
  obtain ⟨now, -, -, hstep⟩ := (t.members i).worker.step_advance ms
  rw [hstep] at htold
  obtain ⟨m, hsent, hm⟩ := htold.exists_sent
  exact ⟨m, hm, h.mem_heardFrom_of_isQuiet hquiet hq hlisten hsent⟩

/-- As long as the next worker prepares, the time for that is not over. -/
theorem Inv.isBriefed_later (h : t.Inv) (hquiet : t.isQuiet = true)
    (htogether : t.later.isTogether = true) {next deadline first : Nat}
    (hp : t.coordinator.phase = .configuring next deadline) (hbriefed : t.IsBriefed first) :
    t.later.IsBriefed first := by
  have hsetup : t.later.coordinator.setup = t.coordinator.setup := t.coordinator.setup_step _
  have hworkers : t.later.coordinator.workers = t.coordinator.workers :=
    Coordinator.workers_step h.steady.inv (by simp [hp]) _
  have hanswers : ∀ i q, (t.members i).peer? = some q → q ∈ t.coordinator.workers →
      (t.members i).worker.Answers first (first + Discovery.waitMs t.coordinator.setup.cfg) := by
    intro i q hq hworker
    obtain ⟨x, hdelivered⟩ := h.deliveredTo_of_configuring hp hworker
    exact (hbriefed.prepares i q hq hworker).answers_of_isQuiet (h.deployment.members i)
      (h.members i) hq hdelivered (isQuiet_member hquiet i)
  have hsteps : ∀ i q, (t.members i).peer? = some q → q ∈ t.coordinator.workers →
      ((t.members i).worker.step (.advance (t.clock + 1 - (t.members i).worker.now))).Answers
        first (first + Discovery.waitMs t.coordinator.setup.cfg) := fun i q hq hworker =>
    (hanswers i q hq hworker).step (h.members i).unbroken.writable _
  refine ⟨?_, fun i q hq hworker => ?_⟩
  · have hc := h.steady.inv.isConfiguring hp
    have hlt := hc.next_lt
    have hid := List.getElem?_eq_getElem hlt
    have hmem := List.getElem_mem hlt
    obtain ⟨-, x, hheard⟩ := hc.briefed next _ hid
    obtain ⟨i, hi⟩ := h.deployment.covered _ (h.steady.inv.basics.bounded _ hmem)
    rw [hsetup]
    cases hsteps i _ hi hmem with
    | preparing _ _ hnow hlast =>
      exact ((le_now_of_isTogether htogether).2 i).trans (hnow.trans hlast)
    | answered htold =>
      -- Its answer would have been read.
      have hlisten : t.coordinator.listensTo t.coordinator.workers[next] = true := by
        simp [Coordinator.listensTo, hp, hid]
      obtain ⟨m, hanswer, hread⟩ := h.exists_heard_of_tells hquiet hi hlisten htold
      rw [hheard, if_neg (Nat.lt_irrefl _), List.mem_singleton] at hread
      cases hread
      cases hanswer
  · rw [hsetup]
    exact .briefed (hsteps i q hq (hworkers ▸ hworker))

/-- As long as some worker runs, the time for that is not over. -/
theorem Inv.isUnderway_later (h : t.Inv) (hquiet : t.isQuiet = true)
    (htogether : t.later.isTogether = true) {deadline first : Nat}
    (hp : t.coordinator.phase = .running deadline) (hunderway : t.IsUnderway first) :
    t.later.IsUnderway first := by
  have hsetup : t.later.coordinator.setup = t.coordinator.setup := t.coordinator.setup_step _
  have hworkers : t.later.coordinator.workers = t.coordinator.workers :=
    Coordinator.workers_step h.steady.inv (by simp [hp]) _
  have hs := h.steady.inv.started_of_running hp
  have hperforms : ∀ i q, (t.members i).peer? = some q → q ∈ t.coordinator.workers →
      (t.members i).worker.Performs first (first + performMs t.coordinator.setup.cfg) := by
    intro i q hq hworker
    obtain ⟨x, more, hdelivered⟩ := h.deliveredTo_of_started hs hworker
    exact (hunderway.plays i q hq hworker).performs_of_isQuiet (h.deployment.members i)
      (h.members i) hq hdelivered (isQuiet_member hquiet i)
  have hsteps : ∀ i q, (t.members i).peer? = some q → q ∈ t.coordinator.workers →
      ((t.members i).worker.step (.advance (t.clock + 1 - (t.members i).worker.now))).Performs
        first (first + performMs t.coordinator.setup.cfg) := fun i q hq hworker =>
    (hperforms i q hq hworker).step (h.members i).unbroken.writable
      (fun _ => (h.members i).inbox_message (h.deployment.members i)) _
  refine ⟨hunderway.first_le.trans (Nat.le_succ _), ?_, fun i q hq hworker => ?_⟩
  · obtain ⟨id, hid⟩ := h.steady.running_iff.mp ⟨deadline, hp⟩
    obtain ⟨e, he, hactive⟩ := Collector.status_eq_some_iff.mp hid
    obtain ⟨hlt, -⟩ := hs.isUnderway.entry he
    have hq := List.getElem?_eq_getElem hlt
    have hmem := List.getElem_mem hlt
    obtain ⟨rs, e', ms, hserves⟩ := hs.isUnderway.served id _ hq
    obtain rfl : e' = e := Option.some.inj (hserves.entry.symm.trans he)
    obtain ⟨i, hi⟩ := h.deployment.covered _ (h.steady.inv.basics.bounded _ hmem)
    rw [hsetup]
    cases hsteps i _ hi hmem with
    | running _ _ hnow => exact ((le_now_of_isTogether htogether).2 i).trans hnow
    | performed htold =>
      -- Its last report would have been read.
      have hlisten : t.coordinator.listensTo t.coordinator.workers[id] = true := by
        have hidOf := (Coordinator.idOf?_eq_some_iff h.steady.inv.basics.nodup).mpr hq
        have hconnected := (h.steady.awaiting _ hp).connected id hid
        simpa [Coordinator.listensTo, hp, hidOf] using hconnected
      obtain ⟨m, hlast, hread⟩ := h.exists_heard_of_tells hquiet hi hlisten htold
      cases m with
      | statsReport r => exact absurd hactive (hserves.status_ne_active hread hlast)
      | _ => cases hlast
  · rw [hsetup]
    exact .launched (hsteps i q hq (hworkers ▸ hworker))

/-- **Step lemma** for the clock. -/
theorem Inv.tick (h : t.Inv) (hquiet : t.isQuiet = true) (htogether : t.later.isTogether = true) :
    t.later.Inv := by
  obtain ⟨now, hlater⟩ := t.coordinator_later
  have hsetup : t.later.coordinator.setup = t.coordinator.setup := t.coordinator.setup_step _
  have hphase : t.later.coordinator.phase = t.coordinator.phase := by rw [hlater]
  obtain ⟨hnow, hnows⟩ := le_now_of_isTogether htogether
  refine ⟨h.deployment_later, ?_, hnow, fun i => ?_, fun next deadline hp => ?_,
    fun deadline hp => ?_, ?_, ?_⟩
  · show (t.coordinator.step (.advance _)).IsSteady
    exact h.steady.step fun peer writes he => by cases he
  · exact (h.members i).advance (h.deployment.members i) (hnows i)
  · obtain ⟨first, hfirst, hbriefed⟩ := h.configuring next deadline (hphase ▸ hp)
    exact ⟨first, hsetup.symm ▸ hfirst,
      h.isBriefed_later hquiet htogether (hphase ▸ hp) hbriefed⟩
  · obtain ⟨first, hfirst, hunderway⟩ := h.running deadline (hphase ▸ hp)
    exact ⟨first, hsetup.symm ▸ hfirst,
      h.isUnderway_later hquiet htogether (hphase ▸ hp) hunderway⟩
  · rw [hlater]
    exact h.present
  · rw [hphase]
    exact h.prompt

/-! ### Runs -/

/-- No event changes the setup of the coordinator. -/
theorem setup_step (t : TimedDeployment n) (e : TimedEvent n) :
    (t.step e).coordinator.setup = t.coordinator.setup := by
  rcases t.coordinator_step e with hc | ⟨ev, hc⟩
  · rw [hc]
  · rw [hc, Coordinator.setup_step]

theorem setup_run (t : TimedDeployment n) (es : List (TimedEvent n)) :
    (t.run es).coordinator.setup = t.coordinator.setup := by
  induction es generalizing t with
  | nil => rfl
  | cons e es ih => exact (ih (t.step e)).trans (t.setup_step e)

/-- What is allowed keeps what holds of the deployment without its clock. -/
theorem Inv.deployment_put (h : t.Inv) {e : DeploymentEvent n} {c : Coordinator} {i : Fin n}
    {m : Member} (hstep : t.toDeployment.step e = (t.put c i m).toDeployment) :
    (t.put c i m).toDeployment.Inv := hstep ▸ h.deployment.step e

/-- **Step lemma.** As long as links hold, every event keeps the invariant. -/
theorem Inv.step (h : t.Inv) (hm : HasMargin t.coordinator.setup) (e : TimedEvent n) :
    (t.step e).Inv := by
  have hr := t.reacts_step e
  generalize t.step e = u at hr ⊢
  cases hr with
  | refused => exact h
  | coordinate hinner hprompt hnow => exact h.conduct hm hinner hprompt hnow
  | @operate i e hinner hprompt hnow =>
    refine h.put (h.deployment_put (e := .operate i e) ?_) h.steady (stays_refl _)
      (h.follows_operate hprompt hnow)
    simp only [Deployment.step, if_pos hinner]
    rfl
  | @accept i deadline hnow hworker hi hp =>
    refine h.put (h.deployment_put (e := .accept i) ?_) (h.steady.step ?_) ?_ (h.follows_accept hp)
    · simp only [Deployment.step, hi, hp]
      rfl
    · exact fun peer writes he => by cases he
    · rw [Coordinator.step_connect hp]
      exact ⟨rfl, rfl, rfl, rfl, rfl⟩
  | @ascend i q r up hq hn =>
    refine h.put (h.deployment_put (e := .ascend i none) ?_) (h.steady.step ?_)
      ⟨rfl, rfl, rfl, rfl, rfl⟩ (follows_up ((h.members i).ascend hn))
    · simp only [Deployment.step, hq, hn]
      rfl
    · exact fun peer writes he => by cases he
  | @close i q r up hq hstopped hall hn =>
    refine h.put (h.deployment_put (e := .ascend i (some .ended)) ?_) (h.steady.step ?_)
      ⟨rfl, rfl, rfl, rfl, rfl⟩ (follows_up ((h.members i).close hstopped hall hn))
    · simp only [Deployment.step, hq, hn]
      rfl
    · exact fun peer writes he => by cases he
  | @descend i q r down hq hn =>
    refine h.put (h.deployment_put (e := .descend i none) ?_) h.steady (stays_refl _)
      (h.follows_descend hn)
    simp only [Deployment.step, hq, hn]
    rfl
  | tick hquiet htogether => exact h.tick hquiet htogether

/-- **Run lemma.** -/
theorem Inv.run (h : t.Inv) (hm : HasMargin t.coordinator.setup) (es : List (TimedEvent n)) :
    (t.run es).Inv := by
  induction es generalizing t with
  | nil => exact h
  | cons e es ih => exact ih (h.step hm e) ((t.setup_step e).symm ▸ hm)

end TxLoad.TimedDeployment
