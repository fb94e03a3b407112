import TxLoad.Proofs.Coordinator.Outcome
import TxLoad.Proofs.Deployment.Barrier

namespace TxLoad.Deployment

/-!
# Coordinator and workers agree on what was counted

* `Inv.agreement`: the coordinator holds the last report of a worker that was acknowledged, under
  the id that the worker was told.
* `Inv.sum_lastReport`: summing over the workers of the coordinator is summing over the members.
* `ack_agreement`: an acknowledged worker and the coordinator agree from then on, and a summary
  counts every worker once.
-/

variable {n : Nat} {d : Deployment n}

/-- The last report of a member that the coordinator has merged, one without counts if there is
    none. -/
def lastReport (d : Deployment n) (i : Fin n) : Report :=
  ((d.idOf? i).map d.coordinator.lastReport).getD {}

/-! ### Ids -/

/-- A worker with engines was told its place among the workers. -/
theorem Inv.id_eq (h : d.Inv) {i : Fin n} {ts : List Tally}
    (hl : (d.members i).worker.Launched ts) :
    ∃ x, (d.members i).worker.id = some x ∧ d.idOf? i = some x.toNat := by
  obtain ⟨x, cfg, rs, hx, hheard⟩ := hl.heard
  obtain ⟨hstarted, q, hq⟩ := h.started_of_heard (i := i) (by simp [hheard])
  have hlink := (h.members i).linked q hq
  have harrived : (d.members i).worker.heard ++ (d.members i).worker.inbox =
      [] ++ .message (.hello (some x)) :: (.message (.config cfg) :: .message .start :: rs ++
        (d.members i).worker.inbox) := by
    rw [hheard]
    rfl
  obtain ⟨ms, hms, hsent⟩ := hlink.down.exists_prefix harrived
  obtain rfl := List.map_eq_nil_iff.mp hms.symm
  rcases h.coordinator.delivery q with hnil | ⟨id, hid, hd⟩
  · rw [hnil] at hsent
    cases List.prefix_nil.mp hsent
  · have hx' : x = UInt64.ofNat id := by
      generalize d.coordinator.deliveredTo q = delivered at hsent hd
      obtain ⟨more, hmore⟩ := hsent
      cases hd <;> cases hmore <;> rfl
    have hlt : id < 2 ^ 64 := by
      have hid := (List.getElem?_eq_some_iff.mp hid).1
      have hfull := hstarted.isUnderway.full
      have hexpected := d.coordinator.setup.settings.expectWorkers.toNat_lt
      rw [Coordinator.expected] at hfull
      omega
    have hnat : x.toNat = id := by rw [hx', UInt64.toNat_ofNat_of_lt' hlt]
    exact ⟨x, hx, h.idOf?_eq_some_iff.mpr ⟨q, hq, hnat ▸ hid⟩⟩

/-! ### Acknowledgements -/

/-- The coordinator holds the last report of a worker that was acknowledged. -/
theorem Inv.agreement (h : d.Inv) {i : Fin n} (hm : .message .ack ∈ (d.members i).worker.heard) :
    ∃ x last, (d.members i).worker.id = some x ∧ d.idOf? i = some x.toNat ∧
      (d.members i).worker.phase = .stopped (.ok last) ∧
      d.coordinator.collector.entryOf? x.toNat = some ⟨.completed, last⟩ := by
  obtain ⟨last, hp⟩ := (h.members i).acked hm
  obtain ⟨ts, hl, -⟩ := (h.members i).worker.of_done hp
  obtain ⟨x, hx, hidx⟩ := h.id_eq hl
  obtain ⟨q, id, e, hq, hid, he, hs, hphase⟩ :=
    (h.members i).of_ack h.coordinator (List.mem_append_left _ hm)
  have hxid : id = x.toNat :=
    Option.some.inj ((h.idOf?_eq_some_iff.mpr ⟨q, hq, hid⟩).symm.trans hidx)
  refine ⟨x, last, hx, hidx, hp, ?_⟩
  rw [← hxid, he, ← hs]
  rcases hphase with ⟨deadline, hp'⟩ | hp'
  · rw [hp] at hp'
    cases hp'
  · rw [hp] at hp'
    cases hp'
    rfl

/-- A worker is changed by nothing but events of its own. -/
theorem worker_step (d : Deployment n) (e : DeploymentEvent n) (i : Fin n) :
    ((d.step e).members i).worker = (d.members i).worker ∨
      ∃ e', ((d.step e).members i).worker = (d.members i).worker.step e' := by
  have hset : ∀ (d' : Deployment n) (j : Fin n) (m : Member), d'.members = d.members →
      (m.worker = (d.members j).worker ∨ ∃ e', m.worker = (d.members j).worker.step e') →
      ((d'.set j m).members i).worker = (d.members i).worker ∨
        ∃ e', ((d'.set j m).members i).worker = (d.members i).worker.step e' := by
    intro d' j m hd hm
    rw [members_set, hd]
    by_cases hij : i = j
    · subst hij
      rw [if_pos rfl]
      exact hm
    · rw [if_neg hij]
      exact .inl rfl
  cases e with
  | coordinate e =>
    simp only [step]
    split <;> exact .inl rfl
  | operate j e =>
    simp only [step]
    split
    · exact hset d j _ rfl (.inr ⟨e, rfl⟩)
    · exact .inl rfl
  | accept j =>
    simp only [step]
    split
    · exact hset _ j _ rfl (.inl rfl)
    · exact .inl rfl
  | ascend j fault =>
    simp only [step]
    split
    · exact hset _ j _ rfl (.inl rfl)
    · exact .inl rfl
  | descend j fault =>
    simp only [step]
    split
    · split
      · rename_i r down _
        exact hset d j _ rfl (.inr ⟨.arrive r, rfl⟩)
      · exact .inl rfl
    · exact .inl rfl

/-- A worker that has stopped stays as it is. -/
theorem run_of_stopped {i : Fin n} {result : Except Error Report}
    (hp : (d.members i).worker.phase = .stopped result) (es : List (DeploymentEvent n)) :
    ((d.run es).members i).worker.phase = .stopped result ∧
      ((d.run es).members i).worker.id = (d.members i).worker.id ∧
      ((d.run es).members i).worker.heard = (d.members i).worker.heard := by
  induction es generalizing d with
  | nil => exact ⟨hp, rfl, rfl⟩
  | cons e es ih =>
    have hstep : ((d.step e).members i).worker.phase = .stopped result ∧
        ((d.step e).members i).worker.id = (d.members i).worker.id ∧
        ((d.step e).members i).worker.heard = (d.members i).worker.heard := by
      rcases d.worker_step e i with h | ⟨e', h⟩
      · rw [h]
        exact ⟨hp, rfl, rfl⟩
      · rw [h]
        exact Worker.step_of_stopped hp e'
    obtain ⟨hphase, hid, hheard⟩ := ih hstep.1
    exact ⟨hphase, hid.trans hstep.2.1, hheard.trans hstep.2.2⟩

/-! ### The summary -/

/-- The ids of the members are the ids of the workers, each once. -/
theorem Inv.perm_ids (h : d.Inv) : List.Perm (List.range d.coordinator.workers.length)
    ((List.finRange n).filterMap d.idOf?) := by
  have hnodup : ((List.finRange n).filterMap d.idOf?).Nodup :=
    (List.nodup_finRange n).filterMap fun i j id hi hj => h.idOf?_inj hi hj
  refine (List.perm_ext_iff_of_nodup List.nodup_range hnodup).mpr fun id => ?_
  rw [List.mem_range, List.mem_filterMap]
  constructor
  · intro hid
    obtain ⟨i, hi⟩ := h.exists_member hid
    exact ⟨i, List.mem_finRange i, hi⟩
  · rintro ⟨i, -, hi⟩
    obtain ⟨q, -, hq⟩ := h.idOf?_eq_some_iff.mp hi
    exact (List.getElem?_eq_some_iff.mp hq).1

/-- Members that are no workers contribute nothing. -/
theorem sum_filterMap (d : Deployment n) (f : Report → Nat) (hf : f {} = 0) (is : List (Fin n)) :
    ((is.filterMap d.idOf?).map fun id => f (d.coordinator.lastReport id)).sum =
      (is.map fun i => f (d.lastReport i)).sum := by
  induction is with
  | nil => rfl
  | cons i is ih =>
    rw [List.map_cons, List.sum_cons, ← ih]
    cases hid : d.idOf? i with
    | none =>
      have hnone : f (d.lastReport i) = 0 := by rw [lastReport, hid, Option.map_none,
        Option.getD_none, hf]
      rw [List.filterMap_cons_none hid, hnone, Nat.zero_add]
    | some id =>
      have hsome : d.lastReport i = d.coordinator.lastReport id := by rw [lastReport, hid]; rfl
      rw [List.filterMap_cons_some hid, List.map_cons, List.sum_cons, hsome]

/-- Summing over the workers of the coordinator is summing over the members. -/
theorem Inv.sum_lastReport (h : d.Inv) (f : Report → Nat) (hf : f {} = 0) :
    ((List.range d.coordinator.workers.length).map fun id => f (d.coordinator.lastReport id)).sum =
      ((List.finRange n).map fun i => f (d.lastReport i)).sum := by
  rw [← d.sum_filterMap f hf]
  exact (h.perm_ids.map _).sum_nat

/-- The entry of a member holds its last report that was merged; that of one that has completed is
    the last one that it has written. -/
theorem Inv.entry (h : d.Inv) (hu : d.coordinator.IsUnderway)
    (hs : d.coordinator.collector.isSettled = true) {i : Fin n} {id : Nat}
    (hid : d.idOf? i = some id) :
    ∃ e, d.coordinator.collector.entryOf? id = some e ∧ e.status ≠ .active ∧
      e.report = d.lastReport i ∧ (e.status = .completed →
        (d.members i).worker.told.getLast? = some (.statsReport e.report) ∧
          e.report = (d.members i).worker.group.report true) := by
  obtain ⟨q, hq, hworker⟩ := h.idOf?_eq_some_iff.mp hid
  obtain ⟨rs, e, ms, hserves⟩ := hu.served id q hworker
  have hnodup : d.coordinator.collector.ids.Nodup := hu.ids ▸ List.nodup_range
  refine ⟨e, hserves.entry, (Collector.isSettled_iff_entry hnodup).mp hs id e hserves.entry, ?_,
    fun hcompleted => ?_⟩
  · rw [lastReport, hid]
    exact (hu.entry hserves.entry).2
  · obtain ⟨hlast, hmem⟩ := hserves.dealings.of_completed hcompleted
    obtain ⟨x, hheard⟩ := hserves.heard
    have hw := (h.members i).worker
    have hread : .message (.statsReport e.report) ∈
        d.coordinator.heardFrom q ++ d.coordinator.inbox q := by simp [hheard, hmem]
    have hsent := ((h.members i).linked q hq).up.mem hread
    have hreported : e.report ∈ (d.members i).worker.reported :=
      List.mem_filterMap.mpr ⟨_, hw.sent_prefix.subset hsent, rfl⟩
    obtain ⟨htold, -, hsums⟩ := hw.of_completed hreported hlast
    exact ⟨htold, hsums⟩

/-- **Agreement.** However a deployment runs, a worker that has read an acknowledgement has
    succeeded, and the coordinator holds the very report that the worker returns, as that of a
    worker that has completed, whatever comes later. When the coordinator succeeds, its totals are
    the sums of the last reports that it has merged, each worker's exactly once, whether the worker
    has completed or was given up; that of a worker that has completed is its final one. -/
theorem ack_agreement {setup : CoordinatorSetup} {registry : Registry} {now : Nat}
    {c : Coordinator} (h : Coordinator.create setup registry now = .ok c)
    (crew : Fin n → WorkerSetup × Nat) (es : List (DeploymentEvent n)) :
    let d := (start c crew).run es
    (∀ i, .message .ack ∈ (d.members i).worker.heard →
      ∃ x last, (d.members i).worker.id = some x ∧ d.idOf? i = some x.toNat ∧
        (d.members i).worker.result? = some (.ok last) ∧
        ∀ es', (d.run es').coordinator.collector.entryOf? x.toNat = some ⟨.completed, last⟩) ∧
    (∀ stats, d.coordinator.result? = some (.ok stats) →
      (∀ id < setup.settings.expectWorkers.toNat, ∃! i, d.idOf? i = some id) ∧
      stats.transactions.toNat =
        ((List.finRange n).map fun i => (d.lastReport i).requests.toNat).sum % 2 ^ 64 ∧
      stats.bytes.toNat =
        ((List.finRange n).map fun i => (d.lastReport i).bytes.toNat).sum % 2 ^ 64 ∧
      ∀ i id, d.idOf? i = some id → ∃ e, d.coordinator.collector.entryOf? id = some e ∧
        e.status ≠ .active ∧ e.report = d.lastReport i ∧ (e.status = .completed →
          (d.members i).worker.told.getLast? = some (.statsReport e.report) ∧
            e.report = (d.members i).worker.group.report true)) := by
  intro d
  obtain ⟨rfl, hpos⟩ := Coordinator.eq_start_of_create h
  have hd : d.Inv := (inv_start setup now crew).run es
  refine ⟨fun i hm => ?_, fun stats hr => ?_⟩
  · obtain ⟨x, last, hx, hidx, hp, -⟩ := hd.agreement hm
    refine ⟨x, last, hx, hidx, by rw [Worker.result?, hp], fun es' => ?_⟩
    -- The worker stays as it is, so that what holds now holds then.
    obtain ⟨hp', hx', hheard'⟩ := run_of_stopped hp es'
    obtain ⟨x', last', hx'', -, hp'', he⟩ := (hd.run es').agreement (i := i) (hheard' ▸ hm)
    rw [hx', hx] at hx''
    rw [hp'] at hp''
    cases hx''
    cases hp''
    exact he
  · obtain ⟨hu, hs, htransactions, hbytes⟩ := hd.coordinator.of_ok hr
    have hlen : d.coordinator.workers.length = setup.settings.expectWorkers.toNat := by
      have hsetup : d.coordinator.setup = setup := setup_run _ es
      rw [hu.full, Coordinator.expected, hsetup]
      omega
    obtain ⟨hrequests', hbytes'⟩ := hu.toNat_totals
    refine ⟨fun id hid => ?_, ?_, ?_, fun i id hid => hd.entry hu hs hid⟩
    · obtain ⟨i, hi⟩ := hd.exists_member (hlen.symm ▸ hid)
      exact ⟨i, hi, fun j hj => hd.idOf?_inj hj hi⟩
    · rw [htransactions, hrequests', hd.sum_lastReport (fun r => r.requests.toNat) rfl]
    · rw [hbytes, hbytes', hd.sum_lastReport (fun r => r.bytes.toNat) rfl]

/-- A run in which both workers are acknowledged and the coordinator succeeds. -/
theorem ack_agreement_succeeded :
    Coordinator.create Coordinator.twoWorkers .builtin 0 = .ok (.start Coordinator.twoWorkers 0) ∧
      .message .ack ∈ (succeeded.members 0).worker.heard ∧
      (∃ x last, (succeeded.members 0).worker.id = some x ∧ succeeded.idOf? 0 = some x.toNat ∧
        (succeeded.members 0).worker.result? = some (.ok last) ∧
        ∀ es', (succeeded.run es').coordinator.collector.entryOf? x.toNat =
          some ⟨.completed, last⟩) ∧
      ∃ stats, succeeded.coordinator.result? = some (.ok stats) ∧
        stats.transactions.toNat =
          ((List.finRange 2).map fun i => (succeeded.lastReport i).requests.toNat).sum %
            2 ^ 64 := by
  have hack : .message .ack ∈ (succeeded.members 0).worker.heard := by decide
  have hresult : ∃ stats, succeeded.coordinator.result? = some (.ok stats) := ⟨_, rfl⟩
  obtain ⟨stats, hstats⟩ := hresult
  obtain ⟨hworkers, hsummary⟩ := ack_agreement create_twoWorkers pair success
  exact ⟨create_twoWorkers, hack, hworkers 0 hack, stats, hstats, (hsummary stats hstats).2.1⟩

end TxLoad.Deployment
