import TxLoad.Proofs.Coordinator.Outcome
import TxLoad.Proofs.Deployment.Barrier

namespace TxLoad.Deployment

/-!
# Coordinator and workers understand each other

Each side sends only what the other one expects, in every phase.

* `Inv.status_ne_failed`: no worker of a deployment violates the protocol.
* `Inv.coordinator_understands`, `Inv.worker_understands`: neither side fails for a message of the
  other one.
* `compatibility`: all of this, and what the reports of a worker are.
-/

variable {n : Nat} {d : Deployment n}

/-! ### What the coordinator reads -/

/-- What the coordinator has read from a worker was sent by a member. -/
theorem Inv.exists_sender (h : d.Inv) {id q : Nat} (hq : d.coordinator.workers[id]? = some q)
    {pre post : List Reading} {m : Message}
    (hheard : d.coordinator.heardFrom q = pre ++ .message m :: post) :
    ∃ i ms, (d.members i).peer? = some q ∧ pre = ms.map .message ∧
      ms ++ [m] <+: (d.members i).worker.sent := by
  obtain ⟨i, hi⟩ := h.covered q (h.coordinator.basics.bounded q (List.mem_of_getElem? hq))
  have harrived : d.coordinator.heardFrom q ++ d.coordinator.inbox q =
      pre ++ .message m :: (post ++ d.coordinator.inbox q) := by
    rw [hheard, List.append_assoc]
    rfl
  obtain ⟨ms, hms, hsent⟩ := ((h.members i).linked q hi).up.exists_prefix harrived
  exact ⟨i, ms, hi, hms, hsent⟩

/-- A report that is not below the last one violates nothing. -/
theorem violation_eq_none {id : Nat} {e : WorkerEntry} {r : Report} (h : e.report ≤ r) :
    e.violation? id (.statsReport r) = none := by
  have hnot : ¬ e.isAheadOf r := by
    rintro (hlt | hlt)
    · exact absurd h.1 (UInt64.not_le.mpr hlt)
    · exact absurd h.2.1 (UInt64.not_le.mpr hlt)
  rw [WorkerEntry.violation?, if_neg hnot]

/-- A report without counts is below every other. -/
theorem empty_le (r : Report) : ({} : Report) ≤ r :=
  ⟨UInt64.zero_le, UInt64.zero_le, UInt64.zero_le⟩

/-- **Violations.** The true numbers of a worker that is marked as failed do not fit. -/
theorem Inv.exists_of_failed (h : d.Inv) {id : Nat} {e : WorkerEntry}
    (he : d.coordinator.collector.entryOf? id = some e) (hfailed : e.status = .failed) :
    ∃ i, d.idOf? i = some id ∧ ¬ (d.members i).worker.group.tally.Fits := by
  rcases h.coordinator.stage with hp | hs
  · have hempty : d.coordinator.collector = {} := by
      cases hp with
      | accepting hp h => exact h.collector
      | configuring hp h => exact h.collector
      | calledOff hp h => exact h.collector
    rw [hempty] at he
    cases he
  · have hu := hs.isUnderway
    obtain ⟨hid, -⟩ := hu.entry he
    obtain ⟨rs, e', ms, hserves⟩ := hu.served id _ (List.getElem?_eq_getElem hid)
    obtain rfl : e' = e := Option.some.inj (hserves.entry.symm.trans he)
    obtain ⟨pre, m, post, err, rfl, hv, hlast⟩ := hserves.dealings.of_failed hfailed
    obtain ⟨x, hheard⟩ := hserves.heard
    -- What violates the protocol was sent by a member after hello and consent.
    have hread : d.coordinator.heardFrom d.coordinator.workers[id] =
        (.message (.hello x) :: .message .ready :: pre) ++ .message m :: post := hheard
    obtain ⟨i, sent, hpeer, hsent, hmem⟩ := h.exists_sender (List.getElem?_eq_getElem hid) hread
    refine ⟨i, h.idOf?_eq_some_iff.mpr ⟨_, hpeer, List.getElem?_eq_getElem hid⟩, fun hfits => ?_⟩
    obtain ⟨a, sent, rfl, -, hsent⟩ := List.map_eq_cons_iff.mp hsent.symm
    obtain ⟨b, sent, rfl, -, hsent⟩ := List.map_eq_cons_iff.mp hsent
    obtain ⟨reports, r, rfl, rfl, hreports⟩ := (h.members i).worker.next_report hmem
    have hasc := (h.members i).worker.reported_ascending hfits
    have hnext := (List.pairwise_append.mp (hasc.sublist hreports.sublist)).2.2
    have hle : e'.report ≤ r := by
      rcases hlast with hlast | hlast
      · rw [hlast]
        exact empty_le r
      · rw [← hsent] at hlast
        have hmem : e'.report ∈ reports := by simpa using hlast
        exact hnext _ hmem r (by simp)
    rw [violation_eq_none hle] at hv
    cases hv

/-- **No violation.** No worker of a deployment is marked as failed, as long as the true numbers
    fit. -/
theorem Inv.status_ne_failed (h : d.Inv) (hfits : ∀ i, (d.members i).worker.group.tally.Fits)
    {id : Nat} {e : WorkerEntry} (he : d.coordinator.collector.entryOf? id = some e) :
    e.status ≠ .failed := by
  intro hfailed
  obtain ⟨i, -, hnot⟩ := h.exists_of_failed he hfailed
  exact hnot (hfits i)

/-- The coordinator does not fail for a message of a worker. -/
theorem Inv.coordinator_understands (h : d.Inv) {e : Error}
    (hr : d.coordinator.result? = some (.error e)) : e.isMismatch = false := by
  have hphase := Coordinator.phase_of_result hr
  rcases h.coordinator.stage with hp | hs
  · cases hp with
    | calledOff hp hoff =>
      rw [hphase] at hp
      cases hp
      cases hoff.cause with
      | tooFew => rfl
      | undistributed => rfl
      | late id => rfl
      | @refused id q x r _ hq hheard hr =>
        cases r with
        | message m =>
          have hread : d.coordinator.heardFrom q =
              [.message (.hello x)] ++ .message m :: [] := hheard
          obtain ⟨i, sent, -, hsent, hmem⟩ := h.exists_sender hq hread
          obtain ⟨a, sent, rfl, -, hsent⟩ := List.map_eq_cons_iff.mp hsent.symm
          obtain rfl := List.map_eq_nil_iff.mp hsent
          rcases (h.members i).worker.answer hmem with rfl | ⟨reason, rfl⟩ <;> cases hr
          rfl
        | _ =>
          cases hr
          rfl
    | _ hp =>
      rw [hphase] at hp
      cases hp
  · cases hs with
    | finished hp hu hs ho =>
      rw [hphase] at hp
      cases hp
      cases ho with
      | failed hn => rfl
      | summed hn hr =>
        obtain ⟨reason, rfl⟩ := Storage.exists_reason hr.symm
        rfl
    | _ hp =>
      rw [hphase] at hp
      cases hp

/-! ### What a worker reads -/

/-- What a worker has read last was delivered to it. -/
theorem Inv.exists_delivery (h : d.Inv) {i : Fin n} {pre : List Reading} {m : Message}
    (hheard : (d.members i).worker.heard = pre ++ [.message m]) :
    ∃ id q ms delivered, d.coordinator.Delivery id q delivered ∧ pre = ms.map .message ∧
      ms ++ [m] <+: delivered := by
  have harrived : (d.members i).worker.heard ++ (d.members i).worker.inbox =
      pre ++ .message m :: (d.members i).worker.inbox := by
    rw [hheard, List.append_assoc]
    rfl
  cases hq : (d.members i).peer? with
  | none =>
    rw [((h.members i).unlinked hq).arrived] at harrived
    simp at harrived
  | some q =>
    obtain ⟨ms, hms, hsent⟩ := ((h.members i).linked q hq).down.exists_prefix harrived
    rcases h.coordinator.delivery q with hnil | ⟨id, -, hd⟩
    · rw [hnil] at hsent
      simp at hsent
    · exact ⟨id, q, ms, _, hd, hms, hsent⟩

/-- No message of the coordinator surprises a worker. -/
theorem Inv.not_surprised (h : d.Inv) (i : Fin n) :
    ¬ Worker.Surprised (d.members i).worker.heard := by
  intro hs
  have hexpected : ∀ pre m, (d.members i).worker.heard = pre ++ [.message m] →
      (pre.length = 0 → ∃ x, m = .hello (some x)) ∧
      (pre.length = 1 → (∃ cfg, m = .config cfg) ∨ ∃ reason, m = .abort reason) ∧
      (pre.length = 2 → m = .start ∨ ∃ reason, m = .abort reason) := by
    intro pre m hheard
    obtain ⟨id, q, ms, delivered, hd, rfl, hsent⟩ := h.exists_delivery hheard
    rw [List.length_map]
    exact hd.expected hsent
  generalize (d.members i).worker.heard = heard at hs hexpected
  cases hs with
  | @greeting m hm =>
    obtain ⟨x, hx⟩ := (hexpected [] m rfl).1 rfl
    exact hm x hx
  | @config x m hm ha =>
    rcases (hexpected [.message (.hello (some x))] m rfl).2.1 rfl with ⟨cfg, hc⟩ | ⟨r, hr⟩
    · exact hm cfg hc
    · exact ha r hr
  | @start x cfg m hm ha =>
    rcases (hexpected [.message (.hello (some x)), .message (.config cfg)] m rfl).2.2 rfl with
      hs | ⟨r, hr⟩
    · exact hm hs
    · exact ha r hr

/-- A worker does not fail for a message of the coordinator. -/
theorem Inv.worker_understands (h : d.Inv) {i : Fin n} {e : Error}
    (hr : (d.members i).worker.result? = some (.error e)) : e.isMismatch = false := by
  have hphase := Worker.phase_of_result hr
  by_contra hmismatch
  cases (h.members i).worker with
  | refused hp hrefused =>
    rw [hphase] at hp
    cases hp
    exact h.not_surprised i (hrefused.mismatch (by simpa using hmismatch))
  | lost hp =>
    rw [hphase] at hp
    cases hp
    exact absurd rfl hmismatch
  | _ hp =>
    rw [hphase] at hp
    cases hp

/-- **Compatibility.** However a deployment runs, as long as the true numbers of its workers fit,
    no worker is marked as failed, neither side fails for a message of the other one, and workers
    are told to stop only for an interrupt. The reports of a worker grow, none but the last says
    that it has completed, and this one is written after all engines have stopped, as the last
    message, with the sums of their counters. -/
theorem compatibility {setup : CoordinatorSetup} {registry : Registry} {now : Nat}
    {c : Coordinator} (h : Coordinator.create setup registry now = .ok c)
    (crew : Fin n → WorkerSetup × Nat) (es : List (DeploymentEvent n))
    (hfits : ∀ i, (((start c crew).run es).members i).worker.group.tally.Fits) :
    let d := (start c crew).run es
    (∀ id e, d.coordinator.collector.entryOf? id = some e → e.status ≠ .failed) ∧
    (∀ e, d.coordinator.result? = some (.error e) → e.isMismatch = false) ∧
    (∀ q reason, .stop reason ∈ d.coordinator.messagesTo q → reason = "interrupted") ∧
    ∀ i, (∀ e, (d.members i).worker.result? = some (.error e) → e.isMismatch = false) ∧
      (d.members i).worker.reported.Pairwise (· ≤ ·) ∧
      (∀ r ∈ (d.members i).worker.reported.dropLast, r.completed = false) ∧
      ∀ r ∈ (d.members i).worker.reported, r.completed = true →
        (d.members i).worker.told.getLast? = some (.statsReport r) ∧
          (d.members i).worker.group.isStopped = true ∧
          r = (d.members i).worker.group.report true := by
  intro d
  obtain ⟨rfl, -⟩ := Coordinator.eq_start_of_create h
  have hd : d.Inv := (inv_start setup now crew).run es
  refine ⟨fun id e he => hd.status_ne_failed hfits he, fun e hr => hd.coordinator_understands hr,
    fun q reason hm => ?_, fun i => ⟨fun e hr => hd.worker_understands hr, ?_, ?_, ?_⟩⟩
  · refine (hd.coordinator.of_stop hm).resolve_right ?_
    rintro ⟨id, e, he, hfailed⟩
    exact hd.status_ne_failed hfits he hfailed
  · exact (hd.members i).worker.reported_ascending (hfits i)
  · exact (hd.members i).worker.reported_dropLast
  · exact fun r hr hc => (hd.members i).worker.of_completed hr hc

/-- A run in which two workers report, are interrupted and are acknowledged. -/
theorem compatibility_succeeded :
    Coordinator.create Coordinator.twoWorkers .builtin 0 = .ok (.start Coordinator.twoWorkers 0) ∧
      (∀ i, (succeeded.members i).worker.group.tally.Fits) ∧
      (∀ id e, succeeded.coordinator.collector.entryOf? id = some e → e.status ≠ .failed) ∧
      (succeeded.members 1).worker.reported = [⟨1, 3, 0, true⟩] ∧
      (succeeded.members 1).worker.group.isStopped = true := by
  have hfits : ∀ i, (succeeded.members i).worker.group.tally.Fits := by
    intro i
    match i with
    | 0 => exact ⟨by decide, by decide, by decide⟩
    | 1 => exact ⟨by decide, by decide, by decide⟩
  have hreported : (succeeded.members 1).worker.reported = [⟨1, 3, 0, true⟩] := by decide
  have hmem : ⟨1, 3, 0, true⟩ ∈ (succeeded.members 1).worker.reported := by
    rw [hreported]
    exact List.mem_singleton_self _
  obtain ⟨hfailed, -, -, hreports⟩ := compatibility create_twoWorkers pair success hfits
  exact ⟨create_twoWorkers, hfits, hfailed, hreported, ((hreports 1).2.2.2 _ hmem rfl).2.1⟩

end TxLoad.Deployment
