import TxLoad.Proofs.Stats.Keeping
import TxLoad.Proofs.Stats.Ledger

namespace TxLoad

/-!
# The time of a run

All rates of a summary are quotients by the time of the run, which a collector takes from two
instants: the first accepted report sets one, and every completion moves the other.

* `Ledger.runTime` is that time, read off the accepted reports alone.
* `Ledger.Clocked`: the two instants of a collector are those of the first accepted report and of
  the last completion. Every operation keeps it, as long as reports come in order
  (`Ledger.Clocked.step`).
* `Ledger.Orderly`: every worker is listed once, and nothing is counted of a worker that has not
  reported. This holds however often workers are registered.
* `Ledger.timing_after`: the time that goes into a summary, and what it does not depend on.
-/

namespace Collector

/-- The instant at which a report comes. -/
def Operation.instant? : Operation → Option Nat
  | merge _ _ now => some now
  | _ => none

/-- Whoever is given up, the run neither starts nor ends by it. -/
theorem instants_mark (c : Collector) (id : Nat) (s : WorkerStatus)
    (admits : WorkerStatus → Bool) :
    (c.mark id s admits).started = c.started ∧ (c.mark id s admits).finished = c.finished := by
  rw [mark_eq]
  exact ⟨rfl, rfl⟩

theorem mem_insertEntry {id : Nat} {e : WorkerEntry} {ws : List (Nat × WorkerEntry)}
    {w : Nat × WorkerEntry} (h : w ∈ insertEntry id e ws) : w = (id, e) ∨ w ∈ ws := by
  induction ws with
  | nil => exact .inl (List.mem_singleton.mp h)
  | cons v ws ih =>
    rw [insertEntry] at h
    split at h
    · exact List.mem_cons.mp h
    · split at h
      · exact (List.mem_cons.mp h).imp_right (List.mem_cons_of_mem _)
      · rcases List.mem_cons.mp h with rfl | h
        · exact .inr List.mem_cons_self
        · exact (ih h).imp_right (List.mem_cons_of_mem _)

theorem ascending_insertEntry (id : Nat) (e : WorkerEntry) {ws : List (Nat × WorkerEntry)}
    (h : ws.Pairwise (·.1 < ·.1)) : (insertEntry id e ws).Pairwise (·.1 < ·.1) := by
  induction ws with
  | nil => exact List.pairwise_singleton ..
  | cons w ws ih =>
    obtain ⟨hw, hws⟩ := List.pairwise_cons.mp h
    rw [insertEntry]
    split
    · rename_i hlt
      refine List.pairwise_cons.mpr ⟨fun v hv => ?_, h⟩
      rcases List.mem_cons.mp hv with rfl | hv
      · exact hlt
      · exact Nat.lt_trans hlt (hw v hv)
    · split
      · rename_i heq
        exact List.pairwise_cons.mpr ⟨fun v hv => heq ▸ hw v hv, hws⟩
      · rename_i hlt hne
        refine List.pairwise_cons.mpr ⟨fun v hv => ?_, ih hws⟩
        rcases mem_insertEntry hv with rfl | hv
        · exact Nat.lt_of_le_of_ne (Nat.not_lt.mp hlt) (Ne.symm hne)
        · exact hw v hv

theorem ascending_register {c : Collector} (id : Nat) (h : c.ids.Pairwise (· < ·)) :
    (c.register id).ids.Pairwise (· < ·) :=
  List.pairwise_map.mpr (ascending_insertEntry id {} (List.pairwise_map.mp h))

/-- Marking keeps the report of everyone who is listed. -/
theorem exists_of_mem_mark {c : Collector} {id : Nat} {s : WorkerStatus}
    {admits : WorkerStatus → Bool} {w : Nat × WorkerEntry}
    (h : w ∈ (c.mark id s admits).workers) :
    ∃ v ∈ c.workers, w.1 = v.1 ∧ w.2.report = v.2.report := by
  unfold mark at h
  split at h
  · rename_i entry hentry
    split at h
    · rcases mem_setEntry h with rfl | h
      · obtain ⟨v, hv, rfl⟩ := Option.map_eq_some_iff.mp hentry
        have hid : v.1 = id := by simpa using List.find?_some hv
        exact ⟨v, List.mem_of_find?_eq_some hv, hid.symm, rfl⟩
      · exact ⟨w, h, rfl, rfl⟩
    · exact ⟨w, h, rfl, rfl⟩
  · exact ⟨w, h, rfl, rfl⟩

end Collector

namespace Ledger

open Collector (Operation)

variable {l l' : Ledger} {os more : List Operation} {o : Operation}

/-- The instants at which reports come, whether they are accepted or not. -/
def instants (os : List Operation) : List Nat := os.filterMap Operation.instant?

/-- The instants of the accepted reports that completed a worker, in order. -/
def completions (l : Ledger) : List Nat :=
  (l.accepted.filter (·.report.completed)).map (·.instant)

/-- When the run ended: with the last completion, or at `now` if there is none. -/
def endsAt (l : Ledger) (now : Nat) : Nat := l.completions.getLast?.getD now

/-- How long the run took since the first accepted report. -/
def runTime (l : Ledger) (now : Nat) : Nat :=
  match l.accepted with
  | [] => 0
  | first :: _ => l.endsAt now - first.instant

theorem instants_concat (os : List Operation) (o : Operation) :
    instants (os ++ [o]) = instants os ++ o.instant?.toList := by
  cases h : o.instant? <;> simp [instants, h]

theorem completions_concat (c : Collector) (as : List Acceptance) (a : Acceptance) :
    (Ledger.mk c (as ++ [a])).completions =
      (Ledger.mk c as).completions ++ if a.report.completed then [a.instant] else [] := by
  by_cases h : a.report.completed = true <;> simp [completions, h]

/-! ### The two instants -/

/-- The instants that bound the run, as the ledger has them. -/
structure Clocked (l : Ledger) : Prop where
  started : l.collector.started = l.accepted.head?.map (·.instant)
  finished : l.collector.finished = l.completions.getLast?

/-- **Step lemma.** A report that comes after all that were accepted keeps the instants in line, and
    so does everything else. -/
theorem Clocked.step (h : l.Clocked)
    (hlate : ∀ now, o.instant? = some now → ∀ a ∈ l.accepted, a.instant ≤ now) :
    (l.step o).Clocked := by
  have hreacts := l.reacts_step o
  generalize l.step o = l' at hreacts ⊢
  cases hreacts with
  | register | refuse => exact ⟨h.started, h.finished⟩
  | mark _ s admits =>
    obtain ⟨hstarted, hfinished⟩ := Collector.instants_mark l.collector _ s admits
    exact ⟨hstarted.trans h.started, hfinished.trans h.finished⟩
  | @accept id r haccepted now =>
    have hstarted : l.collector.started.getD now =
        ((l.accepted ++ [(⟨id, r, now⟩ : Acceptance)]).head?.map (·.instant)).getD now := by
      rw [h.started]
      cases l.accepted <;> rfl
    -- No completion so far is later than this report, so that the greater instant is this one.
    have hmax : max (l.collector.finished.getD now) now = now := by
      refine max_eq_right ?_
      rw [h.finished]
      cases hlast : l.completions.getLast? with
      | none => exact Nat.le_refl _
      | some t =>
        obtain ⟨a, ha, rfl⟩ := List.mem_map.mp (List.mem_of_getLast? hlast)
        exact hlate now rfl a (List.mem_filter.mp ha).1
    constructor
    · show some (l.collector.started.getD now) = _
      rw [hstarted]
      cases l.accepted <;> rfl
    · show (if r.completed then some (max (l.collector.finished.getD now) now)
        else l.collector.finished) = _
      rw [completions_concat, hmax]
      by_cases hcompleted : r.completed = true
      · simp [hcompleted]
      · rw [if_neg hcompleted, if_neg hcompleted, List.append_nil]
        exact h.finished

/-- The accepted reports came at some of the instants, in their order. -/
theorem instants_sublist (os : List Operation) :
    ((after os).accepted.map (·.instant)).Sublist (instants os) := by
  induction os using List.reverseRecOn with
  | nil => exact .slnil
  | append_singleton os o ih =>
    rw [after_concat, instants_concat]
    have hreacts := (after os).reacts_step o
    generalize (after os).step o = l' at hreacts ⊢
    cases hreacts with
    | accept haccepted now =>
      rw [List.map_append]
      exact ih.append (.refl _)
    | register | refuse | mark => exact ih.trans (List.sublist_append_left ..)

/-- **Run lemma.** When all reports came in order, the instants that bound the run are those of the
    first accepted report and of the last completion. -/
theorem clocked_after (hordered : (instants os).Pairwise (· ≤ ·)) : (after os).Clocked := by
  induction os using List.reverseRecOn with
  | nil => exact ⟨rfl, rfl⟩
  | append_singleton os o ih =>
    rw [instants_concat, List.pairwise_append] at hordered
    obtain ⟨hos, -, hlast⟩ := hordered
    rw [after_concat]
    refine (ih hos).step fun now hnow a ha => ?_
    have hmem := (instants_sublist os).subset (List.mem_map_of_mem ha)
    exact hlast _ hmem now (by simp [hnow])

theorem Clocked.elapsed_eq (h : l.Clocked) (now : Nat) :
    l.collector.elapsed now = l.runTime now := by
  unfold Collector.elapsed runTime endsAt
  rw [h.started, h.finished]
  cases l.accepted <;> rfl

/-- The run does not end before it starts. -/
theorem started_le_finished (hordered : (instants os).Pairwise (· ≤ ·)) {now : Nat}
    (hnow : ∀ t ∈ instants os, t ≤ now) {started : Nat}
    (hstarted : (after os).collector.started = some started) :
    started ≤ (after os).collector.finished.getD now := by
  obtain ⟨hs, hf⟩ := clocked_after hordered
  have hsub := instants_sublist os
  rw [hstarted] at hs
  rw [hf]
  obtain ⟨first, hfirst, rfl⟩ := Option.map_eq_some_iff.mp hs.symm
  obtain ⟨rest, has⟩ := List.head?_eq_some_iff.mp hfirst
  cases hlast : (after os).completions.getLast? with
  | none => exact hnow _ (hsub.subset (by simp [has]))
  | some t =>
    obtain ⟨a, ha, rfl⟩ := List.mem_map.mp (List.mem_of_getLast? hlast)
    have hpairwise := hordered.sublist hsub
    rw [has, List.map_cons, List.pairwise_cons] at hpairwise
    rcases List.mem_cons.mp (has ▸ (List.mem_filter.mp ha).1) with rfl | ha
    · exact Nat.le_refl _
    · exact hpairwise.1 _ (List.mem_map_of_mem ha)

/-! ### Operations that accept no report -/

/-- What accepts no report moves neither instant. -/
theorem Reacts.instants_eq (h : l.Reacts o l') (haccepted : l'.accepted = l.accepted) :
    l'.collector.started = l.collector.started ∧
      l'.collector.finished = l.collector.finished := by
  cases h with
  | register | refuse => exact ⟨rfl, rfl⟩
  | accept => exact absurd haccepted (by simp)
  | mark _ s admits => exact Collector.instants_mark ..

/-- What holds however often workers are registered. -/
structure Orderly (l : Ledger) : Prop where
  ascending : l.collector.ids.Pairwise (· < ·)
  /-- Nothing is counted of a worker that has not reported. -/
  blank : ∀ w ∈ l.collector.workers, (∀ a ∈ l.accepted, a.worker ≠ w.1) → w.2.report = {}

theorem Orderly.nodup (h : l.Orderly) : l.collector.ids.Nodup := h.ascending.imp Nat.ne_of_lt

/-- **Step lemma.** Every operation keeps the workers listed once, and those blank that have not
    reported. -/
theorem Orderly.step (h : l.Orderly) (o : Operation) : (l.step o).Orderly := by
  have hreacts := l.reacts_step o
  generalize l.step o = l' at hreacts ⊢
  cases hreacts with
  | register id =>
    refine ⟨Collector.ascending_register id h.ascending, fun w hw hunknown => ?_⟩
    rcases Collector.mem_insertEntry hw with rfl | hw
    · rfl
    · exact h.blank w hw hunknown
  | @accept id r haccepted now =>
    refine ⟨(Collector.ids_accept ..).symm ▸ h.ascending, fun w hw hunknown => ?_⟩
    rcases Collector.mem_setEntry hw with rfl | hw
    · exact absurd rfl (hunknown ⟨id, r, now⟩ (by simp))
    · exact h.blank w hw fun a ha => hunknown a (List.mem_append_left _ ha)
  | refuse => exact h
  | @mark o id ho s admits =>
    refine ⟨(Collector.ids_mark ..).symm ▸ h.ascending, fun w hw hunknown => ?_⟩
    obtain ⟨v, hv, hid, hreport⟩ := Collector.exists_of_mem_mark hw
    rw [hreport]
    exact h.blank v hv (hid ▸ hunknown)

theorem orderly_after (os : List Operation) : (after os).Orderly :=
  List.foldlRecOn os step ⟨.nil, fun _ hw => absurd hw List.not_mem_nil⟩ fun _ h o _ => h.step o

theorem accepted_prefix_step (l : Ledger) (o : Operation) :
    l.accepted <+: (l.step o).accepted := by
  have hreacts := l.reacts_step o
  generalize l.step o = l' at hreacts ⊢
  cases hreacts with
  | accept => exact List.prefix_append ..
  | register | refuse | mark => exact List.prefix_rfl

theorem accepted_prefix_foldl (l : Ledger) (more : List Operation) :
    l.accepted <+: (more.foldl step l).accepted := by
  induction more generalizing l with
  | nil => exact List.prefix_rfl
  | cons o more ih => exact (accepted_prefix_step l o).trans (ih _)

/-- What accepts nothing in the end accepts nothing at first. -/
theorem accepted_step_of_foldl (h : ((o :: more).foldl step l).accepted = l.accepted) :
    (l.step o).accepted = l.accepted := by
  have hlater : (l.step o).accepted <+: l.accepted := h ▸ accepted_prefix_foldl (l.step o) more
  exact hlater.eq_of_length_le (accepted_prefix_step l o).length_le

/-- **Run lemma.** As long as no report is accepted, the run has the same start and end. -/
theorem instants_foldl (h : (more.foldl step l).accepted = l.accepted) :
    (more.foldl step l).collector.started = l.collector.started ∧
      (more.foldl step l).collector.finished = l.collector.finished := by
  induction more generalizing l with
  | nil => exact ⟨rfl, rfl⟩
  | cons o more ih =>
    have hstep := accepted_step_of_foldl h
    obtain ⟨hstarted, hfinished⟩ := (l.reacts_step o).instants_eq hstep
    obtain ⟨hstarted', hfinished'⟩ := ih (h.trans hstep.symm)
    exact ⟨hstarted'.trans hstarted, hfinished'.trans hfinished⟩

/-- Nothing is counted for a worker that has not reported, even if it is registered twice. -/
theorem Orderly.idles (h : l.Orderly) (haccepted : (l.step o).accepted = l.accepted)
    (hunreported : ∀ id, o.registers? = some id → ∀ a ∈ l.accepted, a.worker ≠ id) :
    l.collector.Idles (l.step o).collector := by
  have hreacts := l.reacts_step o
  generalize l.step o = l' at hreacts haccepted ⊢
  cases hreacts with
  | register id =>
    exact .register fun w hw hid => h.blank w hw (hid ▸ hunreported id rfl)
  | accept => exact absurd haccepted (by simp)
  | refuse => exact .same
  | mark _ s admits => exact .mark ..

/-- As long as no report is accepted and nobody who has reported is registered anew, the totals stay
    as they are. -/
theorem Orderly.totals_foldl (h : l.Orderly)
    (haccepted : (more.foldl Ledger.step l).accepted = l.accepted)
    (hunreported : ∀ id ∈ registrations more, ∀ a ∈ l.accepted, a.worker ≠ id) :
    (more.foldl Ledger.step l).collector.totals = l.collector.totals := by
  induction more generalizing l with
  | nil => rfl
  | cons o more ih =>
    have hstep := accepted_step_of_foldl haccepted
    have hidles := h.idles hstep fun id ho => hunreported id (by simp [registrations, ho])
    have hrest := ih (h.step o) (haccepted.trans hstep.symm) fun id hid a ha =>
      hunreported id ((List.sublist_cons_self ..).filterMap _ |>.subset hid) a (hstep ▸ ha)
    exact hrest.trans (hidles.totals_eq h.nodup)

/-! ### Timing -/

/-- The operations that have no part in the time of the run. -/
inductive Ignores (l : Ledger) : Operation → Prop
  | register (id : Nat) : l.Ignores (.register id)
  | refused {id : Nat} {r : Report} {now : Nat} {e : ProtocolError}
    (h : l.collector.merge id r now = .error e) : l.Ignores (.merge id r now)
  | fail (id : Nat) : l.Ignores (.fail id)
  | lose (id : Nat) : l.Ignores (.lose id)

theorem Ignores.accepted_eq (h : l.Ignores o) : (l.step o).accepted = l.accepted := by
  cases h with
  | refused h => simp only [step, h]
  | register | fail | lose => rfl

/-- What the time of a run is after a history. -/
structure Timing (os : List Operation) : Prop where
  elapsed : ∀ now, (after os).collector.elapsed now = (after os).runTime now
  /-- It is the time that goes into the summary. -/
  finalize : ∀ now, (after os).collector.finalize now =
    .of (after os).collector.totals.requests (after os).collector.totals.bytes
      ((after os).runTime now)
  /-- A summary that is not made before the reports has no time cut off. -/
  exact : ∀ now, (∀ t ∈ instants os, t ≤ now) →
    ∀ started, (after os).collector.started = some started →
      started ≤ (after os).collector.finished.getD now
  ignores : ∀ o, (after os).Ignores o →
    ∀ now, (after (os ++ [o])).collector.elapsed now = (after os).collector.elapsed now
  /-- Once a worker has completed, the time is the same until another report is accepted, and so is
      the summary, unless someone who has reported is registered anew. -/
  settled : (after os).completions ≠ [] →
    ∀ more, (after (os ++ more)).accepted = (after os).accepted → ∀ now later,
      (after (os ++ more)).collector.elapsed later = (after os).collector.elapsed now ∧
      ((∀ id ∈ registrations more, ∀ a ∈ (after os).accepted, a.worker ≠ id) →
        (after (os ++ more)).collector.finalize later = (after os).collector.finalize now)

theorem elapsed_eq_of_accepted (haccepted : (after (os ++ more)).accepted = (after os).accepted)
    (now : Nat) :
    (after (os ++ more)).collector.elapsed now = (after os).collector.elapsed now := by
  rw [after_append] at haccepted ⊢
  obtain ⟨hstarted, hfinished⟩ := instants_foldl haccepted
  unfold Collector.elapsed
  rw [hstarted, hfinished]

/-- The time of a run in which a worker has completed is over. -/
theorem Clocked.elapsed_congr (h : l.Clocked) (hcompleted : l.completions ≠ []) (now later : Nat) :
    l.collector.elapsed later = l.collector.elapsed now := by
  have hlast := List.getLast?_eq_some_getLast hcompleted
  unfold Collector.elapsed
  rw [h.finished, hlast]
  rfl

/-- **Timing.** Whatever a collector is asked, however often it registers the same workers, as long
    as the reports come in order: the time of its run is that from the first accepted report to the
    last completion. -/
theorem timing_after (os : List Operation) (hordered : (instants os).Pairwise (· ≤ ·)) :
    Timing os := by
  have hclocked := clocked_after hordered
  refine ⟨hclocked.elapsed_eq, fun now => ?_, fun now hnow started hstarted => ?_,
    fun o ho now => ?_, fun hcompleted more haccepted now later => ?_⟩
  · rw [Collector.finalize, hclocked.elapsed_eq]
  · exact started_le_finished hordered hnow hstarted
  · exact elapsed_eq_of_accepted ((after_concat os o).symm ▸ ho.accepted_eq) now
  · have helapsed :
        (after (os ++ more)).collector.elapsed later = (after os).collector.elapsed now :=
      (elapsed_eq_of_accepted haccepted later).trans (hclocked.elapsed_congr hcompleted now later)
    refine ⟨helapsed, fun hunreported => ?_⟩
    have htotals : (after (os ++ more)).collector.totals = (after os).collector.totals := by
      rw [after_append] at haccepted ⊢
      exact (orderly_after os).totals_foldl haccepted hunreported
    rw [Collector.finalize, Collector.finalize, helapsed, htotals]

/-- What a collector is asked after the history `disturbed`; no other report is accepted. -/
def aftermath : List Operation :=
  [.register 7, .merge 3 { completed := true } 60, .fail 7, .lose 0]

/-- The run begins with the first of the three accepted reports and ends with the last one, which
    completes its worker. A summary that is made in the aftermath is no other. -/
theorem timing_after_disturbed :
    (instants disturbed).Pairwise (· ≤ ·) ∧ Timing disturbed ∧
      (after disturbed).collector.elapsed 60 = 30 ∧
      (after (disturbed ++ aftermath)).collector.finalize 90 =
        (after disturbed).collector.finalize 50 := by
  have hordered : (instants disturbed).Pairwise (· ≤ ·) := by decide
  have htiming := timing_after disturbed hordered
  have hsettled := htiming.settled (by decide) aftermath (by decide) 50 90
  exact ⟨hordered, htiming, by decide, hsettled.2 (by decide)⟩

/-- A worker that completes after a second. -/
def completedOnce : List Operation :=
  [.register 0, .merge 0 { requests := 2, bytes := 200 } 0,
   .merge 0 { requests := 5, bytes := 500, completed := true } 1000000000]

/-- What a worker has counted is gone when it is registered anew, although no report was accepted
    since: the summary is another one. -/
theorem finalize_ne_of_registered_again :
    (instants (completedOnce ++ [.register 0])).Pairwise (· ≤ ·) ∧
      (∀ t ∈ instants (completedOnce ++ [.register 0]), t ≤ 1000000000) ∧
      (after completedOnce).completions ≠ [] ∧
      (after (completedOnce ++ [.register 0])).accepted = (after completedOnce).accepted ∧
      (after (completedOnce ++ [.register 0])).collector.finalize 2000000000 ≠
        (after completedOnce).collector.finalize 1000000000 := by
  refine ⟨by decide, by decide, by decide, by decide, fun heq => ?_⟩
  have htransactions := congrArg Summary.transactions heq
  simp only [Collector.finalize, Summary.transactions_of] at htransactions
  revert htransactions
  decide

end Ledger

end TxLoad
