import TxLoad.Proofs.Stats.Sums
import Mathlib.Data.List.Induction

namespace TxLoad

/-!
# The accounts of a collector

A collector is asked to register workers, to merge their reports and to give workers up, in any
order. What it knows of its workers is compared with a ledger of the reports that it has accepted.

* `Collector.run_mergeInPlace`: a merge that writes to the collector step by step has written
  nothing by the time of a refusal, and is `Collector.merge` otherwise.
* `Ledger` is a collector with the reports that it has accepted, `Ledger.after` what it is after a
  history of operations.
* `Ledger.Inv`: the entry of a worker shows its last accepted report, and the live counters show the
  totals. Every operation that registers nobody twice keeps it (`Ledger.Inv.step`).
* `Ledger.accounts_after`: what the totals are after a history, and which reports are accepted next.
-/

namespace Collector

/-! ### Merging in place -/

/-- A merge that works on the collector itself, one write after the other: what has been written by
    the time of a refusal stays written. -/
def mergeInPlace (id : Nat) (report : Report) (now : Nat) :
    ExceptT ProtocolError (StateM Collector) Bool := do
  match (← get).entryOf? id with
  | none => throw (.unregistered id)
  | some entry =>
    if entry.status ≠ .active then
      throw (.unexpected "no reports after completion"
        s!"stats_report from worker {id} in state {entry.status.name}")
    else if report.requests < entry.report.requests ∨ report.bytes < entry.report.bytes then
      throw (.nonMonotonic id entry.report.requests entry.report.bytes report.requests report.bytes)
    else
      modify fun c => c.setEntry id { entry with report }
      modify fun c => { c with started := some (c.started.getD now) }
      if report.completed then
        modify fun c => c.setEntry id ⟨.completed, report⟩
        modify fun c => { c with finished := some (c.finished.elim now (max · now)) }
      modify fun c => { c with live := c.totals }
      return report.completed

@[simp] theorem setEntry_setEntry (c : Collector) (id : Nat) (e e' : WorkerEntry) :
    (c.setEntry id e).setEntry id e' = c.setEntry id e' := by
  simp only [setEntry, List.map_map]
  congr 1
  refine List.map_congr_left fun w _ => ?_
  by_cases h : w.1 = id <;> simp [h]

/-- **All checks come before all writes.** A merge in place that is refused has changed nothing. -/
theorem run_mergeInPlace (c : Collector) (id : Nat) (report : Report) (now : Nat) :
    (mergeInPlace id report now).run.run c =
      match c.merge id report now with
      | .ok (d, completes) => (.ok completes, d)
      | .error e => (.error e, c) := by
  have hget : ∀ f : Collector → ExceptT ProtocolError (StateM Collector) Bool,
      (get >>= f).run.run c = (f c).run.run c := fun _ => rfl
  unfold mergeInPlace merge refusal?
  rw [hget]
  cases he : c.entryOf? id with
  | none => rfl
  | some entry =>
    simp only
    by_cases hactive : entry.status = .active
    · rw [if_neg (not_not.mpr hactive), if_neg (not_not.mpr hactive)]
      by_cases hbehind : report.requests < entry.report.requests ∨
          report.bytes < entry.report.bytes
      · rw [if_pos hbehind, if_pos hbehind]
        rfl
      · rw [if_neg hbehind, if_neg hbehind]
        by_cases hcompleted : report.completed = true
        · -- The entry is written twice, and the second write is that of the accepted report.
          have hworkers := congrArg workers
            (setEntry_setEntry c id { entry with report } ⟨.completed, report⟩)
          have hfinished : c.finished.elim now (max · now) = max (c.finished.getD now) now := by
            cases c.finished <;> simp
          rw [if_pos hcompleted]
          refine Prod.ext rfl ?_
          show Collector.mk ((c.setEntry id _).setEntry id _).workers _
            (some (c.finished.elim now (max · now)))
            (((c.setEntry id _).setEntry id _).workers.foldl addReport {}) = c.accept id report now
          rw [hworkers, hfinished]
          simp only [accept, hcompleted]
          rfl
        · rw [if_neg hcompleted]
          refine Prod.ext rfl ?_
          show _ = c.accept id report now
          simp only [accept, hcompleted, hactive]
          rfl
    · rw [if_pos hactive, if_pos hactive]
      rfl

theorem exists_of_merge_iff {c : Collector} {id : Nat} {r : Report} {now : Nat} :
    (∃ accepted, c.merge id r now = .ok accepted) ↔ c.refusal? id r = none := by
  unfold merge
  cases c.refusal? id r <;> simp

/-! ### Operations -/

/-- What a collector is asked to do. -/
inductive Operation where
  | register (id : Nat)
  | merge (id : Nat) (report : Report) (now : Nat)
  | fail (id : Nat)
  | lose (id : Nat)
  deriving DecidableEq

/-- The worker that an operation registers. -/
def Operation.registers? : Operation → Option Nat
  | register id => some id
  | _ => none

/-- With each id registered once, a new worker has an empty entry and all others keep theirs. -/
theorem entryOf_register {c : Collector} (hc : c.ids.Nodup) {id : Nat} (hnew : id ∉ c.ids)
    {j : Nat} {e : WorkerEntry} (h : (c.register id).entryOf? j = some e) :
    (j = id ∧ e = {}) ∨ c.entryOf? j = some e := by
  have hids : (c.register id).ids.Nodup :=
    (perm_ids_register hnew).nodup_iff.mpr (List.nodup_cons.mpr ⟨hnew, hc⟩)
  have hmem := (perm_insertEntry {} hnew).mem_iff.mp ((entryOf_eq_some_iff hids).mp h)
  rcases List.mem_cons.mp hmem with heq | hmem
  · exact .inl (Prod.mk.injEq .. ▸ heq)
  · exact .inr ((entryOf_eq_some_iff hc).mpr hmem)

end Collector

/-- A report that was accepted: whose it is and when it came. -/
structure Acceptance where
  worker : Nat
  report : Report
  instant : Nat
  deriving DecidableEq

/-- A collector with the reports that it has accepted so far, in order. -/
structure Ledger where
  collector : Collector := {}
  accepted : List Acceptance := []
  deriving DecidableEq

namespace Ledger

open Collector (Operation)

def step (l : Ledger) : Operation → Ledger
  | .register id => { l with collector := l.collector.register id }
  | .merge id report now =>
    match l.collector.merge id report now with
    | .ok (collector, _) => ⟨collector, l.accepted ++ [⟨id, report, now⟩]⟩
    | .error _ => l
  | .fail id => { l with collector := l.collector.fail id }
  | .lose id => { l with collector := l.collector.lose id }

/-- The ledger after a history that begins with an empty collector. -/
def after (os : List Operation) : Ledger := os.foldl step {}

/-- The workers that a history registers, in order. -/
def registrations (os : List Operation) : List Nat := os.filterMap Operation.registers?

/-- The last report that was accepted from a worker; an empty one if there is none. -/
def lastReport (l : Ledger) (id : Nat) : Report :=
  ((l.accepted.filter (·.worker == id)).getLast?.map (·.report)).getD {}

/-- The sum over some workers of their last accepted reports. -/
def sum (l : Ledger) (ids : List Nat) (count : Report → UInt64) : Nat :=
  (ids.map fun id => (count (l.lastReport id)).toNat).sum

/-- Whether the sums of requests and of bytes over the registered workers are words. -/
def Fits (os : List Operation) : Prop :=
  (after os).sum (registrations os) (·.requests) < 2 ^ 64 ∧
    (after os).sum (registrations os) (·.bytes) < 2 ^ 64

instance (os : List Operation) : Decidable (Fits os) := inferInstanceAs (Decidable (_ ∧ _))

variable {l : Ledger} {os : List Operation}

theorem after_append (os os' : List Operation) : after (os ++ os') = os'.foldl step (after os) :=
  List.foldl_append

theorem after_concat (os : List Operation) (o : Operation) :
    after (os ++ [o]) = (after os).step o := after_append os [o]

/-- What an operation can do. -/
inductive Reacts (l : Ledger) : Operation → Ledger → Prop
  | register (id : Nat) :
    l.Reacts (.register id) { l with collector := l.collector.register id }
  | accept {id : Nat} {r : Report} (haccepted : l.collector.refusal? id r = none) (now : Nat) :
    l.Reacts (.merge id r now)
      ⟨l.collector.accept id r now, l.accepted ++ [⟨id, r, now⟩]⟩
  | refuse {id : Nat} {r : Report} {e : ProtocolError}
    (hrefused : l.collector.refusal? id r = some e) (now : Nat) : l.Reacts (.merge id r now) l
  /-- A worker is given up. -/
  | mark {o : Operation} {id : Nat} (ho : o = .fail id ∨ o = .lose id) (s : WorkerStatus)
    (admits : WorkerStatus → Bool) :
    l.Reacts o { l with collector := l.collector.mark id s admits }

theorem reacts_step (l : Ledger) (o : Operation) : l.Reacts o (l.step o) := by
  cases o with
  | register id => exact .register id
  | merge id r now =>
    cases h : l.collector.refusal? id r with
    | none =>
      have hstep : l.step (.merge id r now) =
          ⟨l.collector.accept id r now, l.accepted ++ [⟨id, r, now⟩]⟩ := by
        simp only [step, Collector.merge, h]
      exact hstep ▸ .accept h now
    | some e =>
      have hstep : l.step (.merge id r now) = l := by simp only [step, Collector.merge, h]
      exact hstep.symm ▸ .refuse h now
  | fail id => exact .mark (.inl rfl) .failed _
  | lose id => exact .mark (.inr rfl) .lost _

/-! ### The last accepted report -/

/-- An accepted report is the last one of its worker. -/
theorem lastReport_concat (c : Collector) (as : List Acceptance) (a : Acceptance) (id : Nat) :
    (Ledger.mk c (as ++ [a])).lastReport id =
      if a.worker = id then a.report else (Ledger.mk c as).lastReport id := by
  unfold lastReport
  by_cases h : a.worker = id <;> simp [List.filter_append, h]

/-- Nothing is accepted from a worker that is not known. -/
theorem lastReport_of_unknown {id : Nat} (h : ∀ a ∈ l.accepted, a.worker ≠ id) :
    l.lastReport id = {} := by
  have hnil : l.accepted.filter (·.worker == id) = [] := by
    simpa [List.filter_eq_nil_iff] using h
  rw [lastReport, hnil]
  rfl

/-! ### What holds after every operation -/

/-- What holds as long as nobody is registered twice. -/
structure Inv (l : Ledger) : Prop where
  nodup : l.collector.ids.Nodup
  /-- The entry of a worker shows its last accepted report. -/
  report : ∀ id e, l.collector.entryOf? id = some e → e.report = l.lastReport id
  known : ∀ a ∈ l.accepted, a.worker ∈ l.collector.ids
  published : l.collector.IsPublished

/-- The operation registers nobody who is registered. -/
def IsNew (l : Ledger) (o : Operation) : Prop :=
  ∀ id, o.registers? = some id → id ∉ l.collector.ids

/-- What such an operation makes of the collector. -/
theorem IsNew.advances {o : Operation} (hnew : l.IsNew o) :
    l.collector.Advances (l.step o).collector := by
  have hreacts := l.reacts_step o
  generalize l.step o = l' at hreacts ⊢
  cases hreacts with
  | register id => exact .idle (.of_new (hnew id rfl))
  | accept haccepted now => exact .accept haccepted now
  | refuse => exact .idle .same
  | mark _ s admits => exact .idle (.mark ..)

theorem IsNew.perm_ids {o : Operation} (hnew : l.IsNew o) :
    (l.step o).collector.ids.Perm (l.collector.ids ++ o.registers?.toList) := by
  have hreacts := l.reacts_step o
  generalize l.step o = l' at hreacts ⊢
  cases hreacts with
  | register id =>
    exact (Collector.perm_ids_register (hnew id rfl)).trans (List.perm_append_singleton ..).symm
  | accept haccepted now =>
    rw [Collector.ids_accept]
    simp [Operation.registers?]
  | refuse => simp [Operation.registers?]
  | mark ho s admits =>
    rw [Collector.ids_mark]
    rcases ho with rfl | rfl <;> simp [Operation.registers?]

/-- **Step lemma.** Every operation that registers nobody twice keeps the entries in line with the
    ledger. -/
theorem Inv.step (h : l.Inv) {o : Operation} (hnew : l.IsNew o) : (l.step o).Inv := by
  have hpublished := hnew.advances.isPublished h.nodup h.published
  have hreacts := l.reacts_step o
  generalize l.step o = l' at hreacts hpublished ⊢
  cases hreacts with
  | register id =>
    have hid := hnew id rfl
    have hperm := Collector.perm_ids_register hid
    refine ⟨hperm.nodup_iff.mpr (List.nodup_cons.mpr ⟨hid, h.nodup⟩), ?_, ?_, hpublished⟩
    · intro j e he
      rcases Collector.entryOf_register h.nodup hid he with ⟨rfl, rfl⟩ | he
      · -- No report of the new worker can have been accepted before.
        refine (lastReport_of_unknown fun a ha => ?_).symm
        rintro rfl
        exact hid (h.known a ha)
      · exact h.report j e he
    · exact fun a ha => hperm.mem_iff.mpr (List.mem_cons_of_mem _ (h.known a ha))
  | @accept id r haccepted now =>
    obtain ⟨entry, hentry, -⟩ := Collector.refusal?_eq_none_iff.mp haccepted
    refine ⟨(Collector.ids_accept ..).symm ▸ h.nodup, ?_, ?_, hpublished⟩
    · intro j e he
      rw [Collector.entryOf_accept hentry] at he
      rw [lastReport_concat]
      by_cases hj : j = id
      · rw [if_pos hj, Option.some.injEq] at he
        rw [if_pos hj.symm, ← he]
      · rw [if_neg hj] at he
        rw [if_neg (Ne.symm hj)]
        exact h.report j e he
    · intro a ha
      rw [Collector.ids_accept]
      rcases List.mem_append.mp ha with ha | ha
      · exact h.known a ha
      · obtain rfl := List.mem_singleton.mp ha
        exact Collector.mem_ids hentry
  | refuse => exact h
  | @mark o id ho s admits =>
    refine ⟨(Collector.ids_mark ..).symm ▸ h.nodup, ?_, ?_, hpublished⟩
    · intro j e he
      rw [Collector.entryOf_mark] at he
      by_cases hj : j = id
      · subst hj
        rw [if_pos rfl] at he
        obtain ⟨e', he', rfl⟩ := Option.map_eq_some_iff.mp he
        have hreport := h.report j e' he'
        split
        · exact hreport
        · exact hreport
      · rw [if_neg hj] at he
        exact h.report j e he
    · exact fun a ha => (Collector.ids_mark ..).symm ▸ h.known a ha

theorem inv_nil : (after []).Inv where
  nodup := .nil
  report _ _ h := by cases h
  known _ h := by cases h
  published := rfl

theorem registrations_concat (os : List Operation) (o : Operation) :
    registrations (os ++ [o]) = registrations os ++ o.registers?.toList := by
  cases h : o.registers? <;> simp [registrations, h]

theorem isNew_of_nodup {o : Operation} (hids : l.collector.ids.Perm (registrations os))
    (honce : (registrations (os ++ [o])).Nodup) : l.IsNew o := by
  rw [registrations_concat] at honce
  intro id ho hmem
  exact (List.nodup_append.mp honce).2.2 id (hids.mem_iff.mp hmem) id (by simp [ho]) rfl

theorem nodup_of_past {past : List Operation} (h : past <+: os)
    (honce : (registrations os).Nodup) : (registrations past).Nodup :=
  honce.sublist (h.sublist.filterMap _)

/-- **Run lemma.** After a history that registers nobody twice the entries are in line with the
    ledger, and the workers are those that were registered. -/
theorem inv_after (honce : (registrations os).Nodup) :
    (after os).Inv ∧ (after os).collector.ids.Perm (registrations os) := by
  induction os using List.reverseRecOn with
  | nil => exact ⟨inv_nil, .refl _⟩
  | append_singleton os o ih =>
    obtain ⟨hinv, hids⟩ := ih (nodup_of_past (List.prefix_append ..) honce)
    have hnew := isNew_of_nodup hids honce
    rw [after_concat, registrations_concat]
    exact ⟨hinv.step hnew, hnew.perm_ids.trans (hids.append_right _)⟩

/-! ### Sums -/

/-- The sum over the entries is the one over the last accepted reports. -/
theorem sum_eq (h : l.Inv) {ids : List Nat} (hids : l.collector.ids.Perm ids)
    (count : Report → UInt64) : l.collector.sum count = l.sum ids count := by
  have hentries : l.collector.workers.map (fun w => (count w.2.report).toNat) =
      l.collector.ids.map fun id => (count (l.lastReport id)).toNat := by
    rw [Collector.ids, List.map_map]
    refine List.map_congr_left fun w hw => ?_
    have hentry := (Collector.entryOf_eq_some_iff h.nodup).mpr hw
    simp only [Function.comp_apply, h.report w.1 w.2 hentry]
  rw [Collector.sum, hentries]
  exact (hids.map _).sum_eq

theorem fits_iff (honce : (registrations os).Nodup) : (after os).collector.Fits ↔ Fits os := by
  obtain ⟨hinv, hids⟩ := inv_after honce
  rw [Collector.Fits, sum_eq hinv hids, sum_eq hinv hids, Fits]

/-- As long as the sums are words, no total is behind that of an earlier moment. -/
theorem totals_le (honce : (registrations os).Nodup) (hfits : (after os).collector.Fits)
    {past : List Operation} (hpast : past <+: os) :
    (after past).collector.totals ≤ (after os).collector.totals := by
  obtain ⟨future, rfl⟩ := hpast
  induction future using List.reverseRecOn with
  | nil => rw [List.append_nil]; exact Totals.le_refl _
  | append_singleton future o ih =>
    rw [← List.append_assoc] at honce hfits ⊢
    have honce' := nodup_of_past (List.prefix_append ..) honce
    obtain ⟨hinv, hids⟩ := inv_after honce'
    have hadvances := (isNew_of_nodup hids honce).advances
    rw [after_concat] at hfits ⊢
    exact Totals.le_trans (ih honce' (hadvances.fits hinv.nodup hfits))
      (hadvances.totals_le hinv.nodup hfits)

/-! ### Accounts -/

/-- How the accounts of a collector stand after a history. -/
structure Accounts (os : List Operation) : Prop where
  /-- As long as the sums are words, the totals are the sums over the registered workers of their
      last accepted reports. -/
  totals : Fits os →
    (after os).collector.totals.requests.toNat = (after os).sum (registrations os) (·.requests) ∧
    (after os).collector.totals.bytes.toNat = (after os).sum (registrations os) (·.bytes)
  live : (after os).collector.live = (after os).collector.totals
  /-- As long as the sums are words, no total is behind that of an earlier moment. -/
  ascending : Fits os → ∀ past, past <+: os →
    (after past).collector.totals ≤ (after os).collector.totals
  isSettled_iff : (after os).collector.isSettled = true ↔ (after os).collector.active = []
  /-- A report is accepted exactly if its worker is registered and active and neither its requests
      nor its bytes are behind those of the last accepted one. -/
  accepts : ∀ id r now, (∃ accepted, (after os).collector.merge id r now = .ok accepted) ↔
    id ∈ registrations os ∧ (after os).collector.status id = some .active ∧
      ((after os).lastReport id).requests ≤ r.requests ∧ ((after os).lastReport id).bytes ≤ r.bytes
  /-- A report that is refused changes nothing, not even where the merge works in place. -/
  refuses : ∀ id r now e, (after os).collector.merge id r now = .error e →
    after (os ++ [.merge id r now]) = after os ∧
      (Collector.mergeInPlace id r now).run.run (after os).collector =
        (.error e, (after os).collector)

/-- **Accounts.** Whatever a collector is asked, in whatever order, as long as it is asked to
    register nobody twice: after every operation its accounts are in order. -/
theorem accounts_after (os : List Operation) (honce : (registrations os).Nodup) :
    ∀ past, past <+: os → Accounts past := by
  intro past hpast
  have honce := nodup_of_past hpast honce
  obtain ⟨hinv, hids⟩ := inv_after honce
  refine ⟨fun hfits => ?_, hinv.published, fun hfits earlier => ?_,
    Collector.isSettled_iff _, fun id r now => ?_, fun id r now e herror => ⟨?_, ?_⟩⟩
  · rw [← sum_eq hinv hids, ← sum_eq hinv hids]
    exact ((fits_iff honce).mpr hfits).toNat_totals
  · exact totals_le honce ((fits_iff honce).mpr hfits)
  · rw [Collector.exists_of_merge_iff, Collector.refusal?_eq_none_iff, ← hids.mem_iff]
    constructor
    · rintro ⟨entry, hentry, hactive, hrequests, hbytes⟩
      rw [hinv.report id entry hentry] at hrequests hbytes
      exact ⟨Collector.mem_ids hentry, Collector.status_eq_some_iff.mpr ⟨entry, hentry, hactive⟩,
        hrequests, hbytes⟩
    · rintro ⟨-, hstatus, hrequests, hbytes⟩
      obtain ⟨entry, hentry, hactive⟩ := Collector.status_eq_some_iff.mp hstatus
      rw [← hinv.report id entry hentry] at hrequests hbytes
      exact ⟨entry, hentry, hactive, hrequests, hbytes⟩
  · rw [after_concat, step, herror]
  · rw [Collector.run_mergeInPlace, herror]

/-- A report of a stranger, one that falls behind and one that comes too late, between reports that
    are accepted; the workers register out of order, and one of them is given up twice. -/
def disturbed : List Operation :=
  [.register 3, .merge 0 { requests := 1, bytes := 1 } 5, .register 0,
   .merge 3 { requests := 5, bytes := 500 } 10, .merge 3 { requests := 4, bytes := 600 } 20,
   .fail 3, .merge 0 { requests := 7, bytes := 700 } 30,
   .merge 0 { requests := 9, bytes := 900, completed := true } 40, .lose 0, .lose 3, .fail 0,
   .merge 0 { requests := 10, bytes := 950 } 50]

/-- Only the three accepted reports count, and of the two by one worker only the last one. -/
theorem accounts_after_disturbed :
    (registrations disturbed).Nodup ∧ Fits disturbed ∧ Accounts disturbed ∧
      (after disturbed).accepted.map (·.instant) = [10, 30, 40] ∧
      (after disturbed).collector.totals = ⟨14, 1400⟩ := by
  have honce : (registrations disturbed).Nodup := by decide
  have hfits : Fits disturbed := by decide
  exact ⟨honce, hfits, accounts_after disturbed honce disturbed List.prefix_rfl, by decide,
    by decide⟩

end Ledger

end TxLoad
