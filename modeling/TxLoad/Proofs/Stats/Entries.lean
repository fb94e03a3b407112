import TxLoad.Stats.Collector
import Mathlib.Algebra.GroupWithZero.Nat
import Mathlib.Data.List.Nodup
import Mathlib.Tactic.Common

namespace TxLoad

/-!
# The entries of a collector

Every operation of a collector changes the entry of one worker and leaves all others.

* `ids` are the registered workers; only `register` changes them.
* `entryOf_mark`, `entryOf_fail`, `entryOf_lose`, `entryOf_accept` say what becomes of each entry.
* `workers_ext`: ids and entries determine the workers, and with them the totals.
* `toNat_totals`: the totals are the sums over the workers, as 64-bit words.
* `IsPublished`: the live counters are the totals, which every operation keeps.
* `IsDated`: once a worker has completed, the summary does not depend on when it is made.
-/

/-- A counter to which every item of a list adds is the sum of what they add, as a word. -/
theorem toNat_foldl_add {f : β → UInt64} {g : α → UInt64} {add : β → α → β}
    (hadd : ∀ b a, f (add b a) = f b + g a) (as : List α) (b : β) :
    (f (as.foldl add b)).toNat = ((f b).toNat + (as.map fun a => (g a).toNat).sum) % 2 ^ 64 := by
  induction as generalizing b with
  | nil =>
    rw [List.foldl_nil, List.map_nil, List.sum_nil, Nat.add_zero]
    exact (Nat.mod_eq_of_lt (f b).toNat_lt).symm
  | cons a as ih =>
    rw [List.foldl_cons, ih, hadd, UInt64.toNat_add, List.map_cons, List.sum_cons]
    omega

/-- What becomes of an entry whose worker is given up while it is expected to report. -/
def WorkerEntry.lose (e : WorkerEntry) : WorkerEntry :=
  if e.status = .active then { e with status := .lost } else e

/-- Giving up a worker twice is giving it up once. -/
@[simp] theorem WorkerEntry.lose_lose (e : WorkerEntry) : e.lose.lose = e.lose := by
  by_cases h : e.status = .active <;> simp [lose, h]

@[simp] theorem WorkerEntry.report_lose (e : WorkerEntry) : e.lose.report = e.report := by
  by_cases h : e.status = .active <;> simp [lose, h]

theorem WorkerEntry.status_lose_ne_active (e : WorkerEntry) : e.lose.status ≠ .active := by
  by_cases h : e.status = .active <;> simp [lose, h]

namespace Collector

/-! ### Ids and entries -/

/-- The ids of the registered workers, in their order. -/
def ids (c : Collector) : List Nat := c.workers.map (·.1)

/-- With each id registered once, the entries are the workers. -/
theorem entryOf_eq_some_iff {c : Collector} (hc : c.ids.Nodup) {id : Nat} {e : WorkerEntry} :
    c.entryOf? id = some e ↔ (id, e) ∈ c.workers := by
  unfold entryOf?
  constructor
  · intro h
    obtain ⟨w, hw, rfl⟩ := Option.map_eq_some_iff.mp h
    have hid : w.1 = id := by simpa using List.find?_some hw
    rw [← hid]
    exact List.mem_of_find?_eq_some hw
  · intro h
    obtain ⟨w, hw⟩ : ∃ w, c.workers.find? (·.1 == id) = some w := by
      rw [← Option.isSome_iff_exists, List.find?_isSome]
      exact ⟨_, h, by simp⟩
    have hid : w.1 = id := by simpa using List.find?_some hw
    have : w = (id, e) := List.inj_on_of_nodup_map hc (List.mem_of_find?_eq_some hw) h hid
    rw [hw, this]
    rfl

theorem entryOf_isSome_iff {c : Collector} {id : Nat} : (c.entryOf? id).isSome ↔ id ∈ c.ids := by
  simp [ids, entryOf?]

/-- A registered worker has an entry. -/
theorem exists_entry {c : Collector} {id : Nat} (h : id ∈ c.ids) :
    ∃ e, c.entryOf? id = some e :=
  Option.isSome_iff_exists.mp (entryOf_isSome_iff.mpr h)

theorem mem_ids {c : Collector} {id : Nat} {e : WorkerEntry} (h : c.entryOf? id = some e) :
    id ∈ c.ids :=
  entryOf_isSome_iff.mp (by simp [h])

theorem status_eq_some_iff {c : Collector} {id : Nat} {s : WorkerStatus} :
    c.status id = some s ↔ ∃ e, c.entryOf? id = some e ∧ e.status = s := by
  simp [status]

/-- The workers are the ids together with their entries. -/
theorem workers_eq_map {c : Collector} (hc : c.ids.Nodup) :
    c.workers = c.ids.map fun id => (id, (c.entryOf? id).getD {}) := by
  unfold ids
  rw [List.map_map]
  conv_lhs => rw [← List.map_id c.workers]
  refine List.map_congr_left fun w hw => ?_
  have : c.entryOf? w.1 = some w.2 := (entryOf_eq_some_iff hc).mpr hw
  simp [this]

/-- Ids and entries determine the workers. -/
theorem workers_ext {c d : Collector} (hc : c.ids.Nodup) (hids : c.ids = d.ids)
    (h : ∀ id, c.entryOf? id = d.entryOf? id) : c.workers = d.workers := by
  rw [workers_eq_map hc, workers_eq_map (hids ▸ hc), hids]
  exact List.map_congr_left fun id _ => by rw [h id]

/-- The workers of a status, found through their entries. -/
theorem mem_active_iff {c : Collector} (hc : c.ids.Nodup) {id : Nat} :
    id ∈ c.active ↔ c.status id = some .active := by
  rw [status_eq_some_iff]
  simp only [active, idsOf, List.mem_map, List.mem_filter, beq_iff_eq, Prod.exists]
  constructor
  · rintro ⟨_, e, ⟨hw, hs⟩, rfl⟩
    exact ⟨e, (entryOf_eq_some_iff hc).mpr hw, hs⟩
  · rintro ⟨e, he, hs⟩
    exact ⟨id, e, ⟨(entryOf_eq_some_iff hc).mp he, hs⟩, rfl⟩

theorem nodup_active {c : Collector} (hc : c.ids.Nodup) : c.active.Nodup :=
  hc.sublist (List.filter_sublist.map _)

/-- Nobody is active in a settled collector. -/
theorem isSettled_iff_entry {c : Collector} (hc : c.ids.Nodup) :
    c.isSettled = true ↔ ∀ id e, c.entryOf? id = some e → e.status ≠ .active := by
  simp only [isSettled, List.all_eq_true, bne_iff_ne, Prod.forall, entryOf_eq_some_iff hc]

/-! ### Setting an entry -/

@[simp] theorem ids_setEntry (c : Collector) (id : Nat) (e : WorkerEntry) :
    (c.setEntry id e).ids = c.ids := by
  simp only [ids, setEntry, List.map_map]
  refine List.map_congr_left fun w _ => ?_
  by_cases h : w.1 = id <;> simp [h]

theorem entryOf_setEntry (c : Collector) (id : Nat) (e : WorkerEntry) (j : Nat) :
    (c.setEntry id e).entryOf? j =
      if j = id then (c.entryOf? id).map fun _ => e else c.entryOf? j := by
  unfold entryOf? setEntry
  simp only
  induction c.workers with
  | nil => simp
  | cons w ws ih =>
    rw [List.map_cons, List.find?_cons, List.find?_cons, List.find?_cons]
    by_cases hw : w.1 = id
    · by_cases hj : j = id
      · simp [hw, hj]
      · have hne : (id == j) = false := by simpa using Ne.symm hj
        simpa only [hw, if_true, hne, hj, if_false] using ih
    · have h1 : (w.1 == id) = false := by simpa using hw
      by_cases hj : w.1 = j
      · have hne : j ≠ id := fun h => hw (hj.trans h)
        simp [hj, hne]
      · have h2 : (w.1 == j) = false := by simpa using hj
        simpa only [hw, if_false, h1, h2] using ih

/-! ### Marking -/

@[simp] theorem ids_mark (c : Collector) (id : Nat) (s : WorkerStatus)
    (admits : WorkerStatus → Bool) : (c.mark id s admits).ids = c.ids := by
  unfold mark
  split
  · split <;> simp
  · rfl

/-- Marking sets the status of one worker, if its present one is admitted. -/
theorem entryOf_mark (c : Collector) (id : Nat) (s : WorkerStatus) (admits : WorkerStatus → Bool)
    (j : Nat) :
    (c.mark id s admits).entryOf? j =
      if j = id then
        (c.entryOf? id).map fun e => if admits e.status then { e with status := s } else e
      else c.entryOf? j := by
  unfold mark
  cases he : c.entryOf? id with
  | none =>
    by_cases hj : j = id
    · simp [hj, he]
    · simp [hj]
  | some e =>
    by_cases ha : admits e.status = true
    · simp [ha, entryOf_setEntry, he]
    · by_cases hj : j = id
      · simp [ha, hj, he]
      · simp [ha, hj]

@[simp] theorem ids_fail (c : Collector) (id : Nat) : (c.fail id).ids = c.ids := ids_mark ..
@[simp] theorem ids_lose (c : Collector) (id : Nat) : (c.lose id).ids = c.ids := ids_mark ..

theorem entryOf_fail (c : Collector) (id j : Nat) :
    (c.fail id).entryOf? j =
      if j = id then (c.entryOf? id).map fun e => { e with status := .failed }
      else c.entryOf? j := by
  simp [fail, entryOf_mark]

theorem entryOf_lose (c : Collector) (id j : Nat) :
    (c.lose id).entryOf? j =
      if j = id then (c.entryOf? id).map WorkerEntry.lose else c.entryOf? j := by
  simp only [lose, entryOf_mark, beq_iff_eq]
  rfl

/-! ### Accepting a report -/

@[simp] theorem ids_accept (c : Collector) (id : Nat) (r : Report) (now : Nat) :
    (c.accept id r now).ids = c.ids := ids_setEntry c id _

theorem entryOf_accept {c : Collector} {id : Nat} {e : WorkerEntry} (he : c.entryOf? id = some e)
    (r : Report) (now j : Nat) :
    (c.accept id r now).entryOf? j =
      if j = id then some ⟨if r.completed then .completed else .active, r⟩ else c.entryOf? j := by
  have h := entryOf_setEntry c id ⟨if r.completed then .completed else .active, r⟩ j
  rw [he] at h
  exact h

/-! ### Totals -/

/-- **Totals.** They are the sums of the reports of all workers, as 64-bit words. -/
theorem toNat_totals (c : Collector) :
    c.totals.requests.toNat = (c.workers.map (·.2.report.requests.toNat)).sum % 2 ^ 64 ∧
      c.totals.bytes.toNat = (c.workers.map (·.2.report.bytes.toNat)).sum % 2 ^ 64 := by
  have hsum : ∀ {f : Totals → UInt64} {g : Nat × WorkerEntry → UInt64},
      (∀ t w, f (addReport t w) = f t + g w) → f {} = 0 →
        (f c.totals).toNat = (c.workers.map fun w => (g w).toNat).sum % 2 ^ 64 := by
    intro f g hadd hzero
    rw [totals, toNat_foldl_add hadd, hzero, UInt64.toNat_zero, Nat.zero_add]
  exact ⟨hsum (f := (·.requests)) (fun _ _ => rfl) rfl, hsum (f := (·.bytes)) (fun _ _ => rfl) rfl⟩

/-- The totals depend on nothing but the reports. -/
theorem totals_congr {c d : Collector}
    (h : c.workers.map (·.2.report) = d.workers.map (·.2.report)) : c.totals = d.totals := by
  have key : ∀ (ws : List (Nat × WorkerEntry)) (t : Totals), ws.foldl addReport t =
      (ws.map (·.2.report)).foldl
        (fun t r => ⟨t.requests + r.requests, t.bytes + r.bytes⟩) t := by
    intro ws t
    rw [List.foldl_map]
    rfl
  rw [totals, totals, key, key, h]

/-- The live counters show the totals. -/
def IsPublished (c : Collector) : Prop := c.live = c.totals

/-- Marking touches no report. -/
theorem reports_mark {c : Collector} (hc : c.ids.Nodup) (id : Nat) (s : WorkerStatus)
    (admits : WorkerStatus → Bool) :
    (c.mark id s admits).workers.map (·.2.report) = c.workers.map (·.2.report) := by
  rw [workers_eq_map (c := c.mark id s admits) (by simpa using hc), workers_eq_map hc, ids_mark,
    List.map_map, List.map_map]
  refine List.map_congr_left fun j _ => ?_
  simp only [Function.comp_apply, entryOf_mark]
  by_cases hj : j = id
  · subst hj
    cases c.entryOf? j with
    | none => simp
    | some e => by_cases ha : admits e.status = true <;> simp [ha]
  · simp [hj]

/-- Marking changes nothing but an entry. -/
theorem mark_eq (c : Collector) (id : Nat) (s : WorkerStatus) (admits : WorkerStatus → Bool) :
    c.mark id s admits = { c with workers := (c.mark id s admits).workers } := by
  unfold mark
  split
  · split <;> rfl
  · rfl

theorem live_mark (c : Collector) (id : Nat) (s : WorkerStatus) (admits : WorkerStatus → Bool) :
    (c.mark id s admits).live = c.live := by
  rw [mark_eq]

theorem IsPublished.mark {c : Collector} (h : c.IsPublished) (hc : c.ids.Nodup) (id : Nat)
    (s : WorkerStatus) (admits : WorkerStatus → Bool) : (c.mark id s admits).IsPublished := by
  unfold IsPublished
  rw [live_mark, h, totals_congr (reports_mark hc id s admits)]

/-- Giving up some workers, one after the other. -/
theorem entryOf_foldl_lose (is : List Nat) (c : Collector) (j : Nat) :
    (is.foldl lose c).entryOf? j =
      if j ∈ is then (c.entryOf? j).map WorkerEntry.lose else c.entryOf? j := by
  induction is generalizing c with
  | nil => simp
  | cons i is ih =>
    rw [List.foldl_cons, ih, entryOf_lose]
    by_cases hi : j = i
    · subst hi
      by_cases hj : j ∈ is
      · cases c.entryOf? j <;> simp [hj]
      · simp [hj]
    · simp [hi]

theorem ids_foldl_lose (is : List Nat) (c : Collector) : (is.foldl lose c).ids = c.ids := by
  induction is generalizing c with
  | nil => rfl
  | cons i is ih => rw [List.foldl_cons, ih, ids_lose]

theorem IsPublished.foldl_lose {c : Collector} (h : c.IsPublished) (hc : c.ids.Nodup)
    (is : List Nat) : (is.foldl lose c).IsPublished := by
  induction is generalizing c with
  | nil => exact h
  | cons i is ih => exact ih (h.mark hc _ _ _) (by simpa using hc)

theorem isPublished_accept (c : Collector) (id : Nat) (r : Report) (now : Nat) :
    (c.accept id r now).IsPublished := rfl

/-! ### Registering -/

/-- Registering under a greater id than all before puts a fresh entry behind them. -/
theorem workers_register {c : Collector} {id : Nat} (h : ∀ j ∈ c.ids, j < id) :
    (c.register id).workers = c.workers ++ [(id, ({} : WorkerEntry))] := by
  have key : ∀ ws : List (Nat × WorkerEntry), (∀ w ∈ ws, w.1 < id) →
      insertEntry id {} ws = ws ++ [(id, ({} : WorkerEntry))] := by
    intro ws
    induction ws with
    | nil => intro _; rfl
    | cons w ws ih =>
      intro hlt
      have hw : w.1 < id := hlt w (by simp)
      rw [insertEntry, if_neg (by omega), if_neg (by omega), ih fun v hv => hlt v (by simp [hv])]
      rfl
  exact key c.workers fun w hw => h w.1 (List.mem_map_of_mem hw)

/-- A collector in which the first `n` ids were registered one after the other. -/
theorem workers_foldl_register (n : Nat) :
    ((List.range n).foldl register {}).workers =
      (List.range n).map fun id => (id, ({} : WorkerEntry)) := by
  induction n with
  | zero => rfl
  | succ n ih =>
    have hids : ((List.range n).foldl register {}).ids = List.range n := by
      rw [ids, ih, List.map_map]
      simp [Function.comp_def]
    rw [List.range_succ, List.foldl_append, List.foldl_cons, List.foldl_nil,
      workers_register fun j hj => List.mem_range.mp (hids ▸ hj), ih]
    simp

theorem live_foldl_register (is : List Nat) (c : Collector) :
    (is.foldl register c).live = c.live := by
  induction is generalizing c with
  | nil => rfl
  | cons i is ih => rw [List.foldl_cons, ih]; rfl

/-- Nothing is counted for workers that were just registered. -/
theorem isPublished_foldl_register (n : Nat) :
    ((List.range n).foldl register {}).IsPublished := by
  rw [IsPublished, live_foldl_register, totals, workers_foldl_register, List.foldl_map]
  generalize List.range n = is
  induction is with
  | nil => rfl
  | cons i is ih => exact ih

/-! ### The last completion -/

/-- Nobody has completed exactly if no entry says so. -/
theorem numCompleted_eq_zero_iff {c : Collector} (hc : c.ids.Nodup) :
    c.numCompleted = 0 ↔ ∀ id e, c.entryOf? id = some e → e.status ≠ .completed := by
  simp only [numCompleted, idsOf, List.length_map, List.length_eq_zero_iff,
    List.filter_eq_nil_iff, beq_iff_eq, Prod.forall, entryOf_eq_some_iff hc]

/-- Once a worker has completed, the instant of the last completion is known. -/
def IsDated (c : Collector) : Prop :=
  ∀ w ∈ c.workers, w.2.status = .completed → c.finished.isSome

theorem mem_setEntry {c : Collector} {id : Nat} {e : WorkerEntry} {w : Nat × WorkerEntry}
    (h : w ∈ (c.setEntry id e).workers) : w = (id, e) ∨ w ∈ c.workers := by
  obtain ⟨v, hv, hvw⟩ := List.mem_map.mp h
  split at hvw
  · exact .inl hvw.symm
  · exact .inr (hvw ▸ hv)

/-- Whoever is given up has not completed by it. -/
theorem IsDated.mark {c : Collector} (h : c.IsDated) (id : Nat) {s : WorkerStatus}
    (hs : s ≠ .completed) (admits : WorkerStatus → Bool) : (c.mark id s admits).IsDated := by
  unfold Collector.mark
  split
  · split
    · intro w hw hcompleted
      rcases mem_setEntry hw with rfl | hw
      · exact absurd hcompleted hs
      · exact h w hw hcompleted
    · exact h
  · exact h

theorem IsDated.foldl_lose {c : Collector} (h : c.IsDated) (is : List Nat) :
    (is.foldl lose c).IsDated := by
  induction is generalizing c with
  | nil => exact h
  | cons i is ih => exact ih (h.mark i (by decide) _)

/-- A report that completes its worker is dated. -/
theorem IsDated.accept {c : Collector} (h : c.IsDated) (id : Nat) (r : Report) (now : Nat) :
    (c.accept id r now).IsDated := by
  intro w hw hcompleted
  by_cases hr : r.completed = true
  · simp [Collector.accept, hr]
  · rcases mem_setEntry hw with rfl | hw
    · simp [hr] at hcompleted
    · have hsome : (c.setEntry id ⟨.active, r⟩).finished.isSome := h w hw hcompleted
      simpa [Collector.accept, hr] using hsome

/-- Workers that were just registered have not completed. -/
theorem isDated_foldl_register (n : Nat) : ((List.range n).foldl register {}).IsDated := by
  intro w hw hcompleted
  rw [workers_foldl_register] at hw
  obtain ⟨id, -, rfl⟩ := List.mem_map.mp hw
  cases hcompleted

/-- Once a worker has completed, the summary does not depend on when it is made. -/
theorem IsDated.finalize_eq {c : Collector} (h : c.IsDated) (hn : c.numCompleted ≠ 0)
    (now now' : Nat) : c.finalize now = c.finalize now' := by
  obtain ⟨id, hid⟩ := List.exists_mem_of_ne_nil _ (mt List.length_eq_zero_iff.mpr hn)
  obtain ⟨w, hw, -⟩ := List.mem_map.mp hid
  obtain ⟨hw, hs⟩ := List.mem_filter.mp hw
  obtain ⟨t, ht⟩ := Option.isSome_iff_exists.mp (h w hw (by simpa using hs))
  simp only [finalize, elapsed, ht, Option.getD_some]

end Collector

end TxLoad
