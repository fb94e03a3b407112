import TxLoad.Proofs.Stats.Entries
import Mathlib.Algebra.Order.BigOperators.Group.List
import Mathlib.Algebra.Order.Monoid.Unbundled.Basic
import Mathlib.Algebra.Order.Ring.Nat

namespace TxLoad

/-!
# Sums over the workers of a collector

The totals of a collector are words. They stand for true sums over the reports of its workers, which
no operation lowers.

* `Collector.sum` is the true sum; as long as it is a word it is the total (`Fits.toNat_totals`).
* `Collector.sum_le_sum_accept`: a report that is accepted does not lower it.
* `Collector.Advances` is what one operation can make of a collector that registers nobody twice,
  and `Collector.Idles` what one can that accepts no report. The former lowers no sum
  (`Advances.sum_le`), the latter changes none (`Idles.sum_eq`), and both keep the live counters
  published (`Advances.isPublished`).
-/

/-- One pair of totals is nowhere ahead of another. -/
instance : LE Totals := ⟨fun t u => t.requests ≤ u.requests ∧ t.bytes ≤ u.bytes⟩

theorem Totals.le_refl (t : Totals) : t ≤ t := ⟨UInt64.le_refl _, UInt64.le_refl _⟩

theorem Totals.le_trans {t u v : Totals} (h : t ≤ u) (h' : u ≤ v) : t ≤ v :=
  ⟨UInt64.le_trans h.1 h'.1, UInt64.le_trans h.2 h'.2⟩

/-! ### Sums of reports -/

namespace Collector

/-- The sum over the reports of all workers, as a number. -/
def sum (c : Collector) (count : Report → UInt64) : Nat :=
  (c.workers.map fun w => (count w.2.report).toNat).sum

/-- Whether the sums of requests and of bytes are words. -/
def Fits (c : Collector) : Prop := c.sum (·.requests) < 2 ^ 64 ∧ c.sum (·.bytes) < 2 ^ 64

instance (c : Collector) : Decidable c.Fits := inferInstanceAs (Decidable (_ ∧ _))

/-- Sums that are words are the totals. -/
theorem Fits.toNat_totals {c : Collector} (h : c.Fits) :
    c.totals.requests.toNat = c.sum (·.requests) ∧ c.totals.bytes.toNat = c.sum (·.bytes) := by
  obtain ⟨hrequests, hbytes⟩ := c.toNat_totals
  rw [hrequests, hbytes]
  exact ⟨Nat.mod_eq_of_lt h.1, Nat.mod_eq_of_lt h.2⟩

/-- The totals depend on nothing but the two sums. -/
theorem totals_congr_sum {c d : Collector} (hrequests : c.sum (·.requests) = d.sum (·.requests))
    (hbytes : c.sum (·.bytes) = d.sum (·.bytes)) : c.totals = d.totals := by
  have hc := c.toNat_totals
  have hd := d.toNat_totals
  have hrequests : c.totals.requests = d.totals.requests :=
    UInt64.toNat_inj.mp (hc.1.trans ((congrArg (· % 2 ^ 64) hrequests).trans hd.1.symm))
  have hbytes : c.totals.bytes = d.totals.bytes :=
    UInt64.toNat_inj.mp (hc.2.trans ((congrArg (· % 2 ^ 64) hbytes).trans hd.2.symm))
  calc c.totals = ⟨c.totals.requests, c.totals.bytes⟩ := rfl
    _ = d.totals := by rw [hrequests, hbytes]

/-- A fresh entry stands somewhere between the others. -/
theorem perm_insertEntry {id : Nat} (e : WorkerEntry) {ws : List (Nat × WorkerEntry)}
    (h : id ∉ ws.map (·.1)) : (insertEntry id e ws).Perm ((id, e) :: ws) := by
  induction ws with
  | nil => exact .refl _
  | cons w ws ih =>
    obtain ⟨other, old⟩ := w
    have hne : id ≠ other := fun heq => h (by simp [heq])
    rw [insertEntry, if_neg hne]
    by_cases hlt : id < other
    · rw [if_pos hlt]
    · rw [if_neg hlt]
      have hmem : id ∉ ws.map (·.1) := fun hw => h (by simpa using Or.inr (by simpa using hw))
      exact ((ih hmem).cons _).trans (.swap ..)

theorem perm_ids_register {c : Collector} {id : Nat} (h : id ∉ c.ids) :
    (c.register id).ids.Perm (id :: c.ids) := by
  show ((insertEntry id {} c.workers).map (·.1)).Perm (id :: c.workers.map (·.1))
  exact (perm_insertEntry {} h).map (·.1)

/-- Registering a worker of whom nothing is counted changes no sum. -/
theorem sum_register {c : Collector} {id : Nat}
    (hblank : ∀ w ∈ c.workers, w.1 = id → w.2.report = {}) {count : Report → UInt64}
    (hcount : count {} = 0) : (c.register id).sum count = c.sum count := by
  show ((insertEntry id {} c.workers).map fun w => (count w.2.report).toNat).sum =
    (c.workers.map fun w => (count w.2.report).toNat).sum
  generalize c.workers = ws at hblank ⊢
  induction ws with
  | nil => simp [insertEntry, hcount]
  | cons w ws ih =>
    obtain ⟨other, old⟩ := w
    rw [insertEntry]
    by_cases hlt : id < other
    · simp [hlt, hcount]
    · by_cases hid : id = other
      · -- The entry that is replaced is as empty as the fresh one.
        have hold : old.report = {} := hblank _ List.mem_cons_self hid.symm
        simp [hid, hold]
      · rw [if_neg hlt, if_neg hid, List.map_cons, List.map_cons, List.sum_cons, List.sum_cons,
          ih fun w hw => hblank w (List.mem_cons_of_mem _ hw)]

theorem sum_mark {c : Collector} (hc : c.ids.Nodup) (id : Nat) (s : WorkerStatus)
    (admits : WorkerStatus → Bool) (count : Report → UInt64) :
    (c.mark id s admits).sum count = c.sum count := by
  have key : ∀ d : Collector,
      d.sum count = ((d.workers.map (·.2.report)).map fun r => (count r).toNat).sum := by
    intro d
    rw [List.map_map]
    rfl
  rw [key, key, reports_mark hc]

/-- A report is accepted exactly if its worker is registered and active and neither its requests nor
    its bytes are behind the last ones. -/
theorem refusal?_eq_none_iff {c : Collector} {id : Nat} {r : Report} :
    c.refusal? id r = none ↔ ∃ e, c.entryOf? id = some e ∧ e.status = .active ∧
      e.report.requests ≤ r.requests ∧ e.report.bytes ≤ r.bytes := by
  unfold refusal?
  cases c.entryOf? id with
  | none => simp
  | some e =>
    by_cases hactive : e.status = .active
    · simp [hactive, UInt64.not_lt]
    · simp [hactive]

/-- **Accepted reports add up.** A report that is accepted does not lower a sum. -/
theorem sum_le_sum_accept {c : Collector} (hc : c.ids.Nodup) {id : Nat} {e : WorkerEntry}
    (he : c.entryOf? id = some e) {r : Report} {count : Report → UInt64}
    (hcount : count e.report ≤ count r) (now : Nat) :
    c.sum count ≤ (c.accept id r now).sum count := by
  show _ ≤ ((c.workers.map fun w => if w.1 = id then _ else w).map _).sum
  rw [List.map_map]
  refine List.sum_le_sum fun w hw => ?_
  by_cases hid : w.1 = id
  · -- Each id is registered once, so that the entry found is the one replaced.
    have hentry : c.entryOf? w.1 = some w.2 := (entryOf_eq_some_iff hc).mpr hw
    rw [hid, he, Option.some.injEq] at hentry
    simpa [hid, ← hentry] using UInt64.le_iff_toNat_le.mp hcount
  · simp [hid]

/-! ### What becomes of the sums -/

/-- What an operation that accepts no report can make of a collector. -/
inductive Idles (c : Collector) : Collector → Prop
  /-- A worker is registered of whom nothing is counted. -/
  | register {id : Nat} (hblank : ∀ w ∈ c.workers, w.1 = id → w.2.report = {}) :
    c.Idles (c.register id)
  /-- A worker is given up. -/
  | mark (id : Nat) (s : WorkerStatus) (admits : WorkerStatus → Bool) :
      c.Idles (c.mark id s admits)
  /-- A report is refused. -/
  | same : c.Idles c

/-- What an operation can make of a collector. -/
inductive Advances (c : Collector) : Collector → Prop
  | idle {d : Collector} (h : c.Idles d) : c.Advances d
  | accept {id : Nat} {r : Report} (haccepted : c.refusal? id r = none) (now : Nat) :
      c.Advances (c.accept id r now)

variable {c d : Collector}

theorem Idles.of_new {id : Nat} (hnew : id ∉ c.ids) : c.Idles (c.register id) :=
  .register fun _ hw hid => absurd (hid ▸ List.mem_map_of_mem hw) hnew

/-- Nothing is counted where no report is accepted. -/
theorem Idles.sum_eq (h : c.Idles d) (hc : c.ids.Nodup) {count : Report → UInt64}
    (hcount : count {} = 0) : d.sum count = c.sum count := by
  cases h with
  | register hblank => exact sum_register hblank hcount
  | mark id s admits => exact sum_mark hc id s admits count
  | same => rfl

theorem Idles.totals_eq (h : c.Idles d) (hc : c.ids.Nodup) : d.totals = c.totals :=
  totals_congr_sum (h.sum_eq hc rfl) (h.sum_eq hc rfl)

theorem Idles.live_eq (h : c.Idles d) : d.live = c.live := by
  cases h with
  | register | same => rfl
  | mark id s admits => exact live_mark c id s admits

/-- **No operation lowers a sum.** -/
theorem Advances.sum_le (h : c.Advances d) (hc : c.ids.Nodup) :
    c.sum (·.requests) ≤ d.sum (·.requests) ∧ c.sum (·.bytes) ≤ d.sum (·.bytes) := by
  cases h with
  | idle h => exact ⟨(h.sum_eq hc rfl).ge, (h.sum_eq hc rfl).ge⟩
  | accept haccepted now =>
    obtain ⟨entry, hentry, -, hrequests, hbytes⟩ := refusal?_eq_none_iff.mp haccepted
    exact ⟨sum_le_sum_accept hc hentry hrequests now, sum_le_sum_accept hc hentry hbytes now⟩

/-- Sums that are words afterwards were words before. -/
theorem Advances.fits (h : c.Advances d) (hc : c.ids.Nodup) (hfits : d.Fits) : c.Fits :=
  ⟨Nat.lt_of_le_of_lt (h.sum_le hc).1 hfits.1, Nat.lt_of_le_of_lt (h.sum_le hc).2 hfits.2⟩

/-- Nor does an operation lower the totals, as long as the sums are words. -/
theorem Advances.totals_le (h : c.Advances d) (hc : c.ids.Nodup) (hfits : d.Fits) :
    c.totals ≤ d.totals := by
  obtain ⟨h₁, h₂⟩ := (h.fits hc hfits).toNat_totals
  obtain ⟨h₁', h₂'⟩ := hfits.toNat_totals
  obtain ⟨hrequests, hbytes⟩ := h.sum_le hc
  constructor
  · rw [UInt64.le_iff_toNat_le, h₁, h₁']
    exact hrequests
  · rw [UInt64.le_iff_toNat_le, h₂, h₂']
    exact hbytes

/-- The live counters follow the totals: an accepted report publishes them, and nothing else
    changes them. -/
theorem Advances.isPublished (h : c.Advances d) (hc : c.ids.Nodup) (hlive : c.IsPublished) :
    d.IsPublished := by
  cases h with
  | idle h =>
    unfold IsPublished
    rw [h.live_eq, h.totals_eq hc, hlive]
  | accept haccepted now => exact isPublished_accept ..

end Collector

end TxLoad
