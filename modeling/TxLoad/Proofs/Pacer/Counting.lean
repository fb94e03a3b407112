import TxLoad.Proofs.Engine.Pacing
import Mathlib.Data.Set.Card
import Mathlib.Order.Interval.Finset.Nat

namespace TxLoad.Pacer

/-!
# Counting what is due

What is due is a quotient that is rounded down, and the instant at which the next request becomes
due is one that is rounded up. The two fit together exactly, at every rate: a request is counted
from the first whole nanosecond at which it is due. The count depends on nothing but the clock, so
that it makes no difference when, how often and in which order a pacer was asked before.

All this holds as long as the product of time and rate fits into its 128 bits, as it does for words
of 64 bits; beyond that requests get lost.

* `Pacer.started_add_offset_le_iff`: rounding up and rounding down are adjoint to each other.
* `Pacer.due_pos_iff`, `Pacer.pending_eq`: what is due, and how many requests these are.
* `Pacer.consumed_ticks_le_iff`: what a pacer has consumed after it was asked at some instants.
* `Pacer.counts_exactly`: all this together.
* `Pacer.not_countsAt_of_overflow`: a product that does not fit.
-/

variable {p : Pacer} {t : Nat}

/-! ### One instant -/

/-- The requests that are not consumed and whose instant has come. -/
def pending (p : Pacer) (t : Nat) : Set Nat :=
  {k | p.consumed ≤ k ∧ p.started + offset p.rate k ≤ t}

/-- **Adjunction.** The instant of a request has come exactly if the request is among those that the
    time since the start allows. -/
theorem started_add_offset_le_iff (hrate : 0 < p.rate) (hstart : p.started ≤ t) (k : Nat) :
    p.started + offset p.rate k ≤ t ↔ k ≤ (t - p.started) * p.rate / secondNs := by
  calc p.started + offset p.rate k ≤ t
      ↔ offset p.rate k ≤ t - p.started := by omega
    _ ↔ k * secondNs ≤ (t - p.started) * p.rate := offset_le_iff hrate k _
    _ ↔ k ≤ (t - p.started) * p.rate / secondNs := (Nat.le_div_iff_mul_le secondNs_pos).symm

/-- Something is due exactly if the instant of the next request has come. -/
theorem due_pos_iff (hrate : 0 < p.rate) (hstart : p.started ≤ t)
    (hword : p.consumed < Text.wordMax) (hproduct : (t - p.started) * p.rate < 2 ^ 128) :
    0 < p.due t ↔ p.started + offset p.rate p.consumed ≤ t := by
  rw [started_add_offset_le_iff hrate hstart, due, total_eq_exactTotal hproduct, exactTotal]
  omega

/-- The pending requests follow each other without a gap. -/
theorem pending_eq (hrate : 0 < p.rate) (hstart : p.started ≤ t) :
    p.pending t = Finset.Ico p.consumed ((t - p.started) * p.rate / secondNs + 1) := by
  ext k
  show p.consumed ≤ k ∧ p.started + offset p.rate k ≤ t ↔ _
  rw [started_add_offset_le_iff hrate hstart, Finset.mem_coe, Finset.mem_Ico, Nat.lt_succ_iff]

/-- Words of 128 bits suffice to reckon with, if the rate and the time are words of 64 bits. -/
theorem elapsed_mul_rate_lt (hrate : p.rate ≤ Text.wordMax)
    (helapsed : t - p.started ≤ Text.wordMax) : (t - p.started) * p.rate < 2 ^ 128 :=
  calc (t - p.started) * p.rate
      ≤ Text.wordMax * Text.wordMax := Nat.mul_le_mul helapsed hrate
    _ < 2 ^ 128 := by decide

/-- How a pacer counts at the instant `t`. -/
structure CountsAt (p : Pacer) (t : Nat) : Prop where
  /-- Something is due exactly if `nextDue` has come. -/
  pos_iff : 0 < p.due t ↔ p.nextDue ≤ t
  /-- What is due is the number of pending requests, as long as the count of the consumed ones is a
      word. -/
  due_eq : p.due t = min (p.pending t).ncard (Text.wordMax - p.consumed)
  finite : (p.pending t).Finite
  consumed_le : p.consumed + p.due t ≤ Text.wordMax

theorem countsAt (hrate : 0 < p.rate) (hstart : p.started ≤ t) (hword : p.consumed < Text.wordMax)
    (hoffset : offset p.rate p.consumed ≤ Text.wordMax)
    (hproduct : (t - p.started) * p.rate < 2 ^ 128) : p.CountsAt t where
  pos_iff := by
    rw [due_pos_iff hrate hstart hword hproduct, nextDue_eq hrate, Nat.min_eq_right hoffset]
  due_eq := by
    rw [pending_eq hrate hstart, Set.ncard_coe_finset, Nat.card_Ico, due,
      total_eq_exactTotal hproduct, exactTotal]
    omega
  finite := by
    rw [pending_eq hrate hstart]
    exact Finset.finite_toSet _
  consumed_le := by
    rw [due, total]
    omega

/-! ### Many instants -/

/-- Asks what is due at an instant, and consumes that much. -/
def tick (p : Pacer) (t : Nat) : Pacer := p.consume (p.due t)

/-- Does so at one instant after the other. -/
def ticks (p : Pacer) (ts : List Nat) : Pacer := ts.foldl tick p

@[simp] theorem total_tick (p : Pacer) (t now : Nat) : (p.tick t).total now = p.total now := rfl

/-- **Step lemma.** A pacer that was asked has consumed the total of the instant, unless it had
    consumed more before. -/
theorem consumed_tick (p : Pacer) (t : Nat) : (p.tick t).consumed = max p.consumed (p.total t) := by
  rw [tick, consumed_consume, due]
  omega

/-- **Run lemma.** What a pacer has consumed is the greatest of these totals. -/
theorem consumed_ticks_le_iff (p : Pacer) (ts : List Nat) (n : Nat) :
    (p.ticks ts).consumed ≤ n ↔ p.consumed ≤ n ∧ ∀ t ∈ ts, p.total t ≤ n := by
  induction ts generalizing p with
  | nil => simp [ticks]
  | cons t ts ih =>
    have hrest := ih (p.tick t)
    rw [consumed_tick, Nat.max_le] at hrest
    simp only [total_tick] at hrest
    rw [List.forall_mem_cons, ← and_assoc]
    exact hrest

/-- In whichever order a new pacer was asked, it has consumed what is due at the latest instant. -/
theorem consumed_ticks_start {rate s : Nat} {ts : List Nat} {latest : Nat} (hmem : latest ∈ ts)
    (hlatest : ∀ t ∈ ts, t ≤ latest) (hproduct : (latest - s) * rate < 2 ^ 128) :
    ((start rate s).ticks ts).consumed = (start rate s).exactTotal latest := by
  apply Nat.le_antisymm
  · -- The total itself need not grow with time, but the exact one does.
    exact (consumed_ticks_le_iff ..).mpr ⟨Nat.zero_le _, fun t ht =>
      (total_le_exactTotal _ t).trans (exactTotal_le_exactTotal _ (hlatest t ht))⟩
  · rw [← total_eq_exactTotal (p := start rate s) hproduct]
    exact ((consumed_ticks_le_iff ..).mp (Nat.le_refl _)).2 latest hmem

/-- **Exactness.** At every rate, and however many requests are consumed, what is due at an instant
    is exactly the number of the requests whose instant has come, and that is some as soon as the
    next instant has come. In whichever order a pacer is asked at some instants, consuming what is
    due at each, in the end it has consumed all that is due at the latest one. This holds for all
    instants up to which the product of time and rate fits into 128 bits. -/
theorem counts_exactly {rate : Nat} (hrate : 0 < rate) (s : Nat) :
    (∀ consumed t, consumed < Text.wordMax → s ≤ t → offset rate consumed ≤ Text.wordMax →
      (t - s) * rate < 2 ^ 128 → CountsAt ⟨rate, s, consumed⟩ t) ∧
    ∀ ts latest, latest ∈ ts → (∀ t ∈ ts, t ≤ latest) → (latest - s) * rate < 2 ^ 128 →
      ((start rate s).ticks ts).consumed =
        min Text.wordMax ((latest - s) * rate / secondNs + 1) :=
  ⟨fun _ _ hword hstart hoffset hproduct => countsAt hrate hstart hword hoffset hproduct,
    fun _ _ hmem hlatest hproduct => consumed_ticks_start hmem hlatest hproduct⟩

/-- At a rate that divides no second: a third of a second after the start is not yet enough for the
    second request, a nanosecond later it is. -/
theorem counts_exactly_three :
    CountsAt ⟨3, 7, 1⟩ 333333340 ∧ CountsAt ⟨3, 7, 1⟩ 333333341 ∧
      due ⟨3, 7, 1⟩ 333333340 = 0 ∧ due ⟨3, 7, 1⟩ 333333341 = 1 ∧
      ((start 3 7).ticks [333333341, 7, 1000000007, 7]).consumed = 4 :=
  ⟨(counts_exactly (by decide) 7).1 1 _ (by decide) (by decide) (by decide) (by decide),
    (counts_exactly (by decide) 7).1 1 _ (by decide) (by decide) (by decide) (by decide),
    by decide, by decide,
    (@counts_exactly 3 (by decide) 7).2 _ 1000000007 (by decide) (by decide) (by decide)⟩

/-- At a rate of half the words, more than a thousand years after the start: the instant of the
    second request came in the first nanosecond, but the product is lost as a whole, so that nothing
    is due, and whoever asks consumes none of all the pending requests. -/
theorem not_countsAt_of_overflow :
    0 < 2 ^ 63 ∧ 2 ^ 63 ≤ Text.wordMax ∧ 1 < Text.wordMax ∧ offset (2 ^ 63) 1 ≤ Text.wordMax ∧
      nextDue ⟨2 ^ 63, 0, 1⟩ ≤ 2 ^ 65 ∧ due ⟨2 ^ 63, 0, 1⟩ (2 ^ 65) = 0 ∧
      ¬ CountsAt ⟨2 ^ 63, 0, 1⟩ (2 ^ 65) ∧
      ((start (2 ^ 63) 0).ticks [0, 2 ^ 65]).consumed = 1 ∧
      min Text.wordMax ((2 ^ 65 - 0) * 2 ^ 63 / secondNs + 1) = Text.wordMax := by
  have hnext : nextDue ⟨2 ^ 63, 0, 1⟩ ≤ 2 ^ 65 := by decide
  have hdue : due ⟨2 ^ 63, 0, 1⟩ (2 ^ 65) = 0 := by decide
  refine ⟨by decide, by decide, by decide, by decide, hnext, hdue, fun h => ?_, by decide,
    by decide⟩
  have hpos := h.pos_iff.mpr hnext
  rw [hdue] at hpos
  exact absurd hpos (Nat.lt_irrefl 0)

end TxLoad.Pacer
