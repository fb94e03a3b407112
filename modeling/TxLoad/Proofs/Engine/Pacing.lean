import TxLoad.Engine.Basic
import Mathlib.Algebra.Order.Floor.Div
import Mathlib.Tactic.Common

namespace TxLoad

/-!
# Pacing and parking

A pacer counts in 64-bit words that stay at their greatest value, it multiplies in 128 bits, and an
engine with nothing due parks in slices of at most 50 ms, rounded up to a whole millisecond. While
the words are not exhausted none of this is to be seen from outside: a request is due exactly from
the instant at which the pacer says that the next one becomes due, and every park moves the clock.

* `Pacer.total_le_exactTotal`, `Pacer.total_eq_exactTotal`: the total against that of a product
  without bound.
* `Pacer.IsExactUntil`: the words of a pacer suffice up to an instant.
* `Pacer.due_eq_zero_iff`: nothing is due exactly before `Pacer.nextDue`.
* `Engine.lt_parkUntil`, `Engine.parkUntil_le_deadline`, `Engine.parkUntil_le_dueMs`: a park moves
  the clock, but neither beyond the deadline nor beyond the next request.
* `Engine.IsPaced`: what holds of the pacer of an engine in every phase.
* `Engine.isStopped_run`: the run of a paced engine comes to its end.
-/

namespace Clock

theorem nanos_le_nanos {a b : Nat} (h : a ≤ b) : nanos a ≤ nanos b := by
  unfold nanos
  omega

theorem nanos_lt_nanos {a b : Nat} (h : a < b) : nanos a < nanos b := by
  unfold nanos
  omega

theorem ceilMs_le_ceilMs {a b : Nat} (h : a ≤ b) : ceilMs a ≤ ceilMs b :=
  Nat.div_le_div_right (Nat.add_le_add_right h _)

/-- A sleep until the instant `ns` lasts longer than the millisecond `ms` exactly if the instant is
    after it. -/
theorem lt_ceilMs_iff (ms ns : Nat) : ms < ceilMs ns ↔ nanos ms < ns := by
  rw [← Nat.not_le, ceilMs_le_iff, Nat.not_le]

end Clock

namespace Pacer

theorem secondNs_pos : 0 < secondNs := Nat.succ_pos _

/-- The nanoseconds from the start until the request with the number `k` is due. -/
def offset (rate k : Nat) : Nat := (k * secondNs) ⌈/⌉ rate

theorem offset_le_iff {rate : Nat} (h : 0 < rate) (k t : Nat) :
    offset rate k ≤ t ↔ k * secondNs ≤ t * rate := by
  unfold offset
  rw [ceilDiv_le_iff_le_mul h, Nat.mul_comm rate t]

@[simp] theorem offset_zero (rate : Nat) : offset rate 0 = 0 := by
  simp [offset]

/-- The first whole millisecond at which the request with the number `k` is due, if the pacer was
    started at the millisecond `opened`. -/
def dueMs (rate opened k : Nat) : Nat := Clock.ceilMs (Clock.nanos opened + offset rate k)

theorem nextDue_eq {p : Pacer} (h : 0 < p.rate) :
    p.nextDue = p.started + min Text.wordMax (offset p.rate p.consumed) := by
  have hmax : max p.rate 1 = p.rate := Nat.max_eq_left h
  have hceil : offset p.rate p.consumed = (p.consumed * secondNs + (p.rate - 1)) / p.rate := by
    rw [offset, Nat.ceilDiv_eq_add_pred_div, Nat.add_sub_assoc h]
  simp only [nextDue, hmax, hceil]

/-- A product that fits is exact. -/
theorem product_of_lt {a b : Nat} (h : a * b < 2 ^ 128) : product a b = a * b :=
  Nat.mod_eq_of_lt (Nat.lt_of_lt_of_le h (by decide))

/-- The total that a product without bound would lead to. -/
def exactTotal (p : Pacer) (now : Nat) : Nat :=
  min Text.wordMax ((now - p.started) * p.rate / secondNs + 1)

/-- What is lost of a product can only make the total smaller. -/
theorem total_le_exactTotal (p : Pacer) (now : Nat) : p.total now ≤ p.exactTotal now := by
  have hle : product (now - p.started) p.rate ≤ (now - p.started) * p.rate := Nat.mod_le _ _
  have hdiv := Nat.div_le_div_right (c := secondNs) hle
  rw [total, exactTotal]
  omega

/-- Of a product that fits nothing is lost. -/
theorem total_eq_exactTotal {p : Pacer} {now : Nat} (h : (now - p.started) * p.rate < 2 ^ 128) :
    p.total now = p.exactTotal now := by
  rw [total, exactTotal, product_of_lt h]

/-- What was due stays due. -/
theorem exactTotal_le_exactTotal (p : Pacer) {t t' : Nat} (h : t ≤ t') :
    p.exactTotal t ≤ p.exactTotal t' := by
  have hmul : (t - p.started) * p.rate ≤ (t' - p.started) * p.rate :=
    Nat.mul_le_mul_right _ (Nat.sub_le_sub_right h _)
  have hdiv := Nat.div_le_div_right (c := secondNs) hmul
  rw [exactTotal, exactTotal]
  omega

/-- Up to the instant `horizon`, given in nanoseconds, no word of the pacer is exhausted. -/
structure IsExactUntil (p : Pacer) (horizon : Nat) : Prop where
  rate_pos : 0 < p.rate
  elapsed : horizon - p.started < Text.wordMax
  total : (horizon - p.started) * p.rate < Text.wordMax * secondNs

theorem IsExactUntil.consume {p : Pacer} {horizon : Nat} (h : p.IsExactUntil horizon) (n : Nat) :
    (p.consume n).IsExactUntil horizon :=
  ⟨h.rate_pos, h.elapsed, h.total⟩

/-- A pacer that starts later is exact as well. -/
theorem IsExactUntil.later {rate s t horizon : Nat} (h : (start rate s).IsExactUntil horizon)
    (hle : s ≤ t) : (start rate t).IsExactUntil horizon := by
  have hsub : horizon - t ≤ horizon - s := Nat.sub_le_sub_left hle horizon
  refine ⟨h.rate_pos, Nat.lt_of_le_of_lt hsub h.elapsed, ?_⟩
  exact Nat.lt_of_le_of_lt (Nat.mul_le_mul_right rate hsub) h.total

/-- As long as the words suffice, the total is the count of the requests due so far. -/
theorem total_eq {p : Pacer} {horizon now : Nat} (h : p.IsExactUntil horizon)
    (hnow : now ≤ horizon) : p.total now = (now - p.started) * p.rate / secondNs + 1 := by
  have hmul : (now - p.started) * p.rate ≤ (horizon - p.started) * p.rate :=
    Nat.mul_le_mul_right _ (Nat.sub_le_sub_right hnow _)
  have hdiv : (now - p.started) * p.rate / secondNs < Text.wordMax :=
    (Nat.div_lt_iff_lt_mul secondNs_pos).mpr (Nat.lt_of_le_of_lt hmul h.total)
  have hproduct : (now - p.started) * p.rate < 2 ^ 128 :=
    Nat.lt_of_le_of_lt hmul (Nat.lt_trans h.total (by decide))
  rw [total_eq_exactTotal hproduct, exactTotal]
  omega

/-- **Correspondence of count and instant.** Nothing is due exactly as long as the instant at which
    the next request becomes due has not come. -/
theorem due_eq_zero_iff {p : Pacer} {horizon now : Nat} (h : p.IsExactUntil horizon)
    (hstart : p.started ≤ now) (hnow : now ≤ horizon) : p.due now = 0 ↔ now < p.nextDue := by
  have hcount : p.due now = 0 ↔ (now - p.started) * p.rate / secondNs < p.consumed := by
    rw [due, total_eq h hnow]
    omega
  have hword : now - p.started < Text.wordMax := by
    have := h.elapsed
    omega
  rw [hcount, Nat.div_lt_iff_lt_mul secondNs_pos, ← Nat.not_le, ← offset_le_iff h.rate_pos,
    nextDue_eq h.rate_pos]
  omega

/-- A request that is due has its instant behind it. -/
theorem dueMs_le_of_due {p : Pacer} {horizon opened now : Nat} (h : p.IsExactUntil horizon)
    (hstarted : p.started = Clock.nanos opened) (hstart : opened ≤ now)
    (hnow : Clock.nanos now ≤ horizon) (hdue : p.due (Clock.nanos now) ≠ 0) :
    dueMs p.rate opened p.consumed ≤ now := by
  have hbegun : p.started ≤ Clock.nanos now := by
    rw [hstarted]
    exact Clock.nanos_le_nanos hstart
  have hzero := due_eq_zero_iff h hbegun hnow
  have hle : p.nextDue ≤ Clock.nanos now := Nat.not_lt.mp (mt hzero.mpr hdue)
  have hword := h.elapsed
  rw [nextDue_eq h.rate_pos, hstarted] at hle
  rw [hstarted] at hword
  rw [dueMs, Clock.ceilMs_le_iff]
  generalize offset p.rate p.consumed = k at hle ⊢
  omega

end Pacer

namespace Engine

/-! ### Parks -/

/-- The instant, in nanoseconds, to which an engine with nothing due sleeps. -/
def wakeAt (e : Engine) (p : Pacer) : Nat :=
  min (min p.nextDue (Clock.nanos e.setup.deadline)) (Clock.nanos (e.now + maxParkMs))

theorem parkUntil_eq (e : Engine) (p : Pacer) :
    e.parkUntil p = max e.now (Clock.ceilMs (e.wakeAt p)) := rfl

/-- That instant lies ahead if neither the next request nor the deadline has come. -/
theorem lt_wakeAt {e : Engine} {p : Pacer} (hnext : Clock.nanos e.now < p.nextDue)
    (hdeadline : e.now < e.setup.deadline) : Clock.nanos e.now < e.wakeAt p := by
  have hd : Clock.nanos e.now < Clock.nanos e.setup.deadline :=
    Clock.nanos_lt_nanos hdeadline
  have hpark : Clock.nanos e.now < Clock.nanos (e.now + maxParkMs) :=
    Clock.nanos_lt_nanos (Nat.lt_add_of_pos_right (by decide))
  exact Nat.lt_min.mpr ⟨Nat.lt_min.mpr ⟨hnext, hd⟩, hpark⟩

/-- So a park moves the clock. -/
theorem lt_parkUntil {e : Engine} {p : Pacer} (hnext : Clock.nanos e.now < p.nextDue)
    (hdeadline : e.now < e.setup.deadline) : e.now < e.parkUntil p := by
  rw [parkUntil_eq]
  have hahead := (Clock.lt_ceilMs_iff ..).mpr (lt_wakeAt hnext hdeadline)
  exact Nat.lt_of_lt_of_le hahead (Nat.le_max_right _ _)

/-- No park lasts beyond the deadline. -/
theorem parkUntil_le_deadline {e : Engine} (p : Pacer) (hdeadline : e.now ≤ e.setup.deadline) :
    e.parkUntil p ≤ e.setup.deadline := by
  refine Nat.max_le.mpr ⟨hdeadline, ?_⟩
  have := Clock.ceilMs_le_ceilMs (Nat.le_trans (Nat.min_le_left
    (min p.nextDue (Clock.nanos e.setup.deadline)) (Clock.nanos (e.now + maxParkMs)))
    (Nat.min_le_right p.nextDue (Clock.nanos e.setup.deadline)))
  rwa [Clock.ceilMs_nanos] at this

/-- No park lasts beyond the millisecond at which the next request is due. -/
theorem parkUntil_le_dueMs {e : Engine} {p : Pacer} {opened : Nat} (hrate : 0 < p.rate)
    (hstarted : p.started = Clock.nanos opened) :
    e.parkUntil p ≤ max e.now (Pacer.dueMs p.rate opened p.consumed) := by
  have hnext : p.nextDue ≤ Clock.nanos opened + Pacer.offset p.rate p.consumed := by
    rw [Pacer.nextDue_eq hrate, hstarted]
    omega
  have hmin := Nat.le_trans (Nat.min_le_left
    (min p.nextDue (Clock.nanos e.setup.deadline)) (Clock.nanos (e.now + maxParkMs)))
    (Nat.min_le_left p.nextDue (Clock.nanos e.setup.deadline))
  have hceil := Clock.ceilMs_le_ceilMs (Nat.le_trans hmin hnext)
  exact Nat.max_le.mpr ⟨Nat.le_max_left _ _, Nat.le_trans hceil (Nat.le_max_right _ _)⟩

theorem le_parkUntil (e : Engine) (p : Pacer) : e.now ≤ e.parkUntil p := Nat.le_max_left _ _

/-! ### Looks -/

/-- What a look can come to, with everything that the engine has found out on the way. -/
inductive Looks (e : Engine) (p : Pacer) : Engine → Prop
  | cancelled (hcancelled : e.cancelled = true) : Looks e p (e.stop .cancelled)
  | elapsed (hgoing : e.cancelled = false) (hdeadline : e.setup.deadline ≤ e.now) :
      Looks e p (e.stop .elapsed)
  | counted (hgoing : e.cancelled = false) (hdeadline : e.now < e.setup.deadline)
      (hlimit : e.setup.limit.any (· ≤ p.consumed) = true) : Looks e p (e.stop .countReached)
  | parked (hgoing : e.cancelled = false) (hdeadline : e.now < e.setup.deadline)
      (hlimit : e.setup.limit.any (· ≤ p.consumed) = false)
      (hdue : p.due (Clock.nanos e.now) = 0) : Looks e p { e with now := e.parkUntil p }
  | refused (hgoing : e.cancelled = false) (hdeadline : e.now < e.setup.deadline)
      (hlimit : e.setup.limit.any (· ≤ p.consumed) = false)
      (hdue : p.due (Clock.nanos e.now) ≠ 0) {error : ClientError}
      (hclient : e.setup.client p.consumed = .error error) :
      Looks e p (e.stop (.failed (.client error)))
  | submitted (hgoing : e.cancelled = false) (hdeadline : e.now < e.setup.deadline)
      (hlimit : e.setup.limit.any (· ≤ p.consumed) = false)
      (hdue : p.due (Clock.nanos e.now) ≠ 0) {payload : Payload}
      (hclient : e.setup.client p.consumed = .ok payload) : Looks e p (e.submit p payload)

theorem looks_look (e : Engine) (p : Pacer) : Looks e p (e.look p) := by
  unfold look
  by_cases hcancelled : e.cancelled = true
  · rw [if_pos hcancelled]
    exact .cancelled hcancelled
  rw [if_neg hcancelled]
  have hgoing : e.cancelled = false := by simpa using hcancelled
  by_cases hdeadline : e.setup.deadline ≤ e.now
  · rw [if_pos hdeadline]
    exact .elapsed hgoing hdeadline
  rw [if_neg hdeadline]
  have hbefore : e.now < e.setup.deadline := Nat.not_le.mp hdeadline
  by_cases hlimit : e.setup.limit.any (· ≤ p.consumed) = true
  · rw [if_pos hlimit]
    exact .counted hgoing hbefore hlimit
  rw [if_neg hlimit]
  have hbelow : e.setup.limit.any (· ≤ p.consumed) = false := by simpa using hlimit
  by_cases hdue : p.due (Clock.nanos e.now) = 0
  · rw [if_pos hdue]
    exact .parked hgoing hbefore hbelow hdue
  rw [if_neg hdue]
  cases hclient : e.setup.client p.consumed with
  | error error => exact .refused hgoing hbefore hbelow hdue hclient
  | ok payload => exact .submitted hgoing hbefore hbelow hdue hclient

/-- No step changes the setup. -/
theorem setup_step (e : Engine) : e.step.setup = e.setup := by
  unfold step
  split
  · rfl
  · rfl
  · rfl
  · rename_i p _
    have hlook := looks_look e p
    generalize e.look p = d at hlook
    cases hlook <;> rfl
  · rfl
  · rfl
  · rfl

/-! ### Paced engines -/

/-- The pacer of an engine runs at the configured rate from an instant that is not ahead, and counts
    exactly up to the deadline; so will the one that starts when the connect is over. -/
def IsPaced (e : Engine) : Prop :=
  match e.phase with
  | .connecting =>
    (Pacer.start e.setup.rate
      (Clock.nanos (e.now + (bounded e.setup e.setup.target.connect).1))).IsExactUntil
        (Clock.nanos e.setup.deadline)
  | .opening _ =>
    (Pacer.start e.setup.rate (Clock.nanos e.now)).IsExactUntil (Clock.nanos e.setup.deadline)
  | .looping p | .sending p _ _ =>
    p.rate = e.setup.rate ∧ p.started ≤ Clock.nanos e.now ∧
      p.IsExactUntil (Clock.nanos e.setup.deadline)
  | .stopped _ => True

theorem isPaced_stop (e : Engine) (exit : Exit) : (e.stop exit).IsPaced := trivial

theorem isPaced_look {e : Engine} {p : Pacer} (hphase : e.phase = .looping p)
    (h : e.IsPaced) : (e.look p).IsPaced := by
  simp only [IsPaced, hphase] at h
  obtain ⟨hrate, hstarted, hexact⟩ := h
  have hlook := looks_look e p
  generalize e.look p = d at hlook
  cases hlook with
  | cancelled | elapsed | counted | refused => exact isPaced_stop _ _
  | parked =>
    simp only [IsPaced, hphase]
    exact ⟨hrate, Nat.le_trans hstarted (Clock.nanos_le_nanos (le_parkUntil e p)), hexact⟩
  | submitted =>
    exact ⟨hrate, Nat.le_trans hstarted (Clock.nanos_le_nanos (Nat.le_add_right _ _)), hexact⟩

/-- Every step keeps the pacer paced. -/
theorem IsPaced.step {e : Engine} (h : e.IsPaced) : e.step.IsPaced := by
  unfold Engine.step
  split
  · rename_i hphase
    simp only [IsPaced, hphase] at h
    exact h
  · exact isPaced_stop _ _
  · rename_i hphase
    simp only [IsPaced, hphase] at h
    exact ⟨rfl, Nat.le_refl _, h⟩
  · rename_i p hphase
    exact isPaced_look hphase h
  · exact isPaced_stop _ _
  · rename_i p _ hphase
    simp only [IsPaced, hphase] at h
    obtain ⟨hrate, hstarted, hexact⟩ := h
    exact ⟨hrate, hstarted, hexact.consume 1⟩
  · exact h

/-! ### The end of a run -/

/-- What every step keeps holds after any number of steps. -/
theorem of_steps {P : Engine → Prop} (hstep : ∀ e, P e → P e.step) (n : Nat) {e : Engine}
    (h : P e) : P (steps n e) := by
  induction n generalizing e with
  | zero => exact h
  | succ n ih =>
    unfold steps
    split
    · exact h
    · exact ih (hstep e h)

/-- What is left of the budget does not grow when a pacer starts later. -/
theorem allDue_le {deadline rate s t : Nat} (h : s ≤ t) :
    (Clock.nanos deadline - Clock.nanos t) * rate / Pacer.secondNs + 1 ≤
      (Clock.nanos deadline - Clock.nanos s) * rate / Pacer.secondNs + 1 := by
  have hsub : Clock.nanos deadline - Clock.nanos t ≤ Clock.nanos deadline - Clock.nanos s :=
    Nat.sub_le_sub_left (Clock.nanos_le_nanos h) _
  exact Nat.add_le_add_right (Nat.div_le_div_right (Nat.mul_le_mul_right rate hsub)) 1

theorem budget_look_lt {e : Engine} {p : Pacer} (hphase : e.phase = .looping p)
    (h : e.IsPaced) : (e.look p).budget < e.budget := by
  simp only [IsPaced, hphase] at h
  obtain ⟨hrate, hstarted, hexact⟩ := h
  have hlook := looks_look e p
  generalize e.look p = d at hlook
  cases hlook with
  | cancelled | elapsed | counted | refused =>
    simp only [budget, stop, hphase]
    omega
  | parked hgoing hdeadline hlimit hdue =>
    have hnow : Clock.nanos e.now ≤ Clock.nanos e.setup.deadline :=
      Clock.nanos_le_nanos (Nat.le_of_lt hdeadline)
    have hnext := (Pacer.due_eq_zero_iff hexact hstarted hnow).mp hdue
    have hmoves := lt_parkUntil hnext hdeadline
    simp only [budget, hphase]
    omega
  | submitted hgoing hdeadline hlimit hdue hclient =>
    have hnow : Clock.nanos e.now ≤ Clock.nanos e.setup.deadline :=
      Clock.nanos_le_nanos (Nat.le_of_lt hdeadline)
    -- A request that is due is one of those that the budget still counts.
    have hcounted : p.consumed <
        (Clock.nanos e.setup.deadline - p.started) * e.setup.rate / Pacer.secondNs + 1 := by
      have htotal := Pacer.total_eq hexact hnow
      have hmul : (Clock.nanos e.now - p.started) * p.rate ≤
          (Clock.nanos e.setup.deadline - p.started) * e.setup.rate :=
        hrate ▸ Nat.mul_le_mul_right _ (Nat.sub_le_sub_right hnow _)
      have hdiv := Nat.div_le_div_right (c := Pacer.secondNs) hmul
      unfold Pacer.due at hdue
      omega
    simp only [budget, submit, hphase]
    omega

/-- Every step of a paced engine that has not stopped uses up some of its budget. -/
theorem budget_step_lt {e : Engine} (h : e.IsPaced) (hgoing : e.isStopped = false) :
    e.step.budget < e.budget := by
  unfold Engine.step
  split
  · rename_i hphase
    have hall := @allDue_le e.setup.deadline e.setup.rate _ _
      (Nat.le_add_right e.now (bounded e.setup e.setup.target.connect).1)
    simp only [budget, hphase]
    omega
  · rename_i hphase
    simp only [budget, stop, hphase]
    omega
  · rename_i hphase
    simp only [budget, hphase, Pacer.start]
    omega
  · rename_i p hphase
    exact budget_look_lt hphase h
  · rename_i hphase
    simp only [budget, stop, hphase]
    omega
  · rename_i p _ hphase
    simp only [budget, hphase, Pacer.started_consume, Pacer.consumed_consume]
    omega
  · rename_i hphase
    simp [isStopped, hphase] at hgoing

theorem isStopped_steps {e : Engine} (h : e.IsPaced) {n : Nat} (hn : e.budget ≤ n) :
    (steps n e).isStopped = true := by
  induction n generalizing e with
  | zero =>
    by_contra hgoing
    have hgoing : e.isStopped = false := by simpa [steps] using hgoing
    have := budget_step_lt h hgoing
    omega
  | succ n ih =>
    unfold steps
    split
    · assumption
    · rename_i hgoing
      have := budget_step_lt h (by simpa using hgoing)
      exact ih h.step (by omega)

/-- **Runs end.** The run of a paced engine leaves it stopped. -/
theorem isStopped_run {e : Engine} (h : e.IsPaced) : e.run.isStopped = true :=
  isStopped_steps h (Nat.le_refl _)

end Engine

end TxLoad
