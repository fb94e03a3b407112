namespace TxLoad

/-!
# The run clock

The clock counts whole milliseconds; transactions become due at finer instants, which are counted
in nanoseconds. Both are natural numbers, reckoned from the start of the clock.

* `Clock.ceilMs` is the first whole millisecond at or after an instant, the moment at which a
  sleep until that instant ends (`Clock.ceilMs_le_iff`);
* `Awaited` is what the far side of a wait does, and `Awaited.within` bounds the wait.
-/

/-- The instant, in nanoseconds, of a whole millisecond. -/
def Clock.nanos (ms : Nat) : Nat := ms * 1000000

/-- The milliseconds of a number of seconds. -/
def Clock.seconds (s : Nat) : Nat := s * 1000

/-- The first whole millisecond at or after an instant given in nanoseconds. -/
def Clock.ceilMs (ns : Nat) : Nat := (ns + 999999) / 1000000

/-- A sleep until the instant `ns` is over by the millisecond `ms` exactly if the instant is not
    after that millisecond. -/
theorem Clock.ceilMs_le_iff (ns ms : Nat) : ceilMs ns ≤ ms ↔ ns ≤ nanos ms := by
  unfold ceilMs nanos
  omega

@[simp] theorem Clock.ceilMs_nanos (ms : Nat) : ceilMs (nanos ms) = ms := by
  unfold ceilMs nanos
  omega

/-! ### Waits -/

/-- What is awaited: a value that is there after some milliseconds, or nothing ever. -/
inductive Awaited (α : Type u) where
  | after (delay : Nat) (value : α)
  | never
  deriving Repr

namespace Awaited

variable {α : Type u}

/-- A value that is there at once. -/
def now (value : α) : Awaited α := .after 0 value

/-- A wait cut off after `limit` milliseconds: how long it took, and the value unless the limit
    came first. A value that arrives just at the limit counts. -/
def within (limit : Nat) : Awaited α → Nat × Option α
  | .after delay value => if delay ≤ limit then (delay, some value) else (limit, none)
  | .never => (limit, none)

/-- No wait lasts longer than its limit. -/
theorem within_fst_le (limit : Nat) (a : Awaited α) : (a.within limit).1 ≤ limit := by
  cases a with
  | after d v => by_cases h : d ≤ limit <;> simp [within, h]
  | never => simp [within]

/-- A value that is there at once is never cut off. -/
@[simp] theorem within_now (limit : Nat) (v : α) : (now v).within limit = (0, some v) := by
  simp [now, within]

/-- A wait brings a value exactly if the value arrives within the limit. -/
theorem within_snd_eq_some_iff (limit : Nat) (a : Awaited α) (v : α) :
    (a.within limit).2 = some v ↔ ∃ d ≤ limit, a = .after d v := by
  cases a with
  | after d w =>
    by_cases h : d ≤ limit
    · simp only [within, h, if_true, Option.some.injEq, after.injEq]
      constructor
      · rintro rfl
        exact ⟨d, h, rfl, rfl⟩
      · rintro ⟨_, _, _, h⟩
        exact h
    · simp only [within, h, if_false, after.injEq]
      constructor
      · intro hc
        cases hc
      · rintro ⟨d', hd', rfl, _⟩
        exact absurd hd' h
  | never => simp [within]

end Awaited

end TxLoad
