import TxLoad.Clock
import TxLoad.Text.Numeral

namespace TxLoad

/-!
# Pacing

A pacer says how many requests are due at an instant. It reckons from the time since its start and
not from the number of times it was asked, so that a late request does not shift those after it.
Instants are in nanoseconds.

* `Pacer.due` counts the requests that are due and not yet consumed; the first is due at the start;
* `Pacer.nextDue` is the instant at which the next request becomes due.
-/

structure Pacer where
  /-- Requests per second. -/
  rate : Nat
  started : Nat
  /-- The requests made since the start. -/
  consumed : Nat
  deriving DecidableEq, Repr

namespace Pacer

/-- The nanoseconds of a second. -/
def secondNs : Nat := 1000000000

/-- A pacer that starts at the given instant. -/
def start (rate started : Nat) : Pacer := ⟨rate, started, 0⟩

/-- The product of two numbers in 128 bits: what does not fit into these is lost. -/
def product (a b : Nat) : Nat := a * b % (UInt64.size * UInt64.size)

/-- All requests due since the start, as a 64-bit word. -/
def total (p : Pacer) (now : Nat) : Nat :=
  min Text.wordMax (product (now - p.started) p.rate / secondNs + 1)

/-- The requests due at `now` and not yet consumed. -/
def due (p : Pacer) (now : Nat) : Nat := p.total now - p.consumed

/-- Marks `n` requests as made. -/
def consume (p : Pacer) (n : Nat) : Pacer := { p with consumed := p.consumed + n }

/-- The instant at which the next request becomes due: the first whole nanosecond after the
    consumed requests have filled their time. -/
def nextDue (p : Pacer) : Nat :=
  let rate := max p.rate 1
  p.started + min Text.wordMax ((p.consumed * secondNs + (rate - 1)) / rate)

@[simp] theorem rate_consume (p : Pacer) (n : Nat) : (p.consume n).rate = p.rate := rfl
@[simp] theorem started_consume (p : Pacer) (n : Nat) : (p.consume n).started = p.started := rfl
@[simp] theorem consumed_consume (p : Pacer) (n : Nat) :
    (p.consume n).consumed = p.consumed + n := rfl
@[simp] theorem total_consume (p : Pacer) (n now : Nat) : (p.consume n).total now = p.total now :=
  rfl

/-- Consuming requests that are due leaves the others. -/
theorem due_consume (p : Pacer) (n now : Nat) : (p.consume n).due now = p.due now - n := by
  simp only [due, total_consume, consumed_consume]
  omega

end Pacer

end TxLoad
