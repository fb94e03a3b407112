import TxLoad.Worker.Step
import Mathlib.Tactic.Common

namespace TxLoad

/-!
# What flows into a worker and out of it

Nothing that was written is taken back, and nothing that has arrived is lost or invented: it waits
in the inbox until it is read.

* `Keeps` holds of everything that a worker does to a reading: the inbox is left alone.
* `Reacts` says once what each event can do; `reacts_step` opens the step of a worker.
* `keeps_step`, `Flows.step`: an event of the worker's own moves readings from the inbox to what was
  read.
* `step_of_stopped`: a worker that has stopped reads nothing anymore.
-/

/-- Whether nothing new arrives by an event. -/
def WorkerEvent.isInner : WorkerEvent → Bool
  | .arrive _ => false
  | _ => true

namespace Worker

variable {w v : Worker}

/-- The log only grows, and neither the setup nor what was read nor the inbox changes. -/
structure Keeps (w v : Worker) : Prop where
  setup : v.setup = w.setup
  log : w.log <+: v.log
  heard : v.heard = w.heard
  inbox : v.inbox = w.inbox

/-- The log only grows, and what was read and what waits in the inbox is in all the same. -/
structure Flows (w v : Worker) : Prop where
  setup : v.setup = w.setup
  log : w.log <+: v.log
  arrived : v.heard ++ v.inbox = w.heard ++ w.inbox

namespace Keeps

theorem refl (w : Worker) : w.Keeps w := ⟨rfl, List.prefix_refl _, rfl, rfl⟩

theorem flows (h : w.Keeps v) : w.Flows v := ⟨h.setup, h.log, by rw [h.heard, h.inbox]⟩

end Keeps

/-- The worker that has taken a reading out of its inbox. -/
def took (w : Worker) (r : Reading) (inbox : List Reading) : Worker :=
  { w with inbox, heard := w.heard ++ [r] }

/-- What was sent only grows. -/
theorem Flows.sent (h : w.Flows v) : w.sent <+: v.sent := (h.log.filter _).map _

/-! ### Keeping -/

theorem keeps_writeThen (w : Worker) (m : Message) (next : WorkerPhase) :
    w.Keeps (w.writeThen m next) := by
  unfold writeThen
  split <;> exact ⟨rfl, List.prefix_append _ _, rfl, rfl⟩

theorem keeps_miss (w : Worker) (deadline : Nat) : w.Keeps (w.miss deadline) := by
  unfold miss
  split <;> exact ⟨rfl, List.prefix_refl _, rfl, rfl⟩

theorem keeps_configure (w : Worker) (cfg : Config) : w.Keeps (w.configure cfg) := by
  unfold configure
  split
  · exact w.keeps_writeThen _ _
  · exact ⟨rfl, List.prefix_refl _, rfl, rfl⟩

theorem keeps_onRunning (w : Worker) (r : Reading) : w.Keeps (w.onRunning r) := by
  unfold onRunning
  split <;> exact ⟨rfl, List.prefix_refl _, rfl, rfl⟩

theorem keeps_onFinishing (w : Worker) (last : Report) (r : Reading) :
    w.Keeps (w.onFinishing last r) := by
  unfold onFinishing
  split <;> exact ⟨rfl, List.prefix_refl _, rfl, rfl⟩

theorem keeps_onRead (w : Worker) (r : Reading) : w.Keeps (w.onRead r) := by
  have hsame : ∀ phase id group, w.Keeps { w with phase, id, group } :=
    fun _ _ _ => ⟨rfl, List.prefix_refl _, rfl, rfl⟩
  unfold onRead
  split
  · exact hsame _ _ _
  · exact hsame _ _ _
  · exact w.keeps_configure _
  · exact hsame _ _ _
  · exact hsame _ _ _
  · exact hsame _ _ _
  · exact hsame _ _ _
  · exact hsame _ _ _
  · exact w.keeps_onRunning _
  · exact w.keeps_onFinishing _ _
  · exact .refl w

theorem keeps_report (w : Worker) (cfg : Config) : w.Keeps (w.report cfg) := by
  unfold report
  simp only
  split <;> exact ⟨rfl, List.prefix_append _ _, rfl, rfl⟩

theorem keeps_conclude (w : Worker) : w.Keeps w.conclude := by
  unfold conclude
  simp only
  split <;> exact ⟨rfl, List.prefix_append _ _, rfl, rfl⟩

theorem keeps_expire (w : Worker) : w.Keeps w.expire := by
  unfold expire
  split
  · exact w.keeps_miss _
  · exact ⟨rfl, List.prefix_refl _, rfl, rfl⟩
  · unfold prepared
    split <;> exact w.keeps_writeThen _ _
  · exact ⟨rfl, List.prefix_refl _, rfl, rfl⟩
  · exact .refl w

/-! ### What an event does -/

/-- What an event does to a worker. -/
inductive Reacts (w : Worker) : WorkerEvent → Worker → Prop where
  /-- The event cannot happen now. -/
  | refused {e : WorkerEvent} (hcan : w.canHappen e = false) : w.Reacts e w
  | reach {deadline : Nat} (hp : w.phase = .connecting deadline) :
    w.Reacts .reach (w.writeThen (.hello none) .greeting)
  | miss {deadline : Nat} (hp : w.phase = .connecting deadline) : w.Reacts .miss (w.miss deadline)
  | arrive (r : Reading) : w.Reacts (.arrive r) { w with inbox := w.inbox ++ [r] }
  | sever : w.Reacts .sever { w with isWritable := false }
  | read {r : Reading} {inbox : List Reading} (hlisten : w.isListening = true)
    (hin : w.inbox = r :: inbox) : w.Reacts .read ((w.took r inbox).onRead r)
  | work {engine : Nat} (he : w.hasEngines = true) (hdue : w.group.isDue engine w.now = true) :
    w.Reacts (.work engine) { w with group := w.group.stepEngine engine }
  | report {cfg : Config} {next : Nat} (hp : w.phase = .running cfg next) (hnow : next ≤ w.now) :
    w.Reacts .report (w.report cfg)
  | conclude {cfg : Config} {next : Nat} (hp : w.phase = .running cfg next)
    (hs : w.group.isStopped = true) : w.Reacts .join w.conclude
  /-- Nobody is left to report to. -/
  | giveUp (hp : w.phase = .abandoning) (hs : w.group.isStopped = true) :
    w.Reacts .join (w.stop (.error linkLost))
  | expire {t : Nat} (he : w.hasEngines = false) (ht : w.timer? = some t) (hnow : t ≤ w.now)
    (hin : ∀ last deadline, w.phase = .finishing last deadline → w.inbox = []) :
    w.Reacts .expire w.expire
  | interrupt {cfg : Config} {next : Nat} (hp : w.phase = .running cfg next)
    (hcfg : cfg.noTrapInterrupts = false) : w.Reacts .interrupt { w with group := w.group.cancel }
  | advance {ms now : Nat}
    (hnow : now = w.timer?.elim (w.now + ms) fun t => max w.now (min (w.now + ms) t)) :
    w.Reacts (.advance ms) { w with now }

/-- An event that can happen does what its name says. -/
theorem reacts_act {e : WorkerEvent} (hcan : w.canHappen e = true) : w.Reacts e (w.act e) := by
  cases e with
  | reach =>
    simp only [canHappen] at hcan
    split at hcan
    · rename_i hp
      exact .reach hp
    · cases hcan
  | miss =>
    simp only [canHappen] at hcan
    split at hcan
    · rename_i hp
      rw [act, hp]
      exact .miss hp
    · cases hcan
  | arrive r => exact .arrive r
  | sever => exact .sever
  | read =>
    simp only [canHappen, Bool.and_eq_true] at hcan
    cases hin : w.inbox with
    | nil => simp [hin] at hcan
    | cons r inbox =>
      rw [act, read, hin]
      exact .read hcan.1 hin
  | work engine =>
    simp only [canHappen, Bool.and_eq_true] at hcan
    exact .work hcan.1 hcan.2
  | report =>
    simp only [canHappen] at hcan
    split at hcan
    · rename_i hp
      rw [act, hp]
      exact .report hp (by simpa using hcan)
    · cases hcan
  | join =>
    simp only [canHappen, hasEngines, Bool.and_eq_true] at hcan
    obtain ⟨he, hs⟩ := hcan
    split at he
    · rename_i hp
      rw [act, hp]
      exact .conclude hp hs
    · rename_i hp
      rw [act, hp]
      exact .giveUp hp hs
    · cases he
  | expire =>
    simp only [canHappen, Bool.and_eq_true, Bool.not_eq_true', Option.any_eq_true,
      decide_eq_true_eq] at hcan
    obtain ⟨⟨he, t, ht, hnow⟩, hin⟩ := hcan
    refine .expire he ht hnow fun last deadline hp => ?_
    simpa [hp] using hin
  | interrupt =>
    simp only [canHappen] at hcan
    split at hcan
    · rename_i hp
      exact .interrupt hp (by simpa using hcan)
    · cases hcan
  | advance ms =>
    rw [act, advance]
    cases ht : w.timer? with
    | some t => exact .advance (by rw [ht]; rfl)
    | none => exact .advance (by rw [ht]; rfl)

/-- **Inversion.** What a step does is what the event does. -/
theorem reacts_step (w : Worker) (e : WorkerEvent) : w.Reacts e (w.step e) := by
  by_cases hcan : w.canHappen e = true
  · rw [step, if_pos hcan]
    exact reacts_act hcan
  · rw [step, if_neg hcan]
    exact .refused (by simpa using hcan)

/-! ### Flowing -/

/-- An event of the worker's own leaves the inbox alone, or the first of it is read. -/
theorem keeps_step (w : Worker) {e : WorkerEvent} (he : e.isInner = true) : w.Keeps (w.step e) ∨
    ∃ r inbox, e = .read ∧ w.isListening = true ∧ w.inbox = r :: inbox ∧
      w.step e = (w.took r inbox).onRead r := by
  have hr := w.reacts_step e
  generalize w.step e = v at hr ⊢
  cases hr with
  | refused => exact .inl (.refl w)
  | reach => exact .inl (w.keeps_writeThen _ _)
  | miss => exact .inl (w.keeps_miss _)
  | arrive => cases he
  | read hlisten hin => exact .inr ⟨_, _, rfl, hlisten, hin, rfl⟩
  | report => exact .inl (w.keeps_report _)
  | conclude => exact .inl w.keeps_conclude
  | expire => exact .inl w.keeps_expire
  | sever | work | giveUp | interrupt | advance => exact .inl ⟨rfl, List.prefix_refl _, rfl, rfl⟩

/-- An event of the worker's own loses nothing that has arrived. -/
theorem Flows.step (w : Worker) {e : WorkerEvent} (he : e.isInner = true) :
    w.Flows (w.step e) := by
  rcases w.keeps_step he with h | ⟨r, inbox, -, -, hinbox, hstep⟩
  · exact h.flows
  · have h := keeps_onRead (w.took r inbox) r
    rw [hstep]
    refine ⟨h.setup, h.log, ?_⟩
    rw [h.heard, h.inbox, hinbox]
    simp [took]

/-- No event changes the setup. -/
theorem setup_step (w : Worker) (e : WorkerEvent) : (w.step e).setup = w.setup := by
  cases e with
  | arrive r => rfl
  | _ => exact (Flows.step w rfl).setup

theorem setup_run (w : Worker) (es : List WorkerEvent) : (w.run es).setup = w.setup :=
  List.foldlRecOn (motive := (·.setup = w.setup)) es step rfl fun v hv e _ =>
    (v.setup_step e).trans hv

/-- A worker that has stopped stays as it is, and reads nothing anymore. -/
theorem step_of_stopped {result : Except Error Report} (hp : w.phase = .stopped result)
    (e : WorkerEvent) : (w.step e).phase = .stopped result ∧ (w.step e).id = w.id ∧
      (w.step e).heard = w.heard := by
  have hr := w.reacts_step e
  generalize w.step e = v at hr ⊢
  cases hr with
  | refused | arrive | sever | advance => exact ⟨hp, rfl, rfl⟩
  | read hlisten => simp [isListening, hp] at hlisten
  | work he => simp [hasEngines, hp] at he
  | expire he ht => simp [timer?, hp] at ht
  | reach hp' | miss hp' | report hp' | conclude hp' | giveUp hp' | interrupt hp' =>
    rw [hp] at hp'
    cases hp'

end Worker

end TxLoad
