import TxLoad.Proofs.Engine.Ending

namespace TxLoad

/-!
# How soon engines heed a cancellation

An engine that is asked to stop submits nothing more. It stops when it looks next, which is when its
park, its send or its connect is over: none of these takes longer than the longest park or the
timeout, whatever the far side does.

* `Engine.KeepsUp`: the engine has begun what it is about by the instant `t`, and is done with it
  `ms` milliseconds later. Steps keep it (`Engine.KeepsUp.step`), and so does the clock as long as
  it does not pass the engine (`Engine.KeepsUp.later`).
* `Engine.WindsDown`: the engine was cancelled at the instant `t` and is stopped `ms` milliseconds
  later. Steps keep it (`Engine.WindsDown.step`) and submit nothing
  (`Engine.WindsDown.sent_step`).
* `Group.forall_stepEngine_due`, `Group.sends_stepEngine`: the same for all engines of a group.
-/

namespace Engine

variable {e : Engine} {t ms : Nat}

/-- No park is longer than the longest one. -/
theorem parkUntil_le (e : Engine) (p : Pacer) : e.parkUntil p ≤ e.now + maxParkMs := by
  refine Nat.max_le.mpr ⟨Nat.le_add_right _ _, ?_⟩
  rw [Clock.ceilMs_le_iff]
  exact Nat.min_le_right _ _

/-- The engine has begun what it is about by the instant `t`, which it has not passed, and will be
    done with it at most `ms` later. -/
structure KeepsUp (e : Engine) (t ms : Nat) : Prop where
  park_le : maxParkMs ≤ ms
  timeout_le : e.setup.timeoutMs ≤ ms
  ahead : e.isStopped = false → t ≤ e.now
  near : e.now ≤ t + ms
  connecting : e.phase = .connecting → e.now ≤ t
  stopped : e.isStopped = true → e.now ≤ t
  submitted : ∀ s ∈ e.sent, s.submitted ≤ t

/-- The clock moves on, but not past the engine. -/
theorem KeepsUp.later (h : e.KeepsUp t ms) {t' : Nat} (hle : t ≤ t')
    (hahead : e.isStopped = false → t' ≤ e.now) : e.KeepsUp t' ms where
  park_le := h.park_le
  timeout_le := h.timeout_le
  ahead := hahead
  near := Nat.le_trans h.near (Nat.add_le_add_right hle ms)
  connecting hp := Nat.le_trans (h.connecting hp) hle
  stopped hs := Nat.le_trans (h.stopped hs) hle
  submitted s hs := Nat.le_trans (h.submitted s hs) hle

theorem KeepsUp.cancel (h : e.KeepsUp t ms) : e.cancel.KeepsUp t ms :=
  ⟨h.park_le, h.timeout_le, h.ahead, h.near, h.connecting, h.stopped, h.submitted⟩

/-- **Step.** What an engine begins now is over soon. -/
theorem KeepsUp.step (h : e.KeepsUp t ms) (hgoing : e.isStopped = false) (hdue : e.now ≤ t) :
    e.step.KeepsUp t ms := by
  have hnow : e.now = t := Nat.le_antisymm hdue (h.ahead hgoing)
  have hpark := h.park_le
  have htimeout := h.timeout_le
  have hstop : ∀ exit, (e.stop exit).KeepsUp t ms := fun exit =>
    ⟨hpark, htimeout, fun _ => Nat.le_of_eq hnow.symm, h.near, fun hp => (by cases hp),
      fun _ => hdue, h.submitted⟩
  -- What does not connect and does not stop is near if it lasts no longer than `ms`.
  have hgo : ∀ d : Engine, d.setup = e.setup → d.phase ≠ .connecting → d.isStopped = false →
      t ≤ d.now → d.now ≤ t + ms → (∀ s ∈ d.sent, s.submitted ≤ t) → d.KeepsUp t ms := by
    intro d hsetup hphase hs hahead hnear hsubmitted
    refine ⟨hpark, hsetup ▸ htimeout, fun _ => hahead, hnear, fun hp => absurd hp hphase,
      fun hstopped => ?_, hsubmitted⟩
    rw [hs] at hstopped
    cases hstopped
  unfold Engine.step
  split
  · have hwait := bounded_fst_le e.setup e.setup.target.connect
    refine hgo _ rfl (fun hp => by cases hp) rfl ?_ ?_ h.submitted
    · show t ≤ e.now + _
      omega
    · show e.now + (bounded e.setup e.setup.target.connect).1 ≤ t + ms
      omega
  · exact hstop _
  · exact hgo _ rfl (fun hp => by cases hp) rfl (Nat.le_of_eq hnow.symm) h.near h.submitted
  · rename_i p hp
    have hlook := looks_look e p
    generalize e.look p = d at hlook
    cases hlook with
    | cancelled | elapsed | counted | refused => exact hstop _
    | parked =>
      have hle := le_parkUntil e p
      have hpark' := parkUntil_le e p
      refine hgo _ rfl ?_ hgoing ?_ ?_ h.submitted
      · show e.phase ≠ .connecting
        rw [hp]
        exact fun hc => by cases hc
      · show t ≤ e.parkUntil p
        omega
      · show e.parkUntil p ≤ t + ms
        omega
    | @submitted hcancelled hdeadline hlimit hrequest payload hclient =>
      have hwait := bounded_fst_le e.setup
        (e.setup.target.send ⟨p.consumed, payload, e.setup.mode⟩)
      refine hgo _ rfl (fun hp => by cases hp) rfl ?_ ?_ ?_
      · show t ≤ e.now + _
        omega
      · show e.now + (bounded e.setup (e.setup.target.send _)).1 ≤ t + ms
        omega
      · intro s hs
        rcases List.mem_cons.mp hs with rfl | hs
        · exact hdue
        · exact h.submitted s hs
  · exact hstop _
  · exact hgo _ rfl (fun hp => by cases hp) rfl (Nat.le_of_eq hnow.symm) h.near h.submitted
  · exact h

/-! ### After the cancellation -/

/-- The engine was cancelled at the instant `t`, and is done at most `ms` later. -/
structure WindsDown (e : Engine) (t ms : Nat) : Prop where
  cancelled : e.cancelled = true
  timeout_le : e.setup.timeoutMs ≤ ms
  near : e.now ≤ t + ms
  connecting : e.phase = .connecting → e.now ≤ t

theorem KeepsUp.windsDown (h : e.KeepsUp t ms) : e.cancel.WindsDown t ms :=
  ⟨rfl, h.timeout_le, h.near, h.connecting⟩

/-- **Step.** An engine that was cancelled waits for nothing new but the outcome of its connect. -/
theorem WindsDown.step (h : e.WindsDown t ms) : e.step.WindsDown t ms := by
  have hstop : ∀ exit, (e.stop exit).WindsDown t ms := fun exit =>
    ⟨h.cancelled, h.timeout_le, h.near, fun hp => (by cases hp)⟩
  unfold Engine.step
  split
  · rename_i hp
    have hbegun := h.connecting hp
    have hwait := bounded_fst_le e.setup e.setup.target.connect
    have htimeout := h.timeout_le
    refine ⟨h.cancelled, htimeout, ?_, fun hp => by cases hp⟩
    show e.now + (bounded e.setup e.setup.target.connect).1 ≤ t + ms
    omega
  · exact hstop _
  · exact ⟨h.cancelled, h.timeout_le, h.near, fun hp => by cases hp⟩
  · rw [look, if_pos h.cancelled]
    exact hstop _
  · exact hstop _
  · exact ⟨h.cancelled, h.timeout_le, h.near, fun hp => by cases hp⟩
  · exact h

/-- An engine that was cancelled submits nothing. -/
theorem WindsDown.sent_step (h : e.WindsDown t ms) : e.step.sent = e.sent := by
  unfold Engine.step
  split
  · rfl
  · rfl
  · rfl
  · rw [look, if_pos h.cancelled]
    rfl
  · rfl
  · rfl
  · rfl

end Engine

/-! ### Groups -/

namespace Group

variable {g : Group} {t ms : Nat}

/-- What the step of an engine that is due keeps, a step of one engine of a group keeps for all of
    them. -/
theorem forall_stepEngine_due {P : Engine → Prop} {i : Nat}
    (hstep : ∀ e, P e → e.isStopped = false → e.now ≤ t → P e.step) (h : ∀ e ∈ g.engines, P e)
    (hdue : g.isDue i t = true) : ∀ e ∈ (g.stepEngine i).engines, P e := by
  simp only [isDue, Option.any_eq_true, Bool.and_eq_true, Bool.not_eq_true',
    decide_eq_true_eq] at hdue
  obtain ⟨d, hd, hgoing, hnow⟩ := hdue
  intro e he
  obtain ⟨j, hj⟩ := List.mem_iff_getElem?.mp he
  rw [stepEngine, List.getElem?_modify] at hj
  obtain ⟨e', he', rfl⟩ := Option.map_eq_some_iff.mp hj
  have hP := h e' (List.mem_of_getElem? he')
  by_cases hij : i = j
  · subst hij
    obtain rfl : d = e' := Option.some.inj (hd.symm.trans he')
    rw [if_pos rfl]
    exact hstep d hP hgoing hnow
  · rw [if_neg hij]
    exact hP

/-- The sends of the engines. -/
def sends (g : Group) : List (List Sent) := g.engines.map (·.sent)

@[simp] theorem sends_cancel (g : Group) : g.cancel.sends = g.sends := by
  simp [sends, Function.comp_def, Engine.cancel]

/-- Engines that were cancelled submit nothing. -/
theorem sends_stepEngine (h : ∀ e ∈ g.engines, e.WindsDown t ms) (i : Nat) :
    (g.stepEngine i).sends = g.sends := by
  refine List.ext_getElem? fun j => ?_
  simp only [sends, stepEngine, List.getElem?_map, List.getElem?_modify]
  cases he : g.engines[j]? with
  | none => rfl
  | some e =>
    by_cases hij : i = j
    · simp [hij, (h e (List.mem_of_getElem? he)).sent_step]
    · simp [hij]

/-- No engine that has not stopped acts before the next instant of the group. -/
theorem next?_le_now {next : Nat} (hnext : g.next? = some next) {e : Engine}
    (he : e ∈ g.engines) (hgoing : e.isStopped = false) : next ≤ e.now := by
  refine (List.min?_eq_some_iff.mp hnext).2 e.now ?_
  exact List.mem_filterMap.mpr ⟨e, he, by simp [hgoing]⟩

/-- An engine that acts again after an instant, or has stopped after it. -/
theorem exists_of_lt_finishedAt (h : t < g.finishedAt 0) : ∃ e ∈ g.engines, t < e.now := by
  have key : ∀ (instants : List Nat) (start : Nat), t < instants.foldl max start →
      t < start ∨ ∃ n ∈ instants, t < n := by
    intro instants
    induction instants with
    | nil => exact fun start h => .inl h
    | cons n instants ih =>
      intro start h
      rcases ih (max start n) h with h | ⟨m, hm, hlt⟩
      · rcases lt_max_iff.mp h with h | h
        · exact .inl h
        · exact .inr ⟨n, List.mem_cons_self, h⟩
      · exact .inr ⟨m, List.mem_cons_of_mem _ hm, hlt⟩
  rcases key _ 0 h with h | ⟨n, hn, hlt⟩
  · exact absurd h (Nat.not_lt_zero t)
  · obtain ⟨e, he, rfl⟩ := List.mem_map.mp hn
    exact ⟨e, he, hlt⟩

/-- The engines of a new group keep up. -/
theorem keepsUp_spawn (cfg : Config) (pool : Pool) (target : Nat → Endpoint → Target)
    (clients : List Client) (now : Nat) : ∀ e ∈ (spawn cfg pool target clients now).engines,
      e.KeepsUp now (max Engine.maxParkMs (Clock.seconds cfg.sendTimeout.toNat)) := by
  intro e he
  obtain ⟨⟨client, i⟩, -, rfl⟩ := List.mem_map.mp he
  exact ⟨Nat.le_max_left .., Nat.le_max_right .., fun _ => Nat.le_refl _, Nat.le_add_right ..,
    fun _ => Nat.le_refl _, fun hs => (by cases hs), fun s hs => (by cases hs)⟩

end Group

end TxLoad
