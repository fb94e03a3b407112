import TxLoad.Engine.Group
import TxLoad.Proofs.Engine.Schedule

namespace TxLoad

/-!
# When the engines of a group are done

An engine submits nothing at its deadline or later, and waits for no send longer than its timeout.
So whatever the far side does, the engines of a group are done when the configured time and one
timeout more are over.

* `Engine.EndsBy.step`: an engine never acts later than this.
* `Group.endsBy_spawn`: neither do the engines of a group.
* `Group.budget_stepEngine_lt`: nor can they act forever at one instant, since every step of an
  engine uses up some of the budget.
-/

namespace Engine

variable {bound : Nat}

/-- The engine never acts after the instant `bound`, whatever the far side does. -/
structure EndsBy (e : Engine) (bound : Nat) : Prop where
  now_le : e.now ≤ bound
  deadline_le : e.setup.deadline + e.setup.timeoutMs ≤ bound
  connecting : e.phase = .connecting → e.now ≤ e.setup.deadline

theorem EndsBy.cancel {e : Engine} (h : e.EndsBy bound) : e.cancel.EndsBy bound :=
  ⟨h.now_le, h.deadline_le, h.connecting⟩

theorem bounded_fst_le (s : EngineSetup) (a : Awaited (Except ConnectionError Unit)) :
    (bounded s a).1 ≤ s.timeoutMs := a.within_fst_le s.timeoutMs

/-- **Step lemma.** A connect begins by the deadline and a send before it, and each is over after
    the timeout; no park lasts beyond the deadline. -/
theorem EndsBy.step {e : Engine} (h : e.EndsBy bound) : e.step.EndsBy bound := by
  have hbound := h.deadline_le
  have hstop : ∀ exit, (e.stop exit).EndsBy bound := fun exit =>
    ⟨h.now_le, hbound, fun hp => (by cases hp)⟩
  unfold Engine.step
  split
  · rename_i hp
    have hnow := h.connecting hp
    have hwait := bounded_fst_le e.setup e.setup.target.connect
    refine ⟨?_, hbound, fun hp => by cases hp⟩
    show e.now + (bounded e.setup e.setup.target.connect).1 ≤ bound
    omega
  · exact hstop _
  · exact ⟨h.now_le, hbound, fun hp => by cases hp⟩
  · rename_i p hp
    have hlook := looks_look e p
    generalize e.look p = d at hlook
    cases hlook with
    | cancelled | elapsed | counted | refused => exact hstop _
    | parked hgoing hdeadline =>
      have hpark := parkUntil_le_deadline p (Nat.le_of_lt hdeadline)
      refine ⟨?_, hbound, fun hp' => ?_⟩
      · show e.parkUntil p ≤ bound
        omega
      · rw [show ({ e with now := e.parkUntil p } : Engine).phase = e.phase from rfl, hp] at hp'
        cases hp'
    | @submitted hgoing hdeadline hlimit hdue payload hclient =>
      have hwait := bounded_fst_le e.setup
        (e.setup.target.send ⟨p.consumed, payload, e.setup.mode⟩)
      refine ⟨?_, hbound, fun hp => by cases hp⟩
      show e.now + (bounded e.setup (e.setup.target.send _)).1 ≤ bound
      omega
  · exact hstop _
  · exact ⟨h.now_le, hbound, fun hp => by cases hp⟩
  · exact h

end Engine

namespace Group

variable {g : Group} {bound : Nat}

/-! ### All engines of a group -/

/-- What every step of an engine keeps, a step of one engine of a group keeps for all of them. -/
theorem forall_stepEngine {P : Engine → Prop} (hstep : ∀ e, P e → P e.step)
    (h : ∀ e ∈ g.engines, P e) (i : Nat) : ∀ e ∈ (g.stepEngine i).engines, P e := by
  intro e he
  obtain ⟨j, hj⟩ := List.mem_iff_getElem?.mp he
  rw [stepEngine, List.getElem?_modify] at hj
  obtain ⟨e', he', rfl⟩ := Option.map_eq_some_iff.mp hj
  have hP := h e' (List.mem_of_getElem? he')
  split
  · exact hstep e' hP
  · exact hP

theorem forall_cancel {P : Engine → Prop} (hcancel : ∀ e, P e → P e.cancel)
    (h : ∀ e ∈ g.engines, P e) : ∀ e ∈ g.cancel.engines, P e := by
  intro e he
  rw [engines_cancel] at he
  obtain ⟨e', he', rfl⟩ := List.mem_map.mp he
  exact hcancel e' (h e' he')

/-- No engine of the group acts after the instant `bound`. -/
def EndsBy (g : Group) (bound : Nat) : Prop := ∀ e ∈ g.engines, e.EndsBy bound

/-- All engines of the group are paced. -/
def IsPaced (g : Group) : Prop := ∀ e ∈ g.engines, e.IsPaced

theorem EndsBy.stepEngine (h : g.EndsBy bound) (i : Nat) : (g.stepEngine i).EndsBy bound :=
  forall_stepEngine (fun _ he => he.step) h i

theorem EndsBy.cancel (h : g.EndsBy bound) : g.cancel.EndsBy bound :=
  forall_cancel (fun _ he => he.cancel) h

theorem IsPaced.stepEngine (h : g.IsPaced) (i : Nat) : (g.stepEngine i).IsPaced :=
  forall_stepEngine (fun _ he => he.step) h i

theorem IsPaced.cancel (h : g.IsPaced) : g.cancel.IsPaced := forall_cancel (fun _ he => he) h

/-! ### The next instant -/

/-- The next instant of a group is that of one of its engines. -/
theorem exists_of_next? {t : Nat} (h : g.next? = some t) :
    ∃ (i : Nat) (e : Engine), g.engines[i]? = some e ∧ e.isStopped = false ∧ e.now = t := by
  have hmem := List.min?_mem h
  simp only [instants, List.mem_filterMap, Option.ite_none_left_eq_some, Option.some.injEq] at hmem
  obtain ⟨e, he, hgoing, hnow⟩ := hmem
  obtain ⟨i, hi⟩ := List.mem_iff_getElem?.mp he
  exact ⟨i, e, hi, by simpa using hgoing, hnow⟩

/-- As long as the group has a next instant, it is not after the bound. -/
theorem EndsBy.next?_le (h : g.EndsBy bound) {t : Nat} (ht : g.next? = some t) : t ≤ bound := by
  obtain ⟨i, e, hi, -, rfl⟩ := exists_of_next? ht
  exact (h e (List.mem_of_getElem? hi)).now_le

/-- A group without a next instant has stopped. -/
theorem isStopped_of_next? (h : g.next? = none) : g.isStopped = true := by
  rw [next?, List.min?_eq_none_iff, instants, List.filterMap_eq_nil_iff] at h
  rw [isStopped, List.all_eq_true]
  intro e he
  simpa using h e he

/-! ### New groups -/

/-- **The end of a run.** The engines of a group are done when the configured time and one timeout
    more are over. -/
theorem endsBy_spawn (cfg : Config) (pool : Pool) (target : Nat → Endpoint → Target)
    (clients : List Client) (now : Nat) : (spawn cfg pool target clients now).EndsBy
      (now + Clock.seconds cfg.time.toNat + Clock.seconds cfg.sendTimeout.toNat) := by
  intro e he
  obtain ⟨⟨client, i⟩, -, rfl⟩ := List.mem_map.mp he
  refine ⟨?_, Nat.le_refl _, fun _ => Nat.le_add_right _ _⟩
  show now ≤ now + Clock.seconds cfg.time.toNat + Clock.seconds cfg.sendTimeout.toNat
  omega

/-- The engines of a valid configuration are paced, provided that the transactions of a connection
    can be counted with a word. -/
theorem isPaced_spawn {cfg : Config} (hvalid : cfg.IsValid)
    (hwords : cfg.rate.toNat * cfg.time.toNat < Text.wordMax) (pool : Pool)
    (target : Nat → Endpoint → Target) (clients : List Client) (now : Nat) :
    (spawn cfg pool target clients now).IsPaced := by
  intro e he
  obtain ⟨⟨client, i⟩, -, rfl⟩ := List.mem_map.mp he
  refine Engine.isExactUntil_of_span hvalid.rate_pos ?_ ?_
  · have htime := hvalid.time_le
    show now + Clock.seconds cfg.time.toNat ≤ now + _ + Clock.seconds maxSeconds
    unfold Clock.seconds
    omega
  · have hspan : now + Clock.seconds cfg.time.toNat - (now + (Engine.bounded (setup cfg pool target
        now (now + Clock.seconds cfg.time.toNat) i client) (target i (pool.select i)).connect).1) ≤
        cfg.time.toNat * 1000 := by
      unfold Clock.seconds
      omega
    calc cfg.rate.toNat * _
        ≤ cfg.rate.toNat * (cfg.time.toNat * 1000) := Nat.mul_le_mul_left _ hspan
      _ = 1000 * (cfg.rate.toNat * cfg.time.toNat) := by ring
      _ < 1000 * Text.wordMax := Nat.mul_lt_mul_of_pos_left hwords (by decide)

/-! ### The budget of a group -/

theorem budget_eq_sum (g : Group) : g.budget = (g.engines.map (·.budget)).sum :=
  List.sum_eq_foldl.symm

/-- Whether it is asked to stop does not matter for the budget of a group. -/
theorem budget_cancel (g : Group) : g.cancel.budget = g.budget := by
  rw [budget, budget, engines_cancel, List.map_map]
  rfl

/-- A step of an engine that is due uses up some of the budget of the group. -/
theorem budget_stepEngine_lt (h : g.IsPaced) {i t : Nat} (hdue : g.isDue i t = true) :
    (g.stepEngine i).budget < g.budget := by
  simp only [isDue, Option.any_eq_true, Bool.and_eq_true, Bool.not_eq_true'] at hdue
  obtain ⟨e, he, hgoing, -⟩ := hdue
  obtain ⟨hlt, rfl⟩ := List.getElem?_eq_some_iff.mp he
  have hstep := Engine.budget_step_lt (h _ (List.getElem_mem hlt)) hgoing
  have hsplit : g.engines = g.engines.take i ++ g.engines[i] :: g.engines.drop (i + 1) := by
    rw [← List.drop_eq_getElem_cons hlt, List.take_append_drop]
  rw [budget_eq_sum, budget_eq_sum, stepEngine, List.modify_eq_take_cons_drop hlt]
  conv_rhs => rw [hsplit]
  simp only [List.map_append, List.map_cons, List.sum_append, List.sum_cons]
  omega

end Group

end TxLoad
