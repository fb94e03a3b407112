import TxLoad.Standalone
import TxLoad.Proofs.Engine.Asking
import TxLoad.Proofs.Engine.Ending
import TxLoad.Proofs.Engine.Tally
import Mathlib.Algebra.Order.BigOperators.Group.List
import Mathlib.Logic.Relation

namespace TxLoad

/-!
# Engines side by side

The engines of a group share a clock and the request to stop, and nothing else. So each of them does
what it would do alone, whatever the others do.

* `Engine.Develops` and `Group.Develops`: what becomes of an engine, or of a group, up to an
  instant. They are relations, since without a pacer that can count an engine may act forever at
  one instant.
* `Engine.Develops.unique`: an engine that has nothing left to do up to an instant is in one
  possible state.
* `Group.Develops.engine`: in a group every engine develops as it does alone.
* `Group.engines_drive`: the whole run of a paced group is that of its engines.
* `Group.isIsolated_spawn`: the connections of a new group are isolated from each other.
-/

open Relation (ReflTransGen)

/-! ### A lone engine -/

namespace Engine

variable {e d d' : Engine} {t : Nat}

/-- The engine takes its next step, at the instant `t` at the latest. -/
def Acts (t : Nat) (e d : Engine) : Prop := e.isStopped = false ∧ e.now ≤ t ∧ d = e.step

/-- The engine has nothing left to do up to the instant `t`. -/
def IsDone (e : Engine) (t : Nat) : Prop := e.isStopped = true ∨ t < e.now

/-- What may become of an engine up to an instant. -/
inductive Develops (e : Engine) : Option Nat → Nat → Engine → Prop
  /-- It is not asked to stop. -/
  | free {t : Nat} {d : Engine} (h : ReflTransGen (Acts t) e d) : e.Develops none t d
  /-- It is asked to stop at the instant `x`, when it has done all that it does up to then. -/
  | cancelled {x t : Nat} {b d : Engine} (h : ReflTransGen (Acts x) e b) (hb : b.IsDone x)
    (hd : ReflTransGen (Acts t) b.cancel d) : e.Develops (some x) t d

theorem rightUnique_acts (t : Nat) : Relator.RightUnique (Acts t) := by
  rintro e d d' ⟨-, -, rfl⟩ ⟨-, -, rfl⟩
  rfl

theorem IsDone.not_acts (h : e.IsDone t) : ¬ Acts t e d := by
  rintro ⟨hgoing, hnow, -⟩
  rcases h with hstopped | hlt
  · rw [hgoing] at hstopped
    cases hstopped
  · omega

/-- Nothing becomes of an engine that has nothing left to do. -/
theorem IsDone.eq_of_reaches (hd : d.IsDone t) (h : ReflTransGen (Acts t) d d') : d' = d := by
  rcases h.cases_head with rfl | ⟨b, hacts, -⟩
  · rfl
  · exact absurd hacts hd.not_acts

theorem eq_of_reaches (h : ReflTransGen (Acts t) e d) (h' : ReflTransGen (Acts t) e d')
    (hd : d.IsDone t) (hd' : d'.IsDone t) : d = d' := by
  rcases h.total_of_right_unique (rightUnique_acts t) h' with h | h
  · exact (hd.eq_of_reaches h).symm
  · exact hd'.eq_of_reaches h

/-- **Determinism.** What becomes of an engine up to an instant is settled when it has nothing left
    to do up to then. -/
theorem Develops.unique {x? : Option Nat} (h : e.Develops x? t d) (h' : e.Develops x? t d')
    (hd : d.IsDone t) (hd' : d'.IsDone t) : d = d' := by
  cases h with
  | free h =>
    cases h' with
    | free h' => exact eq_of_reaches h h' hd hd'
  | cancelled h hb h₁ =>
    cases h' with
    | cancelled h' hb' h₁' =>
      obtain rfl := eq_of_reaches h h' hb hb'
      exact eq_of_reaches h₁ h₁' hd hd'

/-- What every step keeps holds of whatever becomes of an engine. -/
theorem of_reaches {P : Engine → Prop} (hstep : ∀ e, P e → P e.step)
    (h : ReflTransGen (Acts t) e d) (he : P e) : P d := by
  induction h with
  | refl => exact he
  | tail _ hacts ih =>
    obtain ⟨-, -, rfl⟩ := hacts
    exact hstep _ ih

theorem Develops.setup_eq {x? : Option Nat} (h : e.Develops x? t d) : d.setup = e.setup := by
  have hkept : ∀ {t : Nat} {b c : Engine}, ReflTransGen (Acts t) b c → c.setup = b.setup :=
    fun {_ b _} hreach => of_reaches (P := (·.setup = b.setup))
      (fun c hc => c.setup_step.trans hc) hreach rfl
  cases h with
  | free h => exact hkept h
  | @cancelled x _ b _ h _ hd =>
    have hcancel : b.cancel.setup = b.setup := rfl
    exact (hkept hd).trans (hcancel.trans (hkept h))

/-! ### The run of a lone engine -/

theorem reaches_stepsUntil (t n : Nat) (e : Engine) :
    ReflTransGen (Acts t) e (stepsUntil t n e) := by
  induction n generalizing e with
  | zero => exact .refl
  | succ n ih =>
    unfold stepsUntil
    split
    · exact .refl
    · rename_i hgoing
      simp only [Bool.or_eq_true, decide_eq_true_eq, not_or, Bool.not_eq_true, Nat.not_lt] at hgoing
      exact .head ⟨hgoing.1, hgoing.2, rfl⟩ (ih e.step)

theorem isDone_stepsUntil (h : e.IsPaced) {n : Nat} (hn : e.budget ≤ n) :
    (stepsUntil t n e).IsDone t := by
  induction n generalizing e with
  | zero =>
    refine .inl (by_contra fun hgoing => ?_)
    have := budget_step_lt h (by simpa [stepsUntil] using hgoing)
    omega
  | succ n ih =>
    unfold stepsUntil
    split
    · rename_i hdone
      simpa [IsDone] using hdone
    · rename_i hgoing
      simp only [Bool.or_eq_true, decide_eq_true_eq, not_or, Bool.not_eq_true] at hgoing
      have := budget_step_lt h hgoing.1
      exact ih h.step (by omega)

theorem reaches_steps {bound : Nat} (h : e.EndsBy bound) (n : Nat) :
    ReflTransGen (Acts bound) e (steps n e) := by
  induction n generalizing e with
  | zero => exact .refl
  | succ n ih =>
    unfold steps
    split
    · exact .refl
    · rename_i hgoing
      exact .head ⟨by simpa using hgoing, h.now_le, rfl⟩ (ih h.step)

/-- Runs an engine to its end, cancelling it at the instant of an interrupt. -/
def drive (e : Engine) : Option Nat → Engine
  | none => e.run
  | some x => (e.runUntil x).cancel.run

/-- The whole run of a paced engine. -/
theorem develops_drive {bound : Nat} (h : e.IsPaced) (hb : e.EndsBy bound) (x? : Option Nat) :
    e.Develops x? bound (e.drive x?) ∧ (e.drive x?).isStopped = true := by
  cases x? with
  | none => exact ⟨.free (reaches_steps hb _), isStopped_run h⟩
  | some x =>
    have hreach := reaches_stepsUntil x e.budget e
    have hpaced : (e.runUntil x).IsPaced := of_reaches (fun _ he => he.step) hreach h
    have hends : (e.runUntil x).EndsBy bound :=
      of_reaches (P := (·.EndsBy bound)) (fun _ he => he.step) hreach hb
    exact ⟨.cancelled hreach (isDone_stepsUntil h (Nat.le_refl _)) (reaches_steps hends.cancel _),
      isStopped_run (e := (e.runUntil x).cancel) hpaced⟩

end Engine

/-! ### The engines of a group -/

namespace Group

variable {g g' : Group} {t : Nat}

/-- Some of the engines that act at the instant `t` at the latest take their next step, in whichever
    order. -/
def Acts (t : Nat) (g g' : Group) : Prop :=
  ∃ which : Nat → Bool, (∀ i, which i = true → g.isDue i t = true) ∧ g' = g.stepSome which

/-- No engine has anything left to do up to the instant `t`. -/
def IsDone (g : Group) (t : Nat) : Prop := ∀ e ∈ g.engines, e.IsDone t

/-- What may become of a group up to an instant. -/
inductive Develops (g : Group) : Option Nat → Nat → Group → Prop
  /-- It is not asked to stop. -/
  | free {t : Nat} {g' : Group} (h : ReflTransGen (Acts t) g g') : g.Develops none t g'
  /-- It is asked to stop at the instant `x`, when its engines have done all that they do up to
      then. -/
  | cancelled {x t : Nat} {b g' : Group} (h : ReflTransGen (Acts x) g b) (hb : b.IsDone x)
    (hg : ReflTransGen (Acts t) b.cancel g') : g.Develops (some x) t g'

/-- **Step lemma.** In a step of the group an engine takes its own step or none. -/
theorem Acts.engine (h : g.Acts t g') {i : Nat} {e : Engine} (hi : g.engines[i]? = some e) :
    ∃ e', g'.engines[i]? = some e' ∧ ReflTransGen (Engine.Acts t) e e' := by
  obtain ⟨which, hdue, rfl⟩ := h
  by_cases hwhich : which i = true
  · refine ⟨e.step, by simp [stepSome, hi, hwhich], .single ?_⟩
    have hdue := hdue i hwhich
    simp only [isDue, hi, Option.any_some, Bool.and_eq_true, Bool.not_eq_true',
      decide_eq_true_eq] at hdue
    exact ⟨hdue.1, hdue.2, rfl⟩
  · exact ⟨e, by simp [stepSome, hi, hwhich], .refl⟩

theorem Acts.length_eq (h : g.Acts t g') : g'.engines.length = g.engines.length := by
  obtain ⟨which, -, rfl⟩ := h
  simp [stepSome]

theorem length_of_reaches (h : ReflTransGen (Acts t) g g') :
    g'.engines.length = g.engines.length := by
  induction h with
  | refl => rfl
  | tail _ hacts ih => exact hacts.length_eq.trans ih

/-- **Run lemma.** In a run of the group an engine takes its own steps. -/
theorem engine_of_reaches (h : ReflTransGen (Acts t) g g') {i : Nat} {e : Engine}
    (hi : g.engines[i]? = some e) :
    ∃ e', g'.engines[i]? = some e' ∧ ReflTransGen (Engine.Acts t) e e' := by
  induction h with
  | refl => exact ⟨e, hi, .refl⟩
  | tail _ hacts ih =>
    obtain ⟨d, hd, hreach⟩ := ih
    obtain ⟨e', he', hstep⟩ := hacts.engine hd
    exact ⟨e', he', hreach.trans hstep⟩

/-- Every engine that is in the group after a run has taken its own steps. -/
theorem exists_of_reaches (h : ReflTransGen (Acts t) g g') {i : Nat} {e' : Engine}
    (hi : g'.engines[i]? = some e') :
    ∃ e, g.engines[i]? = some e ∧ ReflTransGen (Engine.Acts t) e e' := by
  have hlt : i < g.engines.length := by
    rw [← length_of_reaches h]
    exact (List.getElem?_eq_some_iff.mp hi).1
  obtain ⟨d, hd, hreach⟩ := engine_of_reaches h (List.getElem?_eq_getElem hlt)
  obtain rfl := Option.some.inj (hi.symm.trans hd)
  exact ⟨_, List.getElem?_eq_getElem hlt, hreach⟩

/-- What every step of an engine keeps holds of all engines in a run of the group. -/
theorem forall_of_reaches {P : Engine → Prop} (hstep : ∀ e, P e → P e.step)
    (h : ReflTransGen (Acts t) g g') (hP : ∀ e ∈ g.engines, P e) : ∀ e ∈ g'.engines, P e := by
  intro e he
  obtain ⟨i, hi⟩ := List.mem_iff_getElem?.mp he
  obtain ⟨e₀, h₀, hreach⟩ := exists_of_reaches h hi
  exact Engine.of_reaches hstep hreach (hP e₀ (List.mem_of_getElem? h₀))

theorem Develops.length_eq {x? : Option Nat} (h : g.Develops x? t g') :
    g'.engines.length = g.engines.length := by
  cases h with
  | free h => exact length_of_reaches h
  | cancelled h _ hg =>
    have hcancel := length_of_reaches hg
    rw [engines_cancel, List.length_map] at hcancel
    exact hcancel.trans (length_of_reaches h)

/-- **Isolation.** In a group every engine develops as it does alone. -/
theorem Develops.engine {x? : Option Nat} (h : g.Develops x? t g') {i : Nat} {e : Engine}
    (hi : g.engines[i]? = some e) : ∃ e', g'.engines[i]? = some e' ∧ e.Develops x? t e' := by
  cases h with
  | free h =>
    obtain ⟨e', he', hreach⟩ := engine_of_reaches h hi
    exact ⟨e', he', .free hreach⟩
  | cancelled h hb hg =>
    obtain ⟨b, hbi, hreach⟩ := engine_of_reaches h hi
    obtain ⟨e', he', hrest⟩ := engine_of_reaches (i := i) (e := b.cancel) hg (by simp [hbi])
    exact ⟨e', he', .cancelled hreach (hb b (List.mem_of_getElem? hbi)) hrest⟩

/-- When nothing is left to do up to an instant, the engines are those that developed alone. -/
theorem Develops.engines_eq {x? : Option Nat} (h : g.Develops x? t g') (hdone : g'.IsDone t)
    {f : Engine → Engine} (hf : ∀ e ∈ g.engines, e.Develops x? t (f e) ∧ (f e).IsDone t) :
    g'.engines = g.engines.map f := by
  refine List.ext_getElem? fun i => ?_
  rw [List.getElem?_map]
  cases hi : g.engines[i]? with
  | none =>
    have hlength := h.length_eq
    rw [List.getElem?_eq_none_iff] at hi
    rw [Option.map_none, List.getElem?_eq_none_iff]
    omega
  | some e =>
    obtain ⟨e', he', hdevelops⟩ := h.engine hi
    obtain ⟨halone, hend⟩ := hf e (List.mem_of_getElem? hi)
    rw [he', hdevelops.unique halone (hdone e' (List.mem_of_getElem? he')) hend]
    rfl

/-! ### The run of a group -/

/-- The step at an instant is one of the engines that act then. -/
theorem acts_stepAt {t' : Nat} (ht : t' ≤ t) : g.Acts t (g.stepAt t') := by
  refine ⟨_, fun i hi => ?_, stepAt_eq_stepSome g t'⟩
  simp only [Option.any_eq_true, Bool.and_eq_true, Bool.not_eq_true', decide_eq_true_eq] at hi
  obtain ⟨e, he, hgoing, rfl⟩ := hi
  simp [isDue, he, hgoing, ht]

/-- What every step of an engine keeps, a step at an instant keeps for all of a group. -/
theorem forall_stepAt {P : Engine → Prop} (hstep : ∀ e, P e → P e.step)
    (h : ∀ e ∈ g.engines, P e) (t : Nat) : ∀ e ∈ (g.stepAt t).engines, P e := by
  intro e he
  obtain ⟨e', he', rfl⟩ := List.mem_map.mp he
  split
  · exact hstep e' (h e' he')
  · exact h e' he'

/-- The step at the next instant uses up some of the budget. -/
theorem budget_stepAt_lt (h : g.IsPaced) (ht : g.next? = some t) :
    (g.stepAt t).budget < g.budget := by
  have hlt : ∀ e ∈ g.engines, e.isStopped = false →
      (if !e.isStopped && e.now = t then e.step else e).budget ≤ e.budget := by
    intro e he hgoing
    split
    · exact Nat.le_of_lt (Engine.budget_step_lt (h e he) hgoing)
    · exact Nat.le_refl _
  rw [budget_eq_sum, budget_eq_sum, stepAt, List.map_map]
  refine List.sum_lt_sum _ _ (fun e he => ?_) ?_
  · cases hgoing : e.isStopped with
    | true => simp [hgoing]
    | false => exact hlt e he hgoing
  · -- The engine that acts next takes a step.
    obtain ⟨i, e, hi, hgoing, hnow⟩ := exists_of_next? ht
    have he := List.mem_of_getElem? hi
    refine ⟨e, he, ?_⟩
    simpa [hgoing, hnow] using Engine.budget_step_lt (h e he) hgoing

theorem reaches_stepsUntil (t n : Nat) (g : Group) :
    ReflTransGen (Acts t) g (stepsUntil t n g) := by
  induction n generalizing g with
  | zero => exact .refl
  | succ n ih =>
    unfold stepsUntil
    split
    · rename_i t' _
      split
      · exact .refl
      · rename_i hle
        exact .head (acts_stepAt (Nat.not_lt.mp hle)) (ih (g.stepAt t'))
    · exact .refl

/-- An engine of a group that goes on does not act before the next instant. -/
theorem isDone_of_next? (h : ∀ t', g.next? = some t' → t < t') : g.IsDone t := by
  intro e he
  by_cases hstopped : e.isStopped = true
  · exact .inl hstopped
  · have hmem : e.now ∈ g.instants := by
      refine List.mem_filterMap.mpr ⟨e, he, ?_⟩
      rw [if_neg hstopped]
    cases hnext : g.next? with
    | none =>
      rw [next?, List.min?_eq_none_iff] at hnext
      rw [hnext] at hmem
      cases hmem
    | some t' =>
      have hle : t' ≤ e.now := (List.min?_eq_some_iff.mp hnext).2 _ hmem
      exact .inr (Nat.lt_of_lt_of_le (h t' hnext) hle)

theorem isDone_stepsUntil (h : g.IsPaced) {n : Nat} (hn : g.budget ≤ n) :
    (stepsUntil t n g).IsDone t := by
  induction n generalizing g with
  | zero =>
    refine isDone_of_next? fun t' ht' => ?_
    have := budget_stepAt_lt h ht'
    omega
  | succ n ih =>
    unfold stepsUntil
    cases hnext : g.next? with
    | none => exact isDone_of_next? fun t' ht' => by rw [hnext] at ht'; cases ht'
    | some t' =>
      simp only
      split
      · rename_i hlt
        refine isDone_of_next? fun t'' ht'' => ?_
        rw [hnext] at ht''
        cases ht''
        exact hlt
      · have := budget_stepAt_lt h hnext
        exact ih (forall_stepAt (fun _ he => he.step) h t') (by omega)

theorem reaches_steps {bound : Nat} (h : g.EndsBy bound) (n : Nat) :
    ReflTransGen (Acts bound) g (steps n g) := by
  induction n generalizing g with
  | zero => exact .refl
  | succ n ih =>
    unfold steps
    split
    · exact .refl
    · unfold step
      split
      · rename_i t ht
        exact .head (acts_stepAt (h.next?_le ht)) (ih (forall_stepAt (fun _ he => he.step) h t))
      · exact ih h

theorem isStopped_steps (h : g.IsPaced) {n : Nat} (hn : g.budget ≤ n) :
    (steps n g).isStopped = true := by
  induction n generalizing g with
  | zero =>
    cases hnext : g.next? with
    | none => exact isStopped_of_next? hnext
    | some t =>
      have := budget_stepAt_lt h hnext
      omega
  | succ n ih =>
    unfold steps
    split
    · assumption
    · rename_i hgoing
      cases hnext : g.next? with
      | none => exact absurd (isStopped_of_next? hnext) hgoing
      | some t =>
        have hstep : g.step = g.stepAt t := by rw [step, hnext]
        have hlt := budget_stepAt_lt h hnext
        rw [hstep]
        exact ih (forall_stepAt (fun _ he => he.step) h t) (by omega)

/-- The whole run of a paced group. -/
theorem develops_drive {bound : Nat} (h : g.IsPaced) (hb : g.EndsBy bound) (x? : Option Nat) :
    g.Develops x? bound (Standalone.drive g x?) ∧ (Standalone.drive g x?).isStopped = true := by
  cases x? with
  | none => exact ⟨.free (reaches_steps hb _), isStopped_steps h (Nat.le_refl _)⟩
  | some x =>
    have hreach := reaches_stepsUntil x g.budget g
    have hpaced : (g.runUntil x).IsPaced := forall_of_reaches (fun _ he => he.step) hreach h
    have hends : (g.runUntil x).EndsBy bound :=
      forall_of_reaches (P := (·.EndsBy bound)) (fun _ he => he.step) hreach hb
    exact ⟨.cancelled hreach (isDone_stepsUntil h (Nat.le_refl _)) (reaches_steps hends.cancel _),
      isStopped_steps hpaced.cancel (Nat.le_refl _)⟩

/-- Engines that have stopped have nothing left to do. -/
theorem isDone_of_isStopped (h : g.isStopped = true) (t : Nat) : g.IsDone t := by
  rw [isStopped, List.all_eq_true] at h
  exact fun e he => .inl (h e he)

/-- **Whole runs.** The run of a paced group is that of its engines. -/
theorem engines_drive {bound : Nat} (h : g.IsPaced) (hb : g.EndsBy bound) (x? : Option Nat) :
    (Standalone.drive g x?).engines = g.engines.map (·.drive x?) := by
  obtain ⟨hdevelops, hstopped⟩ := develops_drive h hb x?
  refine hdevelops.engines_eq (isDone_of_isStopped hstopped _) fun e he => ?_
  obtain ⟨halone, hend⟩ := Engine.develops_drive (h e he) (hb e he) x?
  exact ⟨halone, .inl hend⟩

/-- Up to any instant a paced group comes to have nothing left to do. -/
theorem exists_develops (h : g.IsPaced) (x? : Option Nat) (t : Nat) :
    ∃ g', g.Develops x? t g' ∧ g'.IsDone t := by
  cases x? with
  | none =>
    exact ⟨g.runUntil t, .free (reaches_stepsUntil t _ g), isDone_stepsUntil h (Nat.le_refl _)⟩
  | some x =>
    have hreach := reaches_stepsUntil x g.budget g
    have hpaced : (g.runUntil x).IsPaced := forall_of_reaches (fun _ he => he.step) hreach h
    exact ⟨(g.runUntil x).cancel.runUntil t,
      .cancelled hreach (isDone_stepsUntil h (Nat.le_refl _)) (reaches_stepsUntil t _ _),
      isDone_stepsUntil hpaced.cancel (Nat.le_refl _)⟩

/-! ### New groups -/

/-- The engine of the connection with the given index, on its own. -/
def lone (cfg : Config) (pool : Pool) (target : Nat → Endpoint → Target) (now i : Nat)
    (client : Client) : Engine :=
  { setup := setup cfg pool target now (now + Clock.seconds cfg.time.toNat) i client, now := now }

section

variable (cfg : Config) (pool : Pool) (target : Nat → Endpoint → Target) (clients : List Client)
  (now : Nat)

theorem getElem?_spawn (i : Nat) : (spawn cfg pool target clients now).engines[i]? =
    clients[i]?.map (lone cfg pool target now i) := by
  rw [spawn, List.getElem?_map, List.getElem?_zipIdx, Option.map_map, Nat.zero_add]
  rfl

/-- How the connections of a new group are isolated from each other, however the group develops. -/
structure IsIsolated : Prop where
  /-- Each connection goes to the endpoint of the pool whose turn it is, and meets the far side that
      is there for it. -/
  connects : ∀ x? t g, (spawn cfg pool target clients now).Develops x? t g →
    ∀ i e, g.engines[i]? = some e →
      pool.endpoints[i % pool.endpoints.length]? = some e.setup.endpoint ∧
        e.setup.target = target i e.setup.endpoint
  /-- There is one engine for each client, which does what it does alone: whenever it has nothing
      left to do, it is in the one state that is possible then. -/
  alone : ∀ x? t g, (spawn cfg pool target clients now).Develops x? t g →
    g.engines.length = clients.length ∧ ∀ i client, clients[i]? = some client →
      ∃ e, g.engines[i]? = some e ∧ (lone cfg pool target now i client).Develops x? t e ∧
        (e.IsDone t → ∀ d, (lone cfg pool target now i client).Develops x? t d → d.IsDone t →
          e = d)
  /-- Whatever other clients there are, and whatever the far sides of the other connections do, makes
      no difference. -/
  indifferent : ∀ target' clients' i client, clients[i]? = some client →
    clients'[i]? = some client → target' i (pool.select i) = target i (pool.select i) →
      ∀ x? t g g', (spawn cfg pool target clients now).Develops x? t g →
        (spawn cfg pool target' clients' now).Develops x? t g' →
          ∀ e e', g.engines[i]? = some e → g'.engines[i]? = some e' → e.IsDone t →
            e'.IsDone t → e = e'
  /-- The report is the one over the counters that the engines have alone: each of its counters is
      the sum of theirs, as a word. -/
  report : ∀ x? t g, (spawn cfg pool target clients now).Develops x? t g → g.IsDone t →
    ∀ ds : List Engine, ds.length = clients.length →
      (∀ i client d, clients[i]? = some client → ds[i]? = some d →
        (lone cfg pool target now i client).Develops x? t d ∧ d.IsDone t) →
        ∀ completed, g.report completed = Report.ofStats (ds.map (·.stat)) completed ∧
          (g.report completed).requests.toNat =
            (ds.map (·.stat.requests.toNat)).sum % 2 ^ 64 ∧
          (g.report completed).bytes.toNat = (ds.map (·.stat.bytes.toNat)).sum % 2 ^ 64 ∧
          (g.report completed).errors.toNat = (ds.map (·.stat.errors.toNat)).sum % 2 ^ 64
  /-- If the transactions can be counted, the group comes to have nothing left to do up to any
      instant. -/
  total : cfg.check = .ok () → cfg.rate.toNat * cfg.time.toNat < Text.wordMax →
    ∀ x? t, ∃ g, (spawn cfg pool target clients now).Develops x? t g ∧ g.IsDone t
  /-- Then its whole run is that of the engines alone. -/
  whole : cfg.check = .ok () → cfg.rate.toNat * cfg.time.toNat < Text.wordMax →
    ∀ x?, (Standalone.drive (spawn cfg pool target clients now) x?).engines =
      clients.zipIdx.map fun (client, i) => (lone cfg pool target now i client).drive x?

end

/-- What becomes of a connection of a new group. -/
theorem Develops.lone {cfg : Config} {pool : Pool} {target : Nat → Endpoint → Target}
    {clients : List Client} {now : Nat} {x? : Option Nat}
    (h : (spawn cfg pool target clients now).Develops x? t g) {i : Nat} {client : Client}
    (hi : clients[i]? = some client) :
    ∃ e, g.engines[i]? = some e ∧ (lone cfg pool target now i client).Develops x? t e := by
  refine h.engine ?_
  rw [getElem?_spawn, hi, Option.map_some]

theorem length_spawn (cfg : Config) (pool : Pool) (target : Nat → Endpoint → Target)
    (clients : List Client) (now : Nat) :
    (spawn cfg pool target clients now).engines.length = clients.length := by
  simp [spawn]

/-- **Isolation of connections.** Whatever the configuration, the endpoints, the clients and the far
    sides are, the connections of a new group are isolated from each other. -/
theorem isIsolated_spawn (cfg : Config) (pool : Pool) (target : Nat → Endpoint → Target)
    (clients : List Client) (now : Nat) : IsIsolated cfg pool target clients now where
  connects x? t g h i e hi := by
    have hlt : i < clients.length := by
      rw [← length_spawn cfg pool target clients now, ← h.length_eq]
      exact (List.getElem?_eq_some_iff.mp hi).1
    obtain ⟨e', he', hdevelops⟩ := h.lone (List.getElem?_eq_getElem hlt)
    obtain rfl := Option.some.inj (hi.symm.trans he')
    rw [hdevelops.setup_eq]
    exact ⟨List.getElem?_eq_getElem (Nat.mod_lt i pool.size_pos), rfl⟩
  alone x? t g h := by
    refine ⟨h.length_eq.trans (length_spawn ..), fun i client hi => ?_⟩
    obtain ⟨e, he, hdevelops⟩ := h.lone hi
    exact ⟨e, he, hdevelops, fun hdone d hd hdone' => hdevelops.unique hd hdone hdone'⟩
  indifferent target' clients' i client hi hi' htarget x? t g g' h h' e e' he he' hdone hdone' := by
    obtain ⟨d, hd, hdevelops⟩ := h.lone hi
    obtain ⟨d', hd', hdevelops'⟩ := h'.lone hi'
    obtain rfl := Option.some.inj (he.symm.trans hd)
    obtain rfl := Option.some.inj (he'.symm.trans hd')
    -- Alone the two connections are the same.
    have hsame : lone cfg pool target' now i client = lone cfg pool target now i client := by
      rw [Group.lone, setup, htarget]
      rfl
    rw [hsame] at hdevelops'
    exact hdevelops.unique hdevelops' hdone hdone'
  report x? t g h hdone ds hlength hds completed := by
    have hengines : g.engines = ds := by
      refine List.ext_getElem? fun i => ?_
      cases hi : clients[i]? with
      | none =>
        have hlen := h.length_eq.trans (length_spawn cfg pool target clients now)
        rw [List.getElem?_eq_none_iff] at hi
        rw [List.getElem?_eq_none (by omega), List.getElem?_eq_none (by omega)]
      | some client =>
        obtain ⟨e, he, hdevelops⟩ := h.lone hi
        have hlt : i < ds.length := hlength ▸ (List.getElem?_eq_some_iff.mp hi).1
        obtain ⟨halone, hend⟩ := hds i client _ hi (List.getElem?_eq_getElem hlt)
        rw [he, List.getElem?_eq_getElem hlt,
          hdevelops.unique halone (hdone e (List.mem_of_getElem? he)) hend]
    have hreport : g.report completed = Report.ofStats (ds.map (·.stat)) completed := by
      rw [Group.report, stats, hengines]
    have hsums := Report.toNat_ofStats (ds.map (·.stat)) completed
    simp only [List.map_map, Function.comp_def] at hsums
    rw [hreport]
    exact ⟨rfl, hsums⟩
  total hcheck hwords x? t :=
    exists_develops
      (isPaced_spawn (Config.check_eq_ok_iff.mp hcheck) hwords pool target clients now) x? t
  whole hcheck hwords x? := by
    have hpaced := isPaced_spawn (Config.check_eq_ok_iff.mp hcheck) hwords pool target clients now
    rw [engines_drive hpaced (endsBy_spawn cfg pool target clients now), spawn, List.map_map]
    rfl

/-! ### Two connections -/

/-- Two connections with two transactions each. -/
def twoConnections : Config := { twoRequests with connections := 2 }

/-- Two endpoints, one for each connection. -/
def twoEndpoints : Pool := ⟨[⟨"a", 1⟩, ⟨"b", 1⟩], by simp⟩

/-- Clients that always have something to send. -/
def twoClients : List Client := [fun _ => .ok [1, 2, 3], fun _ => .ok [1, 2, 3]]

/-- The first connection is never established, and to the second one everything is accepted. -/
def oneBroken : Nat → Endpoint → Target := fun i _ =>
  if i = 0 then ⟨.never, fun _ => .never⟩ else .ideal

/-- The run of the two connections. -/
def twoDriven (target : Nat → Endpoint → Target) : Group :=
  Standalone.drive (spawn twoConnections twoEndpoints target twoClients 0) none

/-- The run of one of the two connections alone. -/
def oneDriven (i : Nat) : Engine :=
  (lone twoConnections twoEndpoints oneBroken 0 i fun _ => .ok [1, 2, 3]).drive none

/-- Both connections end within the second of the run and the ten that a send may take. -/
theorem develops_twoDriven (target : Nat → Endpoint → Target) :
    (spawn twoConnections twoEndpoints target twoClients 0).Develops none (Clock.seconds 11)
      (twoDriven target) ∧ (twoDriven target).IsDone (Clock.seconds 11) := by
  have hpaced := @isPaced_spawn twoConnections (Config.check_eq_ok_iff.mp rfl) (by decide)
    twoEndpoints target twoClients 0
  have hends := endsBy_spawn twoConnections twoEndpoints target twoClients 0
  obtain ⟨h, hstopped⟩ := develops_drive hpaced hends none
  exact ⟨h, isDone_of_isStopped hstopped _⟩

/-- The first connection fails. The second one sends all of its transactions, as it does alone and
    beside one that does not fail. The report has what both have counted. -/
theorem isIsolated_spawn_oneBroken :
    (oneDriven 0).exit? = some (.failed (.timeout 10000000000)) ∧
      (oneDriven 1).exit? = some .elapsed ∧ (oneDriven 1).sent.length = 2 ∧
      (twoDriven oneBroken).engines = [oneDriven 0, oneDriven 1] ∧
      (twoDriven oneBroken).engines[1]? = (twoDriven fun _ _ => .ideal).engines[1]? ∧
      ((twoDriven oneBroken).report true).requests.toNat =
        (oneDriven 0).stat.requests.toNat + (oneDriven 1).stat.requests.toNat := by
  have h := isIsolated_spawn twoConnections twoEndpoints oneBroken twoClients 0
  obtain ⟨hdevelops, hdone⟩ := develops_twoDriven oneBroken
  have hengines : (twoDriven oneBroken).engines = [oneDriven 0, oneDriven 1] :=
    h.whole rfl (by decide) none
  have hsame : (twoDriven oneBroken).engines[1]? = (twoDriven fun _ _ => .ideal).engines[1]? := by
    obtain ⟨hideal, hdone'⟩ := develops_twoDriven fun _ _ => .ideal
    obtain ⟨e, he, -⟩ := hdevelops.lone (i := 1) rfl
    obtain ⟨e', he', -⟩ := hideal.lone (i := 1) rfl
    rw [he, he', h.indifferent (fun _ _ => .ideal) twoClients 1 _ rfl rfl rfl none _ _ _
      hdevelops hideal e e' he he' (hdone e (List.mem_of_getElem? he))
      (hdone' e' (List.mem_of_getElem? he'))]
  have hsum := (h.report none _ _ hdevelops hdone [oneDriven 0, oneDriven 1] rfl
    (fun i client d hi hd => by
      obtain ⟨e, he, halone⟩ := hdevelops.lone hi
      rw [← hengines] at hd
      obtain rfl := Option.some.inj (he.symm.trans hd)
      exact ⟨halone, hdone e (List.mem_of_getElem? he)⟩) true).2.1
  have hwords : ([oneDriven 0, oneDriven 1].map (·.stat.requests.toNat)).sum = 2 := by
    decide +kernel
  refine ⟨by decide +kernel, by decide +kernel, by decide +kernel, hengines, hsame, ?_⟩
  rw [hsum, hwords]
  simpa using hwords.symm

end Group

end TxLoad
