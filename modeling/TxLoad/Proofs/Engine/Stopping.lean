import TxLoad.Proofs.Engine.Accounting
import TxLoad.Proofs.Engine.Asking
import TxLoad.Proofs.Engine.Ending

namespace TxLoad

/-!
# Engines stop in time

Nothing in the pacing loop counts its turns. It goes on by the clock, or by a send that may take no
time at all, so that it could turn forever at one instant. It does not: only so many requests are
due at an instant, and while none is due the instant to which the engine sleeps lies ahead.

* `Engine.IsPaced.lt_wakeAt`: that instant lies ahead because pacer and clock agree on what is due.
* `Engine.Moves`: a turn of the loop stops the engine, moves the clock or makes a send.
* `Engine.Evolves.add_budget_le`: all steps are paid for by the budget, whatever the far side does.
* `Group.Reaches.evolves`: every engine of a group evolves as it does alone.
* `Group.stops_spawn`: the engines of a group stop in time.
-/

namespace Engine

variable {e₀ e : Engine} {n : Nat} {p : Pacer}

/-! ### Turns of the loop -/

/-- **No sleep is empty.** While nothing is due before the deadline, the instant to which the engine
    sleeps lies ahead. -/
theorem IsPaced.lt_wakeAt (h : e.IsPaced) (hphase : e.phase = .looping p)
    (hdeadline : e.now < e.setup.deadline) (hdue : p.due (Clock.nanos e.now) = 0) :
    Clock.nanos e.now < e.wakeAt p := by
  simp only [IsPaced, hphase] at h
  obtain ⟨-, hstarted, hexact⟩ := h
  have hend : Clock.nanos e.now ≤ Clock.nanos e.setup.deadline :=
    Clock.nanos_le_nanos (Nat.le_of_lt hdeadline)
  have hnext : Clock.nanos e.now < p.nextDue :=
    (Pacer.due_eq_zero_iff hexact hstarted hend).mp hdue
  exact Engine.lt_wakeAt hnext hdeadline

/-- What a turn of the loop brings about. -/
inductive Moves (e : Engine) (p : Pacer) : Prop
  | stops (hstopped : e.step.isStopped = true)
  /-- The engine sleeps until the first millisecond that is not before the instant of waking. -/
  | sleeps (hphase : e.step.phase = .looping p) (hwake : e.step.now = Clock.ceilMs (e.wakeAt p))
    (hahead : e.now < e.step.now)
  /-- The engine sends, and the next step completes the send or stops the engine. -/
  | sends {size : Nat} {outcome : Except ConnectionError Unit}
    (hphase : e.step.phase = .sending p size outcome)
    (hdone : e.step.step.phase = .looping (p.consume 1) ∨ e.step.step.isStopped = true)

/-- What comes of a send. -/
theorem completes_of_sending {size : Nat} {outcome : Except ConnectionError Unit}
    (hphase : e.phase = .sending p size outcome) :
    e.step.phase = .looping (p.consume 1) ∨ e.step.isStopped = true := by
  rw [Engine.step, hphase]
  cases outcome with
  | error error => exact .inr rfl
  | ok u => exact .inl rfl

/-- **No turn is empty.** -/
theorem IsPaced.moves (h : e.IsPaced) (hphase : e.phase = .looping p) : e.Moves p := by
  have hstep : e.step = e.look p := by rw [Engine.step, hphase]
  have hlook := looks_look e p
  rw [← hstep] at hlook
  generalize hd : e.step = d at hlook
  cases hlook with
  | cancelled | elapsed | counted | refused => exact .stops (hd ▸ rfl)
  | parked hgoing hdeadline hlimit hdue =>
    have hwake := h.lt_wakeAt hphase hdeadline hdue
    have hahead : e.now < Clock.ceilMs (e.wakeAt p) := (Clock.lt_ceilMs_iff ..).mpr hwake
    have hnow : e.step.now = Clock.ceilMs (e.wakeAt p) := by
      rw [hd]
      exact (parkUntil_eq e p).trans (Nat.max_eq_right (Nat.le_of_lt hahead))
    exact .sleeps (hd ▸ hphase) hnow (hnow ▸ hahead)
  | @submitted hgoing hdeadline hlimit hdue payload hclient =>
    have hsending : e.step.phase = (e.submit p payload).phase := congrArg phase hd
    exact .sends hsending (completes_of_sending hsending)

/-! ### Developments of a paced engine -/

theorem Evolves.isPaced (h : e₀.Evolves n e) (hpaced : e₀.IsPaced) : e.IsPaced :=
  h.keeps (fun _ he => he.step) (fun _ he => he) hpaced

theorem Evolves.endsBy {bound : Nat} (h : e₀.Evolves n e) (hends : e₀.EndsBy bound) :
    e.EndsBy bound :=
  h.keeps (P := (·.EndsBy bound)) (fun _ he => he.step) (fun _ he => he.cancel) hends

/-- Every step is paid for by the budget, and a cancellation costs nothing. -/
theorem Evolves.add_budget_le (h : e₀.Evolves n e) (hpaced : e₀.IsPaced) :
    n + e.budget ≤ e₀.budget := by
  induction h with
  | start => exact Nat.le_of_eq (Nat.zero_add _)
  | step h hgoing ih =>
    have hlt := budget_step_lt (h.isPaced hpaced) hgoing
    omega
  | cancel h ih => exact ih

/-- An engine that has stopped has noted when. -/
theorem Keeps.finished_eq (h : e.Keeps) (hstopped : e.isStopped = true) :
    e.stat.finished = some (Clock.nanos e.now) := by
  have hfits := h.fits
  unfold isStopped at hstopped
  split at hstopped
  · rename_i hp
    rw [hp] at hfits
    cases hfits with
    | stopped hstat => exact hstat.finished
  · cases hstopped

/-! ### Stopping -/

/-- What it means for an engine to stop within so many steps and by the instant `bound`, whatever
    becomes of it. -/
structure Stops (e₀ : Engine) (steps bound : Nat) : Prop where
  steps_le : ∀ n e, e₀.Evolves n e → n ≤ steps
  /-- At every moment the rest of its run leaves it stopped. -/
  isStopped_run : ∀ n e, e₀.Evolves n e → e.run.isStopped = true
  finished_le : ∀ n e, e₀.Evolves n e → e.isStopped = true →
    ∃ t ≤ Clock.nanos bound, e.stat.finished = some t
  /-- Whenever nothing is due before the deadline, the instant to which it sleeps lies ahead. -/
  lt_wakeAt : ∀ n e p, e₀.Evolves n e → e.phase = .looping p → e.now < e.setup.deadline →
    p.due (Clock.nanos e.now) = 0 → Clock.nanos e.now < e.wakeAt p
  moves : ∀ n e p, e₀.Evolves n e → e.phase = .looping p → e.Moves p

theorem stops_of_isPaced {setup : EngineSetup} {now bound : Nat}
    (hpaced : IsPaced { setup, now }) (hends : EndsBy { setup, now } bound) :
    Stops { setup, now } (budget { setup, now }) bound where
  steps_le _ _ h := Nat.le_trans (Nat.le_add_right ..) (h.add_budget_le hpaced)
  isStopped_run _ _ h := Engine.isStopped_run (h.isPaced hpaced)
  finished_le n e h hstopped := by
    have hkeeps := (keeps_fresh setup now).evolves h
    exact ⟨_, Clock.nanos_le_nanos (h.endsBy hends).now_le, hkeeps.finished_eq hstopped⟩
  lt_wakeAt _ _ _ h hphase hdeadline hdue :=
    (h.isPaced hpaced).lt_wakeAt hphase hdeadline hdue
  moves _ _ _ h hphase := (h.isPaced hpaced).moves hphase

end Engine

namespace Group

variable {g₀ g : Group}

/-- In a group, every engine evolves. -/
theorem Reaches.evolves {calls : Nat → Nat} (h : g₀.Reaches calls g) {i : Nat} {e₀ : Engine}
    (hi : g₀.engines[i]? = some e₀) : ∃ n e, g.engines[i]? = some e ∧ e₀.Evolves n e := by
  induction h with
  | start => exact ⟨0, e₀, hi, .start⟩
  | @step calls g h which ih =>
    obtain ⟨n, e, he, hevolves⟩ := ih
    by_cases hwhich : which i = true
    · have hstep : (g.stepSome which).engines[i]? = some e.step := by
        simp [stepSome, he, hwhich]
      by_cases hgoing : e.isStopped = true
      · exact ⟨n, e, by rw [hstep, Engine.step_of_isStopped hgoing], hevolves⟩
      · exact ⟨n + 1, e.step, hstep, hevolves.step (by simpa using hgoing)⟩
    · exact ⟨n, e, by simp [stepSome, he, hwhich], hevolves⟩
  | cancel h ih =>
    obtain ⟨n, e, he, hevolves⟩ := ih
    exact ⟨n, e.cancel, by simp [he], hevolves.cancel⟩

theorem Reaches.length_eq {calls : Nat → Nat} (h : g₀.Reaches calls g) :
    g.engines.length = g₀.engines.length := by
  induction h with
  | start => rfl
  | step h which ih => simp [stepSome, ih]
  | cancel h ih => simp [ih]

/-- Every engine that is in the group has evolved from the one that was in its place. -/
theorem Reaches.exists_evolves {calls : Nat → Nat} (h : g₀.Reaches calls g) {i : Nat} {e : Engine}
    (hi : g.engines[i]? = some e) : ∃ n e₀, g₀.engines[i]? = some e₀ ∧ e₀.Evolves n e := by
  have hlt : i < g₀.engines.length := by
    rw [← h.length_eq]
    exact (List.getElem?_eq_some_iff.mp hi).1
  obtain ⟨n, d, hd, hevolves⟩ := h.evolves (List.getElem?_eq_getElem hlt)
  obtain rfl := Option.some.inj (hi.symm.trans hd)
  exact ⟨n, _, List.getElem?_eq_getElem hlt, hevolves⟩

/-- The steps that an engine of the configuration can take: one for the connect and one for what
    comes of it, two for every request, one for every millisecond and one to stop. -/
def maxSteps (cfg : Config) : Nat :=
  2 * (cfg.rate.toNat * cfg.time.toNat + 1) + Clock.seconds cfg.time.toNat + 3

theorem budget_spawn (cfg : Config) (pool : Pool) (target : Nat → Endpoint → Target) (now i : Nat)
    (client : Client) :
    let deadline := now + Clock.seconds cfg.time.toNat
    Engine.budget { setup := setup cfg pool target now deadline i client, now := now } =
      maxSteps cfg := by
  intro deadline
  have hspan : Clock.nanos (now + Clock.seconds cfg.time.toNat) - Clock.nanos now =
      cfg.time.toNat * Pacer.secondNs := by
    unfold Clock.nanos Clock.seconds Pacer.secondNs
    omega
  have hrequests : cfg.time.toNat * Pacer.secondNs * cfg.rate.toNat / Pacer.secondNs =
      cfg.rate.toNat * cfg.time.toNat := by
    rw [Nat.mul_right_comm, Nat.mul_div_cancel _ Pacer.secondNs_pos, Nat.mul_comm]
  simp only [Engine.budget, setup, deadline, hspan, hrequests, maxSteps]
  omega

/-- **Engines stop in time.** Let the configuration be valid, and let a word hold the number of its
    requests. Then whatever the clients and the far sides do, in whichever order the engines act and
    whenever they are cancelled: each engine of a group takes finitely many steps, and stops by the
    end of the configured time and one timeout more. -/
theorem stops_spawn {cfg : Config} (hvalid : cfg.check = .ok ())
    (hwords : cfg.rate.toNat * cfg.time.toNat < Text.wordMax) (pool : Pool)
    (target : Nat → Endpoint → Target) (clients : List Client) (now i : Nat) (e₀ : Engine)
    (hi : (spawn cfg pool target clients now).engines[i]? = some e₀) :
    e₀.Stops (maxSteps cfg)
        (now + Clock.seconds cfg.time.toNat + Clock.seconds cfg.sendTimeout.toNat) ∧
      ∀ calls g, (spawn cfg pool target clients now).Reaches calls g →
        ∃ n e, g.engines[i]? = some e ∧ e₀.Evolves n e := by
  refine ⟨?_, fun calls g h => h.evolves hi⟩
  have hmem := List.mem_of_getElem? hi
  have hpaced :=
    isPaced_spawn (Config.check_eq_ok_iff.mp hvalid) hwords pool target clients now e₀ hmem
  have hends := endsBy_spawn cfg pool target clients now e₀ hmem
  obtain ⟨⟨client, j⟩, -, rfl⟩ := List.mem_map.mp hmem
  rw [← budget_spawn]
  exact Engine.stops_of_isPaced hpaced hends

/-- A far side that lets everyone connect and never answers a send. -/
def mute : Target := ⟨.now (.ok ()), fun _ => .never⟩

/-- An engine that sends to it stops when its timeout is over. -/
theorem stops_spawn_mute :
    ∃ e₀,
      (spawn twoRequests ⟨[default], by simp⟩ (fun _ _ => mute) [fun _ => .ok []] 0).engines[0]? =
        some e₀ ∧
      e₀.Stops 1009 11000 ∧ e₀.run.stat.finished = some (Clock.nanos 10000) ∧
      e₀.run.exit? = some (.failed (.timeout 10000000000)) :=
  ⟨_, rfl,
    (@stops_spawn twoRequests (by decide) (by decide) ⟨[default], by simp⟩ (fun _ _ => mute)
      [fun _ => .ok []] 0 0 _ rfl).1,
    by decide +kernel, by decide +kernel⟩

end Group

end TxLoad
