import TxLoad.Proofs.Engine.Cancelling
import TxLoad.Proofs.Engine.Isolation
import TxLoad.Proofs.Engine.Stopping

namespace TxLoad

/-!
# What a cancellation leaves of a run

The request to stop may come at any instant, while an engine connects, is parked, or waits for a
send. It is no interruption: what has been begun is awaited, and what comes of it counts. But
nothing new is begun, so that the engine is done when this one wait is over.

* `Engine.Expects`: what an engine is about to learn is what the far side answers in time.
* `Engine.Evolves.add_stepsLeft_le`: a cancelled engine takes three more steps at most.
* `Engine.Evolves.eq_wound`: what it comes to does not depend on anything that happens later.
* `Engine.Heeds`: how an engine heeds the cancellation, with its sends, its counters and its exit.
* `Group.heeds_spawn`: the engines of a group heed a cancellation at any instant.
-/

open Relation (ReflTransGen)

namespace Engine

variable {b e : Engine} {n t x ms : Nat}

/-! ### Attempts -/

/-- `e.Awaits a`: the connect or the send `a` is in flight. -/
inductive Awaits (e : Engine) : Awaited (Except ConnectionError Unit) → Prop
  | connecting (hphase : e.phase = .connecting) : e.Awaits e.setup.target.connect
  | opening {outcome : Except ConnectionError Unit} (hphase : e.phase = .opening outcome) :
      e.Awaits e.setup.target.connect
  | sending {p : Pacer} {size : Nat} {outcome : Except ConnectionError Unit} {payload : Payload}
      (hphase : e.phase = .sending p size outcome)
      (hclient : e.setup.client p.consumed = .ok payload) :
      e.Awaits (e.setup.target.send ⟨p.consumed, payload, e.setup.mode⟩)

/-- What an engine is about to learn is what the far side answers within the timeout, and a send
    that it waits for is the last one of its log. -/
def Expects (e : Engine) : Prop :=
  match e.phase with
  | .opening outcome => (bounded e.setup e.setup.target.connect).2 = outcome
  | .sending p size outcome => ∃ payload begun rest,
      e.setup.client p.consumed = .ok payload ∧ size = payload.length ∧
      begun + (bounded e.setup (e.setup.target.send ⟨p.consumed, payload, e.setup.mode⟩)).1 =
        e.now ∧
      (bounded e.setup (e.setup.target.send ⟨p.consumed, payload, e.setup.mode⟩)).2 = outcome ∧
      e.sent = ⟨begun, e.now, size, outcome.isOk⟩ :: rest
  | _ => True

theorem expects_stop (e : Engine) (exit : Exit) : (e.stop exit).Expects := trivial

/-- Only the phases that wait for something expect it. -/
theorem expects_of_looping {p : Pacer} (hphase : e.phase = .looping p) : e.Expects := by
  rw [Expects, hphase]
  trivial

/-- **Step lemma.** What a step begins is expected until it is over. -/
theorem Expects.step (h : e.Expects) : e.step.Expects := by
  unfold Engine.step
  split
  · exact rfl
  · exact expects_stop _ _
  · exact expects_of_looping rfl
  · rename_i p hphase
    have hlook := looks_look e p
    generalize e.look p = d at hlook
    cases hlook with
    | cancelled | elapsed | counted | refused => exact expects_stop _ _
    | parked => exact expects_of_looping hphase
    | @submitted _ _ _ _ payload hclient =>
      exact ⟨payload, e.now, e.sent, hclient, rfl, rfl, rfl, rfl⟩
  · exact expects_stop _ _
  · exact expects_of_looping rfl
  · exact h

theorem Expects.cancel (h : e.Expects) : e.cancel.Expects := h

/-! ### Up to the cancellation -/

/-- **Run lemma.** An engine that acts at the instant `x` at the latest keeps up with its own
    actions. -/
theorem KeepsUp.of_reaches (hreach : ReflTransGen (Acts x) e b) (h : ∃ t ≤ x, e.KeepsUp t ms) :
    ∃ t ≤ x, b.KeepsUp t ms := by
  induction hreach with
  | refl => exact h
  | tail _ hacts ih =>
    obtain ⟨hgoing, hnow, rfl⟩ := hacts
    obtain ⟨t, -, hkeeps⟩ := ih
    -- The clock moves on to the instant of the action.
    have hlater := hkeeps.later (hkeeps.ahead hgoing) fun _ => Nat.le_refl _
    exact ⟨_, hnow, hlater.step hgoing (Nat.le_refl _)⟩

/-! ### After the cancellation -/

theorem cancelled_step (e : Engine) : e.step.cancelled = e.cancelled := by
  unfold Engine.step
  split
  · rfl
  · rfl
  · rfl
  · rename_i p _
    have hlook := looks_look e p
    generalize e.look p = d at hlook
    cases hlook <;> rfl
  · rfl
  · rfl
  · rfl

/-- A second request to stop says nothing new. -/
theorem cancel_of_cancelled (h : e.cancelled = true) : e.cancel = e := by
  rw [cancel, ← h]

/-- The steps that a cancelled engine takes at most. -/
def stepsLeft (e : Engine) : Nat :=
  match e.phase with
  | .connecting => 3
  | .opening _ | .sending _ _ _ => 2
  | .looping _ => 1
  | .stopped _ => 0

theorem stepsLeft_step_le (hcancelled : e.cancelled = true) :
    e.step.stepsLeft ≤ e.stepsLeft - 1 := by
  rcases e with ⟨setup, now, phase, cancelled, stat, sent⟩
  obtain rfl : cancelled = true := hcancelled
  cases phase with
  | connecting => exact Nat.le_refl 2
  | opening outcome =>
    cases outcome with
    | error error => exact Nat.zero_le _
    | ok u => exact Nat.le_refl 1
  | looping p => exact Nat.le_refl 0
  | sending p size outcome =>
    cases outcome with
    | error error => exact Nat.zero_le _
    | ok u => exact Nat.le_refl 1
  | stopped exit => exact Nat.le_refl 0

theorem stepsLeft_le (e : Engine) : e.stepsLeft ≤ 3 := by
  unfold stepsLeft
  split <;> decide

theorem isStopped_iff_stepsLeft (e : Engine) : e.isStopped = true ↔ e.stepsLeft = 0 := by
  unfold isStopped stepsLeft
  cases e.phase <;> simp

/-- The engine after a cancellation and the steps that are left then. -/
def wound (e : Engine) : Engine := e.cancel.step.step.step

theorem isStopped_wound (e : Engine) : e.wound.isStopped = true := by
  have hcancelled : ∀ {d : Engine}, d.cancelled = true → d.step.cancelled = true :=
    fun {d} hd => (cancelled_step d).trans hd
  have hfirst : e.cancel.cancelled = true := rfl
  have h₀ := stepsLeft_le e.cancel
  have h₁ := stepsLeft_step_le hfirst
  have h₂ := stepsLeft_step_le (hcancelled hfirst)
  have h₃ := stepsLeft_step_le (hcancelled (hcancelled hfirst))
  rw [isStopped_iff_stepsLeft, wound]
  omega

theorem wound_step (hcancelled : e.cancelled = true) : e.step.wound = e.wound := by
  have hstep : e.step.cancelled = true := (cancelled_step e).trans hcancelled
  calc e.step.wound
      = e.step.step.step.step := by rw [wound, cancel_of_cancelled hstep]
    _ = e.wound.step := by rw [wound, cancel_of_cancelled hcancelled]
    _ = e.wound := step_of_isStopped (isStopped_wound e)

/-- Whatever becomes of a cancelled engine, it comes to the same. -/
theorem Evolves.winds (h : b.cancel.Evolves n e) : e.cancelled = true ∧ e.wound = b.wound := by
  induction h with
  | start => exact ⟨rfl, rfl⟩
  | step _ _ ih => exact ⟨(cancelled_step _).trans ih.1, (wound_step ih.1).trans ih.2⟩
  | cancel _ ih => rwa [cancel_of_cancelled ih.1]

theorem Evolves.eq_wound (h : b.cancel.Evolves n e) (hstopped : e.isStopped = true) :
    e = b.wound := by
  obtain ⟨hcancelled, hwound⟩ := h.winds
  have hrest : e.step = e := step_of_isStopped hstopped
  rw [← hwound, wound, cancel_of_cancelled hcancelled, hrest, hrest, hrest]

/-- A cancelled engine takes three steps at most. -/
theorem Evolves.add_stepsLeft_le (h : b.cancel.Evolves n e) : n + e.stepsLeft ≤ b.stepsLeft := by
  induction h with
  | start => exact Nat.le_of_eq (Nat.zero_add _)
  | @step n e h hgoing ih =>
    have hle := stepsLeft_step_le h.winds.1
    have hleft : e.stepsLeft ≠ 0 := mt (isStopped_iff_stepsLeft e).mpr (by simp [hgoing])
    omega
  | cancel _ ih => exact ih

theorem isStopped_steps_of_cancelled (hcancelled : e.cancelled = true) (hn : e.stepsLeft ≤ n) :
    (steps n e).isStopped = true := by
  induction n generalizing e with
  | zero => exact (isStopped_iff_stepsLeft e).mpr (Nat.le_zero.mp hn)
  | succ n ih =>
    unfold steps
    split
    · assumption
    · have hle := stepsLeft_step_le hcancelled
      exact ih ((cancelled_step e).trans hcancelled) (by omega)

/-- Nothing is submitted any more, and what is awaited is over in time. -/
theorem Evolves.windsDown (h : b.cancel.Evolves n e) (hb : b.cancel.WindsDown t ms) :
    e.WindsDown t ms ∧ e.sent = b.sent := by
  induction h with
  | start => exact ⟨hb, rfl⟩
  | step _ _ ih => exact ⟨ih.1.step, ih.1.sent_step.trans ih.2⟩
  | cancel _ ih => exact ⟨⟨rfl, ih.1.timeout_le, ih.1.near, ih.1.connecting⟩, ih.2⟩

/-! ### What is left -/

/-- The exit of a cancelled engine that has waited for this outcome. -/
def exitAfter : Except ConnectionError Unit → Exit
  | .error error => .failed error
  | .ok () => .cancelled

theorem phase_wound_opening {outcome : Except ConnectionError Unit}
    (hphase : b.phase = .opening outcome) : b.wound.phase = .stopped (exitAfter outcome) := by
  rcases b with ⟨setup, now, phase, cancelled, stat, sent⟩
  obtain rfl : phase = .opening outcome := hphase
  cases outcome <;> rfl

theorem phase_wound_connecting (hphase : b.phase = .connecting) :
    b.wound.phase = .stopped (exitAfter (bounded b.setup b.setup.target.connect).2) := by
  have hwound : b.wound = b.cancel.step.wound := (wound_step (e := b.cancel) rfl).symm
  rw [hwound]
  refine phase_wound_opening ?_
  rw [step, show b.cancel.phase = .connecting from hphase]
  rfl

theorem wound_looping {p : Pacer} (hphase : b.phase = .looping p) :
    b.wound = b.cancel.stop .cancelled := by
  rcases b with ⟨setup, now, phase, cancelled, stat, sent⟩
  obtain rfl : phase = .looping p := hphase
  rfl

theorem wound_stopped {exit : Exit} (hphase : b.phase = .stopped exit) : b.wound = b.cancel := by
  rcases b with ⟨setup, now, phase, cancelled, stat, sent⟩
  obtain rfl : phase = .stopped exit := hphase
  rfl

/-- What a cancelled engine shows of the send that it has waited for. -/
theorem wound_sending {p : Pacer} {size : Nat} {outcome : Except ConnectionError Unit}
    (hphase : b.phase = .sending p size outcome) :
    b.wound.phase = .stopped (exitAfter outcome) ∧ b.wound.now = b.now ∧
      b.wound.stat.requests = b.stat.requests + (if outcome.isOk then 1 else 0) ∧
      b.wound.stat.bytes = b.stat.bytes + (if outcome.isOk then UInt64.ofNat size else 0) := by
  rcases b with ⟨setup, now, phase, cancelled, stat, sent⟩
  obtain rfl : phase = .sending p size outcome := hphase
  cases outcome with
  | error error => exact ⟨rfl, rfl, (UInt64.add_zero _).symm, (UInt64.add_zero _).symm⟩
  | ok u => exact ⟨rfl, rfl, rfl, rfl⟩

/-- The exit of an engine that is cancelled as `b`. -/
inductive ExitsWith (b : Engine) : Exit → Prop
  /-- It had stopped. -/
  | stopped {exit : Exit} (hphase : b.phase = .stopped exit) : b.ExitsWith exit
  /-- The connect or the send in flight fails. -/
  | failed {a : Awaited (Except ConnectionError Unit)} {error : ConnectionError}
      (hawaits : b.Awaits a) (herror : (bounded b.setup a).2 = .error error) :
      b.ExitsWith (.failed error)
  /-- It goes on, and nothing in flight fails. -/
  | cancelled (hgoing : b.isStopped = false)
      (hok : ∀ a, b.Awaits a → (bounded b.setup a).2 = .ok ()) : b.ExitsWith .cancelled

/-- Waiting for one outcome, the engine exits by it. -/
theorem exitsWith_exitAfter {a : Awaited (Except ConnectionError Unit)}
    {outcome : Except ConnectionError Unit} (ha : b.Awaits a) (hgoing : b.isStopped = false)
    (houtcome : ∀ a, b.Awaits a → (bounded b.setup a).2 = outcome) :
    b.ExitsWith (exitAfter outcome) := by
  cases outcome with
  | error error => exact .failed ha (houtcome a ha)
  | ok u => exact .cancelled hgoing houtcome

/-- An engine waits for one thing at a time, and it expects what comes of it. -/
theorem Expects.bounded_eq (h : b.Expects) {a : Awaited (Except ConnectionError Unit)}
    (ha : b.Awaits a) : match b.phase with
      | .connecting => a = b.setup.target.connect
      | .opening outcome | .sending _ _ outcome => (bounded b.setup a).2 = outcome
      | _ => False := by
  cases ha with
  | connecting hphase => rw [hphase]
  | opening hphase =>
    rw [Expects, hphase] at h
    rw [hphase]
    exact h
  | sending hphase hclient =>
    rw [Expects, hphase] at h
    obtain ⟨payload, begun, rest, hpayload, -, -, houtcome, -⟩ := h
    obtain rfl := Except.ok.inj (hclient.symm.trans hpayload)
    rw [hphase]
    exact houtcome

theorem Expects.exitsWith (h : b.Expects) {exit : Exit} (hexit : b.wound.phase = .stopped exit) :
    b.ExitsWith exit := by
  have hone : ∀ a, b.Awaits a → _ := fun a ha => h.bounded_eq ha
  -- In each phase the exit is fixed by the one thing that is awaited, if there is any.
  cases hphase : b.phase with
  | connecting =>
    simp only [hphase] at hone
    rw [phase_wound_connecting hphase] at hexit
    cases hexit
    refine exitsWith_exitAfter (.connecting hphase) (by rw [isStopped, hphase]) fun a ha => ?_
    rw [hone a ha]
  | opening outcome =>
    simp only [hphase] at hone
    rw [phase_wound_opening hphase] at hexit
    cases hexit
    exact exitsWith_exitAfter (.opening hphase) (by rw [isStopped, hphase]) hone
  | looping p =>
    simp only [hphase] at hone
    rw [wound_looping hphase] at hexit
    cases hexit
    exact .cancelled (by rw [isStopped, hphase]) fun a ha => (hone a ha).elim
  | sending p size outcome =>
    simp only [hphase] at hone
    rw [(wound_sending hphase).1] at hexit
    cases hexit
    rw [Expects, hphase] at h
    obtain ⟨payload, _, _, hclient, -⟩ := h
    exact exitsWith_exitAfter (.sending hphase hclient) (by rw [isStopped, hphase]) hone
  | stopped exit =>
    rw [wound_stopped hphase, show b.cancel.phase = b.phase from rfl, hphase] at hexit
    cases hexit
    exact .stopped hphase

/-- The send `s` is in flight at the instant `x`: it is the last one that the engine has submitted,
    and its outcome is there when the far side answers or the timeout is over. -/
structure InFlight (b : Engine) (x : Nat) (s : Sent) : Prop where
  last : b.sent.head? = some s
  submitted_le : s.submitted ≤ x
  le_settled : x ≤ s.settled
  awaits : ∃ a, b.Awaits a ∧ s.settled = s.submitted + (bounded b.setup a).1 ∧
    (s.accepted = true ↔ ∃ delay ≤ b.setup.timeoutMs, a = .after delay (.ok ()))

/-- How an engine that is cancelled at the instant `x`, as `b`, heeds the cancellation, whatever
    becomes of it afterwards: it is done at most `ms` later. -/
structure Heeds (b : Engine) (x ms : Nat) : Prop where
  /-- No send is submitted afterwards. -/
  sent_eq : ∀ n e, b.cancel.Evolves n e → e.sent = b.sent
  submitted_le : ∀ s ∈ b.sent, s.submitted ≤ x
  /-- A send in flight is awaited, and it counts exactly if it is accepted. -/
  awaited : ∀ p size outcome, b.phase = .sending p size outcome → ∃ s, b.InFlight x s ∧
    ∀ n e, b.cancel.Evolves n e → e.isStopped = true →
      e.stat.finished = some (Clock.nanos s.settled) ∧
      e.stat.requests = b.stat.requests + (if s.accepted then 1 else 0) ∧
      e.stat.bytes = b.stat.bytes + (if s.accepted then UInt64.ofNat s.size else 0)
  /-- It stops, and takes at most three steps until then. -/
  stops : ∃ n e, b.cancel.Evolves n e ∧ e.isStopped = true
  steps_le : ∀ n e, b.cancel.Evolves n e → n ≤ 3
  /-- It does not act later than the instant `x + ms`. -/
  now_le : ∀ n e, b.cancel.Evolves n e → e.now ≤ x + ms
  finished_eq : ∀ n e, b.cancel.Evolves n e → e.isStopped = true →
    e.stat.finished = some (Clock.nanos e.now)
  exits : ∀ n e exit, b.cancel.Evolves n e → e.phase = .stopped exit → b.ExitsWith exit

theorem Expects.inFlight (h : b.Expects) (hup : b.KeepsUp x ms) {p : Pacer} {size : Nat}
    {outcome : Except ConnectionError Unit} (hphase : b.phase = .sending p size outcome) :
    ∃ s, b.InFlight x s ∧ s.settled = b.now ∧ s.size = size ∧ s.accepted = outcome.isOk := by
  have hgoing : b.isStopped = false := by rw [isStopped, hphase]
  rw [Expects, hphase] at h
  obtain ⟨payload, begun, rest, hclient, -, hsettled, houtcome, hsent⟩ := h
  have hmem : ⟨begun, b.now, size, outcome.isOk⟩ ∈ b.sent := hsent ▸ List.mem_cons_self
  refine ⟨_, ⟨congrArg List.head? hsent, hup.submitted _ hmem, hup.ahead hgoing, _,
    .sending hphase hclient, hsettled.symm, ?_⟩, rfl, rfl, rfl⟩
  rw [← houtcome]
  exact isOk_eq_true_iff.trans bounded_eq_ok_iff

/-- **An engine heeds its cancellation**, whatever it is about at that instant. -/
theorem heeds_of_keepsUp (hkeeps : b.Keeps) (hexpects : b.Expects) (hup : b.KeepsUp x ms) :
    b.Heeds x ms where
  sent_eq n e h := (h.windsDown hup.windsDown).2
  submitted_le := hup.submitted
  awaited p size outcome hphase := by
    obtain ⟨s, hflight, hsettled, hsize, haccepted⟩ := hexpects.inFlight hup hphase
    obtain ⟨-, hnow, hrequests, hbytes⟩ := wound_sending hphase
    refine ⟨s, hflight, fun n e h hstopped => ?_⟩
    have hfinished := (hkeeps.cancel.evolves h).finished_eq hstopped
    obtain rfl := h.eq_wound hstopped
    rw [hsettled, haccepted, hsize, ← hnow]
    exact ⟨hfinished, hrequests, hbytes⟩
  stops := by
    obtain ⟨n, h⟩ := (@Evolves.start b.cancel).steps 3
    exact ⟨n, _, h, isStopped_steps_of_cancelled rfl (stepsLeft_le _)⟩
  steps_le n e h := by
    have hleft := h.add_stepsLeft_le
    have hmost := stepsLeft_le b
    omega
  now_le n e h := (h.windsDown hup.windsDown).1.near
  finished_eq n e h hstopped := (hkeeps.cancel.evolves h).finished_eq hstopped
  exits n e exit h hexit := by
    have hstopped : e.isStopped = true := by rw [isStopped, hexit]
    obtain rfl := h.eq_wound hstopped
    exact hexpects.exitsWith hexit

end Engine

namespace Group

variable {g : Group} {x : Nat}

/-- The group has come to the instant `x`: no engine has anything left to do before it. What the
    engines do at the instant itself may be done or not. -/
def HasReached (g : Group) (x : Nat) : Prop := ∀ e ∈ g.engines, e.isStopped = false → x ≤ e.now

/-- A group with nothing left to do up to an instant has come to it. -/
theorem IsDone.hasReached (h : g.IsDone x) : g.HasReached x := by
  intro e he hgoing
  rcases h e he with hstopped | hlt
  · rw [hgoing] at hstopped
    cases hstopped
  · exact Nat.le_of_lt hlt

/-- **Cancellation.** Let the configuration be valid, and let a word hold the number of its requests.
    Then whatever the clients and the far sides do, a group comes to every instant that is not
    before its start; and whenever it is cancelled there, each of its engines heeds this. Nothing is
    submitted later. The one connect or send in flight is awaited, and a send counts exactly if it is
    accepted in time. The engine stops when the longest park or the timeout is over, and it stops as
    cancelled, unless it had stopped before or what was in flight fails. -/
theorem heeds_spawn {cfg : Config} (hvalid : cfg.check = .ok ())
    (hwords : cfg.rate.toNat * cfg.time.toNat < Text.wordMax) (pool : Pool)
    (target : Nat → Endpoint → Target) (clients : List Client) {now x : Nat} (hx : now ≤ x) :
    (∃ g, ReflTransGen (Acts x) (spawn cfg pool target clients now) g ∧ g.HasReached x) ∧
    ∀ g, ReflTransGen (Acts x) (spawn cfg pool target clients now) g → g.HasReached x →
      ∀ (i : Nat) (b : Engine), g.engines[i]? = some b →
        b.Heeds x (max Engine.maxParkMs (Clock.seconds cfg.sendTimeout.toNat)) ∧
        ∀ calls g', g.cancel.Reaches calls g' →
          ∃ n e, g'.engines[i]? = some e ∧ b.cancel.Evolves n e := by
  have hpaced := isPaced_spawn (Config.check_eq_ok_iff.mp hvalid) hwords pool target clients now
  refine ⟨⟨_, reaches_stepsUntil x _ _,
    (isDone_stepsUntil hpaced (Nat.le_refl _)).hasReached⟩, fun g hreach hx' i b hi => ?_⟩
  refine ⟨?_, fun calls g' h => h.evolves (by simp [hi])⟩
  obtain ⟨e, he, hacts⟩ := exists_of_reaches hreach hi
  have hmem := List.mem_of_getElem? he
  have hup := keepsUp_spawn cfg pool target clients now e hmem
  obtain ⟨⟨client, j⟩, -, rfl⟩ := List.mem_map.mp hmem
  obtain ⟨t, ht, hkeeps⟩ := Engine.KeepsUp.of_reaches hacts ⟨now, hx, hup⟩
  refine Engine.heeds_of_keepsUp ?_ ?_ (hkeeps.later ht (hx' b (List.mem_of_getElem? hi)))
  · exact Engine.of_reaches (fun _ he => he.step) hacts (Engine.keeps_fresh _ _)
  · exact Engine.of_reaches (P := Engine.Expects) (fun _ he => he.step) hacts trivial

/-- A group with a far side that takes a while to accept a send. -/
def slow : Group :=
  spawn twoRequests ⟨[default], by simp⟩
    (fun _ _ => ⟨.now (.ok ()), fun _ => .after 300 (.ok ())⟩) [fun _ => .ok []] 0

/-- Its engine is cancelled while it waits for the first send, and still counts it. -/
theorem heeds_spawn_slow :
    ∃ g, ReflTransGen (Acts 100) slow g ∧ g.HasReached 100 ∧
      (∀ (i : Nat) (b : Engine), g.engines[i]? = some b → b.Heeds 100 10000) ∧
      g.engines.map (fun b => (b.wound.exit?, b.wound.stat.requests, b.wound.stat.finished)) =
        [(some .cancelled, 1, some (Clock.nanos 300))] := by
  have hreach : ReflTransGen (Acts 100) slow (slow.runUntil 100) := reaches_stepsUntil 100 _ slow
  have hreached : (slow.runUntil 100).HasReached 100 := by
    unfold HasReached
    decide +kernel
  have hms : max Engine.maxParkMs (Clock.seconds twoRequests.sendTimeout.toNat) = 10000 := by
    decide +kernel
  refine ⟨_, hreach, hreached, fun i b hi => ?_, by decide +kernel⟩
  have hheeds := (@heeds_spawn twoRequests (by decide) (by decide) _ _ _ 0 100 (by decide)).2 _
    hreach hreached i b hi
  rw [hms] at hheeds
  exact hheeds.1

end Group

end TxLoad
