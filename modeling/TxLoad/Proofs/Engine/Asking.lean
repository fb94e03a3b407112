import TxLoad.Engine.Group
import TxLoad.Proofs.Client.Capacity
import TxLoad.Proofs.Engine.Pacing

namespace TxLoad

/-!
# What engines ask of their clients

An engine calls its client once for each transaction that it sends, also for one whose send fails.
The first transaction is due at once, but the last instant before the deadline is a millisecond
short of the configured time, so that no connection asks for more transactions than its
configuration allows it.

* `Engine.asks?` is the call that the next step makes, and `Engine.step_withClient` says that a step
  knows of its client nothing else.
* `Group.Reaches`: how a group develops while its engines act in any order and are cancelled at any
  moment, and how often each of them has called its client.
* `Engine.consumed_lt_maxTransactions`: a transaction that is due before the deadline is within the
  bound of the configuration.
* `Group.calls_le_maxTransactions`: no connection exceeds the bound, and no client is ever exhausted.
-/

namespace Engine

/-! ### Calls -/

/-- The number with which the next step calls the client, if it does. -/
def asks? (e : Engine) : Option Nat :=
  match e.phase with
  | .looping p =>
    if e.cancelled = true ∨ e.setup.deadline ≤ e.now ∨ e.setup.limit.any (· ≤ p.consumed) = true ∨
        p.due (Clock.nanos e.now) = 0 then none
    else some p.consumed
  | _ => none

/-- How often the next step calls the client. -/
def asks (e : Engine) : Nat := if e.asks?.isSome then 1 else 0

/-- The engine with another client. -/
def withClient (e : Engine) (client : Client) : Engine :=
  { e with setup := { e.setup with client := client } }

@[simp] theorem now_withClient (e : Engine) (client : Client) :
    (e.withClient client).now = e.now := rfl

@[simp] theorem sent_withClient (e : Engine) (client : Client) :
    (e.withClient client).sent = e.sent := rfl

/-- The calls are those that `asks?` names: a step is the same with any client that answers this one
    call as the engine's own. -/
theorem step_withClient (e : Engine) (client : Client)
    (h : ∀ n, e.asks? = some n → client n = e.setup.client n) :
    (e.withClient client).step = e.step.withClient client := by
  rcases e with ⟨setup, now, phase, cancelled, stat, sent⟩
  cases phase with
  | connecting => rfl
  | opening outcome => cases outcome <;> rfl
  | sending p size outcome => cases outcome <;> rfl
  | stopped exit => rfl
  | looping p =>
    show look _ p = (look _ p).withClient client
    by_cases hask : cancelled = true ∨ setup.deadline ≤ now ∨
        setup.limit.any (· ≤ p.consumed) = true ∨ p.due (Clock.nanos now) = 0
    · unfold look withClient
      rcases hask with hask | hask | hask | hask
      all_goals split_ifs <;> rfl
    · have hcall := h p.consumed (if_neg hask)
      obtain ⟨hgoing, hdeadline, hlimit, hdue⟩ := by simpa only [not_or] using hask
      unfold look withClient
      simp only [if_neg hgoing, if_neg hdeadline, if_neg hlimit, if_neg hdue, hcall]
      cases setup.client p.consumed <;> rfl

/-! ### Errors -/

/-- The errors that an engine may learn of without a call to its client: that a wait was cut off, and
    those of the far side. -/
inductive Arises (s : EngineSetup) : ConnectionError → Prop
  | timeout : Arises s (timeoutError s)
  | connect {delay : Nat} {error : ConnectionError}
      (h : s.target.connect = .after delay (.error error)) : Arises s error
  | send {submission : Submission} {delay : Nat} {error : ConnectionError}
      (h : s.target.send submission = .after delay (.error error)) : Arises s error

/-- The error of a bounded wait is that of the time limit or of what was awaited. -/
theorem bounded_eq_error {s : EngineSetup} {a : Awaited (Except ConnectionError Unit)}
    {error : ConnectionError} (h : (bounded s a).2 = .error error) :
    error = timeoutError s ∨ ∃ delay, a = .after delay (.error error) := by
  cases hwithin : (a.within s.timeoutMs).2 with
  | none =>
    have : (bounded s a).2 = .error (timeoutError s) := by simp [bounded, hwithin]
    rw [this] at h
    cases h
    exact .inl rfl
  | some outcome =>
    have : (bounded s a).2 = outcome := by simp [bounded, hwithin]
    rw [this] at h
    obtain ⟨delay, -, ha⟩ := (Awaited.within_snd_eq_some_iff _ _ _).mp hwithin
    exact .inr ⟨delay, by rw [ha, h]⟩

theorem arises_of_connect {s : EngineSetup} {error : ConnectionError}
    (h : (bounded s s.target.connect).2 = .error error) : Arises s error := by
  rcases bounded_eq_error h with rfl | ⟨delay, hconnect⟩
  · exact .timeout
  · exact .connect hconnect

theorem arises_of_send {s : EngineSetup} {submission : Submission} {error : ConnectionError}
    (h : (bounded s (s.target.send submission)).2 = .error error) : Arises s error := by
  rcases bounded_eq_error h with rfl | ⟨delay, hsend⟩
  · exact .timeout
  · exact .send hsend

/-! ### The calls of one engine -/

/-- What the number of calls says about what the engine is about to do. -/
inductive CallsFit (s : EngineSetup) (calls : Nat) : EnginePhase → Prop
  | connecting (hcalls : calls = 0) : CallsFit s calls .connecting
  | opening {outcome : Except ConnectionError Unit} (hcalls : calls = 0)
      (herror : ∀ error, outcome = .error error → Arises s error) :
      CallsFit s calls (.opening outcome)
  | looping {p : Pacer} (hcalls : calls = p.consumed) (hrate : p.rate = s.rate)
      (hstarted : Clock.nanos s.spawned ≤ p.started) : CallsFit s calls (.looping p)
  | sending {p : Pacer} {size : Nat} {outcome : Except ConnectionError Unit}
      (hcalls : calls = p.consumed + 1) (hrate : p.rate = s.rate)
      (hstarted : Clock.nanos s.spawned ≤ p.started)
      (herror : ∀ error, outcome = .error error → Arises s error) :
      CallsFit s calls (.sending p size outcome)
  | stopped {exit : Exit} (herror : ∀ error, exit = .failed error → Arises s error) :
      CallsFit s calls (.stopped exit)

/-- An engine with the setup `s` that has called its client so often, and within the bound. -/
structure Called (s : EngineSetup) (bound calls : Nat) (e : Engine) : Prop where
  setup : e.setup = s
  now : s.spawned ≤ e.now
  bound : calls ≤ bound
  phase : CallsFit s calls e.phase

/-- What makes a setup keep within a bound: a transaction that is due before the deadline and that
    the count allows has a number below it, and the client answers such a call. -/
structure KeepsWithin (s : EngineSetup) (bound : Nat) : Prop where
  consumed_lt : ∀ (p : Pacer) (now : Nat), p.rate = s.rate → Clock.nanos s.spawned ≤ p.started →
    now < s.deadline → s.limit.any (· ≤ p.consumed) = false → p.due (Clock.nanos now) ≠ 0 →
    p.consumed < bound
  client : ∀ n < bound, ∃ payload, s.client n = .ok payload

variable {s : EngineSetup} {bound calls : Nat} {e : Engine}

/-- An engine that has just been started has made no call. -/
theorem called_fresh (s : EngineSetup) (bound : Nat) :
    Called s bound 0 { setup := s, now := s.spawned } :=
  ⟨rfl, Nat.le_refl _, Nat.zero_le _, .connecting rfl⟩

theorem Called.cancel (h : Called s bound calls e) : Called s bound calls e.cancel :=
  ⟨h.setup, h.now, h.bound, h.phase⟩

/-- The next call bears the number of the calls so far, it is within the bound, and it is
    answered. -/
theorem Called.call (hs : KeepsWithin s bound) (h : Called s bound calls e) {n : Nat}
    (hn : e.asks? = some n) : n = calls ∧ n < bound ∧ ∃ payload, s.client n = .ok payload := by
  obtain ⟨hsetup, -, -, hphase⟩ := h
  unfold asks? at hn
  cases hp : e.phase with
  | connecting | opening | sending | stopped => simp [hp] at hn
  | looping p =>
    rw [hp] at hphase
    cases hphase with
    | looping hcalls hrate hstarted =>
      simp only [hp, hsetup] at hn
      split at hn
      · cases hn
      · rename_i hask
        obtain ⟨-, hdeadline, hlimit, hdue⟩ := by simpa only [not_or] using hask
        cases hn
        have hlt := hs.consumed_lt p e.now hrate hstarted (Nat.not_le.mp hdeadline)
          (by simpa using hlimit) hdue
        exact ⟨hcalls.symm, hlt, hs.client _ hlt⟩

theorem asks?_eq_some {p : Pacer} (hphase : e.phase = .looping p) (hgoing : e.cancelled = false)
    (hdeadline : e.now < e.setup.deadline) (hlimit : e.setup.limit.any (· ≤ p.consumed) = false)
    (hdue : p.due (Clock.nanos e.now) ≠ 0) : e.asks? = some p.consumed := by
  simp [asks?, hphase, hgoing, Nat.not_le.mpr hdeadline, hlimit, hdue]

theorem asks_eq_zero (h : e.asks? = none) : e.asks = 0 := by
  simp [asks, h]

theorem asks_eq_one {n : Nat} (h : e.asks? = some n) : e.asks = 1 := by
  simp [asks, h]

theorem Called.stop (h : Called s bound calls e) {exit : Exit}
    (herror : ∀ error, exit = .failed error → Arises s error) :
    Called s bound calls (e.stop exit) :=
  ⟨h.setup, h.now, h.bound, .stopped herror⟩

theorem Called.look (hs : KeepsWithin s bound) (h : Called s bound calls e) {p : Pacer}
    (hp : e.phase = .looping p) : Called s bound (calls + e.asks) (e.look p) := by
  have hphase := h.phase
  rw [hp] at hphase
  cases hphase with
  | looping hcalls hrate hstarted =>
    have hlook := looks_look e p
    generalize e.look p = d at hlook
    cases hlook with
    | cancelled hcancelled =>
      have hnone : e.asks? = none := by simp [asks?, hp, hcancelled]
      rw [asks_eq_zero hnone]
      exact h.stop fun _ herror => by cases herror
    | elapsed hgoing hdeadline =>
      have hnone : e.asks? = none := by simp [asks?, hp, hdeadline]
      rw [asks_eq_zero hnone]
      exact h.stop fun _ herror => by cases herror
    | counted hgoing hdeadline hlimit =>
      have hnone : e.asks? = none := by simp [asks?, hp, hlimit]
      rw [asks_eq_zero hnone]
      exact h.stop fun _ herror => by cases herror
    | parked hgoing hdeadline hlimit hdue =>
      have hnone : e.asks? = none := by simp [asks?, hp, hdue]
      rw [asks_eq_zero hnone]
      exact ⟨h.setup, Nat.le_trans h.now (le_parkUntil e p), h.bound,
        hp ▸ .looping hcalls hrate hstarted⟩
    | refused hgoing hdeadline hlimit hdue hclient =>
      -- The client answers this call, which is within the bound.
      obtain ⟨-, -, payload, hpayload⟩ := h.call hs (asks?_eq_some hp hgoing hdeadline hlimit hdue)
      rw [h.setup, hpayload] at hclient
      cases hclient
    | submitted hgoing hdeadline hlimit hdue hclient =>
      have hsome := asks?_eq_some hp hgoing hdeadline hlimit hdue
      obtain ⟨hn, hlt, -⟩ := h.call hs hsome
      rw [asks_eq_one hsome]
      refine ⟨h.setup, Nat.le_trans h.now (Nat.le_add_right _ _), by omega, ?_⟩
      refine .sending (by omega) hrate hstarted fun error herror => ?_
      rw [h.setup] at herror
      exact arises_of_send herror

/-- **Step lemma.** A step keeps the calls within the bound, its own one included. -/
theorem Called.step (hs : KeepsWithin s bound) (h : Called s bound calls e) :
    Called s bound (calls + e.asks) e.step := by
  have hphase := h.phase
  unfold Engine.step
  cases hp : e.phase with
  | looping p => exact h.look hs hp
  | connecting =>
    have hnone : e.asks? = none := by simp [asks?, hp]
    rw [hp] at hphase
    rw [asks_eq_zero hnone]
    cases hphase with
    | connecting hcalls =>
      refine ⟨h.setup, Nat.le_trans h.now (Nat.le_add_right _ _), h.bound, ?_⟩
      refine .opening hcalls fun error herror => ?_
      rw [h.setup] at herror
      exact arises_of_connect herror
  | opening outcome =>
    have hnone : e.asks? = none := by simp [asks?, hp]
    rw [hp] at hphase
    rw [asks_eq_zero hnone]
    cases hphase with
    | opening hcalls herror =>
      cases outcome with
      | error error => exact h.stop fun _ hfailed => by cases hfailed; exact herror _ rfl
      | ok u =>
        refine ⟨h.setup, h.now, h.bound, .looping hcalls ?_ (Clock.nanos_le_nanos h.now)⟩
        rw [← h.setup]
        rfl
  | sending p size outcome =>
    have hnone : e.asks? = none := by simp [asks?, hp]
    rw [hp] at hphase
    rw [asks_eq_zero hnone]
    cases hphase with
    | sending hcalls hrate hstarted herror =>
      cases outcome with
      | error error => exact h.stop fun _ hfailed => by cases hfailed; exact herror _ rfl
      | ok u => exact ⟨h.setup, h.now, h.bound, .looping hcalls hrate hstarted⟩
  | stopped exit =>
    have hnone : e.asks? = none := by simp [asks?, hp]
    rw [asks_eq_zero hnone]
    exact h

/-- However many steps an engine takes, it does not notice that it has got another client, as long as
    this one answers all calls within the bound as its own. -/
theorem Called.steps_withClient (hs : KeepsWithin s bound) (h : Called s bound calls e)
    {client : Client} (hclient : ∀ n < bound, client n = s.client n) (n : Nat) :
    steps n (e.withClient client) = (steps n e).withClient client := by
  induction n generalizing e calls with
  | zero => rfl
  | succ n ih =>
    have hstep : (e.withClient client).step = e.step.withClient client := by
      apply e.step_withClient client
      intro n hn
      rw [h.setup]
      exact hclient n (h.call hs hn).2.1
    have hstopped : (e.withClient client).isStopped = e.isStopped := rfl
    unfold steps
    rw [hstopped, hstep]
    split
    · rfl
    · exact ih (h.step hs)

theorem Called.run_withClient (hs : KeepsWithin s bound) (h : Called s bound calls e)
    {client : Client} (hclient : ∀ n < bound, client n = s.client n) :
    (e.withClient client).run = e.run.withClient client :=
  h.steps_withClient hs hclient _

/-- The error of an engine that failed is never one of its client, unless the far side itself
    answers so. -/
theorem Called.arises (h : Called s bound calls e) {error : ConnectionError}
    (hexit : e.exit? = some (.failed error)) : Arises s error := by
  obtain ⟨-, -, -, hphase⟩ := h
  unfold exit? at hexit
  cases hp : e.phase with
  | connecting | opening | looping | sending => simp [hp] at hexit
  | stopped exit =>
    rw [hp] at hphase hexit
    cases hexit
    cases hphase with
    | stopped herror => exact herror error rfl

/-- **A transaction that is due is within the bound.** The first one is due at once, but before the
    deadline at least a millisecond is missing from the configured time. -/
theorem consumed_lt_maxTransactions {cfg : Config} (hvalid : cfg.IsValid) {p : Pacer}
    {spawned now : Nat} (hrate : p.rate = cfg.rate.toNat)
    (hstarted : Clock.nanos spawned ≤ p.started)
    (hdeadline : now < spawned + Clock.seconds cfg.time.toNat)
    (hlimit : (cfg.count.map UInt64.toNat).any (· ≤ p.consumed) = false)
    (hdue : p.due (Clock.nanos now) ≠ 0) : p.consumed < cfg.maxTransactions := by
  unfold Config.maxTransactions
  cases hcount : cfg.count with
  | some count =>
    rw [hcount] at hlimit
    simpa using hlimit
  | none =>
    have helapsed : Clock.nanos now - p.started < cfg.time.toNat * Pacer.secondNs := by
      have htime := hvalid.time_pos
      unfold Clock.nanos at hstarted ⊢
      unfold Clock.seconds at hdeadline
      unfold Pacer.secondNs
      omega
    have hrequests : (Clock.nanos now - p.started) * p.rate <
        cfg.rate.toNat * cfg.time.toNat * Pacer.secondNs := by
      rw [hrate, Nat.mul_assoc, Nat.mul_comm (cfg.rate.toNat)]
      exact Nat.mul_lt_mul_of_pos_right helapsed hvalid.rate_pos
    have hquotient := (Nat.div_lt_iff_lt_mul Pacer.secondNs_pos).mpr hrequests
    calc p.consumed
        < p.total (Clock.nanos now) := Nat.lt_of_sub_ne_zero hdue
      _ ≤ p.exactTotal (Clock.nanos now) := p.total_le_exactTotal _
      _ = min ((Clock.nanos now - p.started) * p.rate / Pacer.secondNs + 1) Text.wordMax :=
          Nat.min_comm _ _
      _ ≤ min (cfg.rate.toNat * cfg.time.toNat) Text.wordMax :=
          min_le_min_right _ hquotient

end Engine

namespace Group

/-! ### Groups -/

/-- Some of the engines take their step. -/
def stepSome (g : Group) (which : Nat → Bool) : Group :=
  ⟨g.engines.mapIdx fun i e => if which i then e.step else e⟩

/-- How often the next step of the i-th engine calls its client. -/
def asks (g : Group) (i : Nat) : Nat := (g.engines[i]?.map Engine.asks).getD 0

/-- `g₀.Reaches calls g`: the group `g₀` becomes `g` while its engines act and are cancelled at any
    moment, and meanwhile the i-th engine calls its client `calls i` times. -/
inductive Reaches (g₀ : Group) : (Nat → Nat) → Group → Prop
  | start : Reaches g₀ (fun _ => 0) g₀
  | step {calls : Nat → Nat} {g : Group} (h : Reaches g₀ calls g) (which : Nat → Bool) :
      Reaches g₀ (fun i => calls i + if which i then g.asks i else 0) (g.stepSome which)
  | cancel {calls : Nat → Nat} {g : Group} (h : Reaches g₀ calls g) : Reaches g₀ calls g.cancel

variable {g₀ g : Group}

theorem stepEngine_eq_stepSome (g : Group) (i : Nat) : g.stepEngine i = g.stepSome (· == i) := by
  unfold stepEngine stepSome
  congr 1
  apply List.ext_getElem?
  intro j
  rw [List.getElem?_modify, List.getElem?_mapIdx]
  by_cases hij : i = j
  · simp [hij]
  · simp [hij, Ne.symm hij]

theorem stepAt_eq_stepSome (g : Group) (t : Nat) : g.stepAt t =
    g.stepSome fun i => g.engines[i]?.any fun e => !e.isStopped && e.now = t := by
  unfold stepAt stepSome
  congr 1
  apply List.ext_getElem?
  intro i
  rw [List.getElem?_map, List.getElem?_mapIdx]
  cases hi : g.engines[i]? <;> simp [hi]

/-- A single engine takes its step. -/
theorem Reaches.stepEngine {calls : Nat → Nat} (h : g₀.Reaches calls g) (i : Nat) :
    ∃ calls, g₀.Reaches calls (g.stepEngine i) :=
  ⟨_, stepEngine_eq_stepSome g i ▸ h.step _⟩

theorem Reaches.stepAt {calls : Nat → Nat} (h : g₀.Reaches calls g) (t : Nat) :
    ∃ calls, g₀.Reaches calls (g.stepAt t) :=
  ⟨_, stepAt_eq_stepSome g t ▸ h.step _⟩

/-- A whole run is made of such steps. -/
theorem Reaches.steps {calls : Nat → Nat} (h : g₀.Reaches calls g) (n : Nat) :
    ∃ calls, g₀.Reaches calls (Group.steps n g) := by
  induction n generalizing g calls with
  | zero => exact ⟨_, h⟩
  | succ n ih =>
    unfold Group.steps
    split
    · exact ⟨_, h⟩
    · unfold Group.step
      split
      · obtain ⟨_, h⟩ := h.stepAt ‹Nat›
        exact ih h
      · exact ih h

theorem Reaches.run {calls : Nat → Nat} (h : g₀.Reaches calls g) :
    ∃ calls, g₀.Reaches calls g.run := h.steps _

/-- So is a run up to an instant. -/
theorem Reaches.runUntil {calls : Nat → Nat} (h : g₀.Reaches calls g) (t : Nat) :
    ∃ calls, g₀.Reaches calls (g.runUntil t) := by
  unfold Group.runUntil
  generalize g.budget = n
  induction n generalizing g calls with
  | zero => exact ⟨_, h⟩
  | succ n ih =>
    unfold Group.stepsUntil
    split
    · split
      · exact ⟨_, h⟩
      · obtain ⟨_, h⟩ := h.stepAt ‹Nat›
        exact ih h
    · exact ⟨_, h⟩

/-! ### The bound of a configuration -/

/-- The setups of a group keep within the bound of its configuration. -/
theorem keepsWithin_setup {cfg : Config} (hvalid : cfg.IsValid) (pool : Pool)
    (target : Nat → Endpoint → Target) (spawned i : Nat) {noise : Noise} {client : Client}
    (hclient : KeyValue.factory.client cfg noise = .ok client) :
    Engine.KeepsWithin
      (setup cfg pool target spawned (spawned + Clock.seconds cfg.time.toNat) i client)
      cfg.maxTransactions where
  consumed_lt _ _ hrate hstarted hdeadline hlimit hdue :=
    Engine.consumed_lt_maxTransactions hvalid hrate hstarted hdeadline hlimit hdue
  client _ hn := KeyValue.client_eq_ok hclient hn

/-- Each engine of a group keeps within the bound of the configuration, however the group has
    developed. -/
theorem Reaches.called {cfg : Config} {pool : Pool} {target : Nat → Endpoint → Target}
    {clients : List Client} {now : Nat} (hvalid : cfg.IsValid)
    (hclients : ∀ client ∈ clients, ∃ noise, KeyValue.factory.client cfg noise = .ok client)
    {calls : Nat → Nat} (h : (spawn cfg pool target clients now).Reaches calls g) (i : Nat) :
    (g.engines[i]? = none ∧ calls i = 0) ∨
      ∃ s e, g.engines[i]? = some e ∧ Engine.KeepsWithin s cfg.maxTransactions ∧
        Engine.Called s cfg.maxTransactions (calls i) e := by
  induction h with
  | start =>
    cases hi : clients[i]? with
    | none =>
      refine .inl ⟨?_, rfl⟩
      simp [spawn, hi]
    | some client =>
      obtain ⟨noise, hclient⟩ := hclients client (List.mem_of_getElem? hi)
      refine .inr ⟨_, _, ?_, keepsWithin_setup hvalid pool target now i hclient,
        Engine.called_fresh _ _⟩
      simp [spawn, hi, setup]
  | step h which ih =>
    rename_i calls g
    rcases ih with ⟨hnone, hcalls⟩ | ⟨s, e, hi, hs, he⟩
    · exact .inl ⟨by simp [stepSome, hnone], by simp [asks, hnone, hcalls]⟩
    · have hasks : g.asks i = e.asks := by simp [asks, hi]
      by_cases hwhich : which i = true
      · refine .inr ⟨s, e.step, by simp [stepSome, hi, hwhich], hs, ?_⟩
        simp only [hasks, if_pos hwhich]
        exact he.step hs
      · refine .inr ⟨s, e, by simp [stepSome, hi, hwhich], hs, ?_⟩
        simp only [if_neg hwhich]
        exact he
  | cancel h ih =>
    rcases ih with ⟨hnone, hcalls⟩ | ⟨s, e, hi, hs, he⟩
    · exact .inl ⟨by simp [hnone], hcalls⟩
    · exact .inr ⟨s, e.cancel, by simp [hi], hs, he.cancel⟩

/-- **No connection exceeds its bound.** For a configuration that is accepted, its factory makes the
    clients; and whatever the far side does, in whichever order the engines of the group act and
    whenever they are cancelled, each of them has called its client at most as often as the
    configuration allows a connection. The next call is within the bound as well and is answered;
    and no engine fails by its client, unless the far side itself answers with such an error. -/
theorem calls_le_maxTransactions {cfg : Config} (hvalid : cfg.check = .ok ())
    (hcheck : KeyValue.check cfg = .ok ()) (noises : List Noise) :
    ∃ clients, noises.mapM (KeyValue.factory.client cfg) = .ok clients ∧
      ∀ (pool : Pool) (target : Nat → Endpoint → Target) (now : Nat) (calls : Nat → Nat) (g : Group),
        (spawn cfg pool target clients now).Reaches calls g → ∀ i,
          calls i ≤ cfg.maxTransactions ∧
          ∀ e, g.engines[i]? = some e →
            (∀ n, e.asks? = some n → n = calls i ∧ n < cfg.maxTransactions ∧
              ∃ payload, e.setup.client n = .ok payload) ∧
            ∀ error, e.exit? = some (.failed (.client error)) →
              (∃ delay, e.setup.target.connect = .after delay (.error (.client error))) ∨
              ∃ submission delay,
                e.setup.target.send submission = .after delay (.error (.client error)) := by
  obtain ⟨clients, hclients⟩ := KeyValue.exists_clients hcheck noises
  refine ⟨clients, hclients, fun pool target now calls g h i => ?_⟩
  rcases h.called (Config.check_eq_ok_iff.mp hvalid) (KeyValue.exists_noise hclients) i with
    ⟨hnone, hcalls⟩ | ⟨s, e, hi, hs, he⟩
  · exact ⟨hcalls ▸ Nat.zero_le _, fun e hi => by rw [hnone] at hi; cases hi⟩
  · refine ⟨he.bound, fun e' hi' => ?_⟩
    obtain rfl : e = e' := Option.some.inj (hi.symm.trans hi')
    have hsetup := he.setup
    refine ⟨fun n hn => ?_, fun error hexit => ?_⟩
    · rw [hsetup]
      exact he.call hs hn
    · rw [hsetup]
      cases he.arises hexit with
      | connect h => exact .inl ⟨_, h⟩
      | send h => exact .inr ⟨_, _, h⟩

/-- A configuration with a single connection that sends two transactions in a second. -/
def twoRequests : Config where
  clientFactory := KeyValue.factoryName
  connections := 1
  time := 1
  rate := 2
  size := 40
  endpoints := ["localhost"]

/-- The single connection of this configuration sends as many transactions as it may, and no more. -/
theorem calls_le_maxTransactions_twoRequests :
    ∃ clients calls g, [fun _ => 0].mapM (KeyValue.factory.client twoRequests) = .ok clients ∧
      (spawn twoRequests ⟨[default], by simp⟩ (fun _ _ => .ideal) clients 0).Reaches calls g ∧
      calls 0 ≤ 2 ∧ g.engines.map (·.sent.length) = [2] := by
  obtain ⟨clients, hclients, h⟩ :=
    @calls_le_maxTransactions twoRequests (by decide) (by decide) [fun _ => 0]
  obtain ⟨calls, hreach⟩ := Reaches.run
    (@Reaches.start (spawn twoRequests ⟨[default], by simp⟩ (fun _ _ => .ideal) clients 0))
  refine ⟨clients, calls, _, hclients, hreach, (h _ _ _ _ _ hreach 0).1, ?_⟩
  cases hclients
  decide +kernel

end Group

end TxLoad
