import TxLoad.Proofs.Engine.Pacing
import TxLoad.Proofs.Engine.Tally

namespace TxLoad

/-!
# The accounts of an engine

Requests are counted in two places, by the pacer and by the counters of the connection, and both are
counted when the engine learns what came of a send. Whatever its client and the far side do, and
whenever it is cancelled: what an engine shows in the end is what became of its sends.

* `Engine.Evolves`: how an engine develops while it is cancelled at any moment.
* `Engine.IsLog`: what the sends of an engine are. Every one but the last was accepted.
* `Engine.Fits`: what the counters are before each of the steps of an engine.
* `Engine.Keeps.step`, `Engine.Keeps.evolves`: every step keeps all this, and so does every run.
* `Engine.accounts_of_evolves`: the accounts of an engine at every moment, and at its end.
-/

/-- The error with which a connection stopped. -/
def Exit.error? : Exit → Option ConnectionError
  | failed error => some error
  | _ => none

namespace Engine

/-! ### Developments -/

/-- `e₀.Evolves n e`: the engine `e₀` becomes `e` by `n` steps, while it is cancelled at any
    moment. -/
inductive Evolves (e₀ : Engine) : Nat → Engine → Prop
  | start : e₀.Evolves 0 e₀
  | step {n : Nat} {e : Engine} (h : e₀.Evolves n e) (hgoing : e.isStopped = false) :
    e₀.Evolves (n + 1) e.step
  | cancel {n : Nat} {e : Engine} (h : e₀.Evolves n e) : e₀.Evolves n e.cancel

variable {e₀ e : Engine} {n : Nat}

/-- What steps and cancellations keep holds at every moment. -/
theorem Evolves.keeps {P : Engine → Prop} (hstep : ∀ e, P e → P e.step)
    (hcancel : ∀ e, P e → P e.cancel) (h : e₀.Evolves n e) (h₀ : P e₀) : P e := by
  induction h with
  | start => exact h₀
  | step _ _ ih => exact hstep _ ih
  | cancel _ ih => exact hcancel _ ih

theorem Evolves.setup_eq (h : e₀.Evolves n e) : e.setup = e₀.setup :=
  h.keeps (P := (·.setup = e₀.setup)) (fun e he => e.setup_step.trans he) (fun _ he => he) rfl

/-- A run is such a development. -/
theorem Evolves.steps (h : e₀.Evolves n e) (k : Nat) : ∃ m, e₀.Evolves m (steps k e) := by
  induction k generalizing n e with
  | zero => exact ⟨n, h⟩
  | succ k ih =>
    unfold Engine.steps
    split
    · exact ⟨n, h⟩
    · rename_i hgoing
      exact ih (h.step (by simpa using hgoing))

/-! ### Sends -/

/-- A wait brings success exactly if the far side answers so within the timeout. -/
theorem bounded_eq_ok_iff {s : EngineSetup} {a : Awaited (Except ConnectionError Unit)} :
    (bounded s a).2 = .ok () ↔ ∃ delay ≤ s.timeoutMs, a = .after delay (.ok ()) := by
  rw [← Awaited.within_snd_eq_some_iff]
  show (a.within s.timeoutMs).2.getD _ = _ ↔ _
  cases (a.within s.timeoutMs).2 <;> simp

/-- The send with the number `k`: it bears the client's answer to the call with this number, and it
    was accepted exactly if the far side accepts it within the timeout. -/
def IsSend (s : EngineSetup) (k : Nat) (x : Sent) : Prop :=
  ∃ payload, s.client k = .ok payload ∧ x.size = payload.length ∧
    (x.accepted = true ↔
      ∃ delay ≤ s.timeoutMs, s.target.send ⟨k, payload, s.mode⟩ = .after delay (.ok ()))

/-- What the sends of an engine are, the last one first. -/
structure IsLog (s : EngineSetup) (sent : List Sent) : Prop where
  word : sent.length ≤ Text.wordMax
  limit : ∀ count, s.limit = some count → sent.length ≤ count
  accepted : ∀ x ∈ sent.tail, x.accepted = true
  sends : ∀ k x, sent.reverse[k]? = some x → IsSend s k x

theorem isLog_nil (s : EngineSetup) : IsLog s [] where
  word := Nat.zero_le _
  limit _ _ := Nat.zero_le _
  accepted _ h := absurd h List.not_mem_nil
  sends _ _ h := by simp at h

/-- Another send follows only if all before were accepted. -/
theorem IsLog.cons {s : EngineSetup} {sent : List Sent} (h : IsLog s sent)
    (haccepted : ∀ x ∈ sent, x.accepted = true) (hword : sent.length < Text.wordMax)
    (hlimit : ∀ count, s.limit = some count → sent.length < count) {x : Sent}
    (hx : IsSend s sent.length x) : IsLog s (x :: sent) where
  word := hword
  limit := hlimit
  accepted := haccepted
  sends k y hy := by
    rw [List.reverse_cons, List.getElem?_append] at hy
    split at hy
    · exact h.sends k y hy
    · rename_i hk
      rw [List.length_reverse] at hk hy
      rw [List.getElem?_singleton, Option.ite_none_right_eq_some] at hy
      obtain ⟨hlast, hy⟩ := hy
      obtain rfl : k = sent.length :=
        Nat.le_antisymm (Nat.le_of_sub_eq_zero hlast) (Nat.not_lt.mp hk)
      exact Option.some.inj hy ▸ hx

/-! ### Counters -/

/-- The start of an engine is set exactly if its connect succeeded in time. -/
structure Begun (e : Engine) : Prop where
  started_iff : e.stat.started.isSome = true ↔ (bounded e.setup e.setup.target.connect).2 = .ok ()
  started_le : ∀ t, e.stat.started = some t → t ≤ Clock.nanos e.now

/-- The counters of an engine that has not stopped. -/
structure Unfinished (e : Engine) : Prop extends Begun e where
  finished : e.stat.finished = none
  error : e.stat.error = none

/-- The counters of an engine that has stopped. -/
structure Finished (e : Engine) (exit : Exit) : Prop extends Begun e where
  finished : e.stat.finished = some (Clock.nanos e.now)
  error : e.stat.error = exit.error?
  /-- If it stopped at its limit, it reached the limit. -/
  count : exit = .countReached →
    e.setup.limit = some e.sent.length ∧ ∀ x ∈ e.sent, x.accepted = true

/-- The clock moves on. -/
theorem Begun.later (h : e.Begun) {d : Engine} (hsetup : d.setup = e.setup)
    (hstarted : d.stat.started = e.stat.started) (hnow : e.now ≤ d.now) : d.Begun := by
  constructor
  · rw [hstarted, hsetup]
    exact h.started_iff
  · intro t ht
    exact Nat.le_trans (h.started_le t (hstarted ▸ ht)) (Clock.nanos_le_nanos hnow)

theorem Unfinished.later (h : e.Unfinished) {d : Engine} (hsetup : d.setup = e.setup)
    (hstarted : d.stat.started = e.stat.started) (hfinished : d.stat.finished = e.stat.finished)
    (herror : d.stat.error = e.stat.error) (hnow : e.now ≤ d.now) : d.Unfinished :=
  ⟨h.toBegun.later hsetup hstarted hnow, hfinished.trans h.finished, herror.trans h.error⟩

/-- Stopping sets the end and keeps the error, if there is one. -/
theorem Unfinished.stop (h : e.Unfinished) {exit : Exit} (hcount : exit = .countReached →
      e.setup.limit = some e.sent.length ∧ ∀ x ∈ e.sent, x.accepted = true) :
    (e.stop exit).Finished exit := by
  obtain ⟨hbegun, hfinished, herror⟩ := h
  have hend : (e.stat.finished.orElse fun _ => some (Clock.nanos e.now)) =
      some (Clock.nanos e.now) := by
    rw [hfinished]
    rfl
  cases exit with
  | failed error =>
    refine ⟨hbegun.later rfl rfl (Nat.le_refl _), hend, ?_, hcount⟩
    show (e.stat.error.orElse fun _ => some error) = some error
    rw [herror]
    rfl
  | cancelled | elapsed | countReached =>
    exact ⟨hbegun.later rfl rfl (Nat.le_refl _), hend, herror, hcount⟩

/-- What the counters and the sends are, according to what the engine is about to do. -/
inductive Fits (e : Engine) : EnginePhase → Prop
  | connecting (hstat : e.stat = {}) (hsent : e.sent = []) : e.Fits .connecting
  | opening {outcome : Except ConnectionError Unit} (hstat : e.stat = {}) (hsent : e.sent = [])
    (houtcome : (bounded e.setup e.setup.target.connect).2 = outcome) : e.Fits (.opening outcome)
  | looping {p : Pacer} (hstat : e.Unfinished) (haccepted : ∀ x ∈ e.sent, x.accepted = true)
    (hconsumed : p.consumed = e.sent.length) : e.Fits (.looping p)
  | sending {p : Pacer} {size : Nat} {outcome : Except ConnectionError Unit}
    (hstat : e.Unfinished) (hconsumed : p.consumed + 1 = e.sent.length) :
    e.Fits (.sending p size outcome)
  | stopped {exit : Exit} (hstat : e.Finished exit) : e.Fits (.stopped exit)

/-- What every step of an engine keeps. -/
structure Keeps (e : Engine) : Prop where
  counted : e.Counted
  log : IsLog e.setup e.sent
  fits : e.Fits e.phase

theorem keeps_fresh (setup : EngineSetup) (now : Nat) : ({ setup, now } : Engine).Keeps :=
  ⟨counted_fresh setup now, isLog_nil setup, .connecting rfl rfl⟩

theorem Keeps.cancel (h : e.Keeps) : e.cancel.Keeps := by
  refine ⟨h.counted.cancel, h.log, ?_⟩
  have hfits := h.fits
  show e.cancel.Fits e.phase
  generalize e.phase = phase at hfits ⊢
  cases hfits with
  | connecting hstat hsent => exact .connecting hstat hsent
  | opening hstat hsent houtcome => exact .opening hstat hsent houtcome
  | looping hstat haccepted hconsumed =>
    exact .looping (hstat.later rfl rfl rfl rfl (Nat.le_refl _)) haccepted hconsumed
  | sending hstat hconsumed =>
    exact .sending (hstat.later rfl rfl rfl rfl (Nat.le_refl _)) hconsumed
  | stopped hstat =>
    have hbegun : e.cancel.Begun := hstat.toBegun.later rfl rfl (Nat.le_refl _)
    exact .stopped ⟨hbegun, hstat.finished, hstat.error, hstat.count⟩

/-! ### Steps -/

/-- A request that is due can be counted with a word. -/
theorem lt_wordMax_of_due {p : Pacer} {now : Nat} (h : p.due now ≠ 0) :
    p.consumed < Text.wordMax :=
  Nat.lt_of_lt_of_le (Nat.lt_of_sub_ne_zero h) (Nat.min_le_left _ _)

theorem isOk_eq_true_iff {outcome : Except ConnectionError Unit} :
    outcome.isOk = true ↔ outcome = .ok () := by
  cases outcome with
  | error error => simp [Except.isOk, Except.toBool]
  | ok u => simp [Except.isOk, Except.toBool]

theorem isSend_submit {s : EngineSetup} {k : Nat} {payload : Payload}
    (hclient : s.client k = .ok payload) (submitted : Nat) :
    IsSend s k ⟨submitted, submitted + (bounded s (s.target.send ⟨k, payload, s.mode⟩)).1,
      payload.length, (bounded s (s.target.send ⟨k, payload, s.mode⟩)).2.isOk⟩ :=
  ⟨payload, hclient, rfl, isOk_eq_true_iff.trans bounded_eq_ok_iff⟩

/-- What a look comes to. -/
theorem Keeps.look (h : e.Keeps) {p : Pacer} (hp : e.phase = .looping p) :
    IsLog (e.look p).setup (e.look p).sent ∧ (e.look p).Fits (e.look p).phase := by
  have hfits := h.fits
  rw [hp] at hfits
  cases hfits with
  | looping hstat haccepted hconsumed =>
    have hlook := looks_look e p
    generalize e.look p = d at hlook ⊢
    cases hlook with
    | cancelled | elapsed | refused =>
      exact ⟨h.log, .stopped (hstat.stop fun hexit => by cases hexit)⟩
    | counted hgoing hdeadline hlimit =>
      refine ⟨h.log, .stopped (hstat.stop fun _ => ⟨?_, haccepted⟩)⟩
      -- The sends are within the limit as well.
      obtain ⟨count, hcount, hle⟩ := (Option.any_eq_true _ _).mp hlimit
      have hle : count ≤ p.consumed := by simpa using hle
      rw [hcount, Nat.le_antisymm (hconsumed ▸ hle) (h.log.limit count hcount)]
    | parked hgoing hdeadline hlimit hdue =>
      refine ⟨h.log, ?_⟩
      show Fits _ e.phase
      rw [hp]
      exact .looping (hstat.later rfl rfl rfl rfl (le_parkUntil e p)) haccepted hconsumed
    | @submitted hgoing hdeadline hlimit hdue payload hclient =>
      have hsend := isSend_submit hclient e.now
      rw [hconsumed] at hclient hlimit
      refine ⟨h.log.cons haccepted (hconsumed ▸ lt_wordMax_of_due hdue)
        (fun count hcount => by simpa [hcount] using hlimit) (hconsumed ▸ hsend), ?_⟩
      exact .sending (hstat.later rfl rfl rfl rfl (Nat.le_add_right _ _))
        (congrArg (· + 1) hconsumed)

/-- **Step lemma.** Every step keeps the counters, the sends and the pacer in line. -/
theorem Keeps.step (h : e.Keeps) : e.step.Keeps := by
  have hcounted := h.counted.step.1
  have hfits := h.fits
  cases hp : e.phase with
  | looping p =>
    rw [Engine.step, hp] at hcounted ⊢
    obtain ⟨hlog, hfits⟩ := h.look hp
    exact ⟨hcounted, hlog, hfits⟩
  | connecting =>
    rw [hp] at hfits
    rw [Engine.step, hp] at hcounted ⊢
    cases hfits with
    | connecting hstat hsent => exact ⟨hcounted, h.log, .opening hstat hsent rfl⟩
  | opening outcome =>
    rw [hp] at hfits
    rw [Engine.step, hp] at hcounted ⊢
    cases hfits with
    | opening hstat hsent houtcome =>
      cases outcome with
      | error error =>
        have hunfinished : e.Unfinished := by
          refine ⟨⟨?_, ?_⟩, ?_, ?_⟩ <;> simp [hstat, houtcome]
        exact ⟨hcounted, h.log, .stopped (hunfinished.stop fun hexit => by cases hexit)⟩
      | ok u =>
        refine ⟨hcounted, h.log, .looping ⟨⟨?_, ?_⟩, ?_, ?_⟩ ?_ ?_⟩
        all_goals simp [hstat, hsent, houtcome, ConnectionStat.onStarted, Pacer.start]
  | sending p size outcome =>
    rw [hp] at hfits
    obtain ⟨x, rest, hsent, -, hlast⟩ := h.counted.pending p size outcome hp
    rw [Engine.step, hp] at hcounted ⊢
    cases hfits with
    | sending hstat hconsumed =>
      cases outcome with
      | error error =>
        exact ⟨hcounted, h.log, .stopped (hstat.stop fun hexit => by cases hexit)⟩
      | ok u =>
        refine ⟨hcounted, h.log, ?_⟩
        refine .looping (hstat.later rfl rfl rfl rfl (Nat.le_refl _)) ?_ hconsumed
        have htail := h.log.accepted
        show ∀ x ∈ e.sent, x.accepted = true
        rw [hsent] at htail ⊢
        exact List.forall_mem_cons.mpr ⟨hlast, htail⟩
  | stopped exit =>
    rw [step_of_isStopped (by rw [isStopped, hp])]
    exact h

/-- **Run lemma.** They stay in line, whatever becomes of the engine. -/
theorem Keeps.evolves (h₀ : e₀.Keeps) (h : e₀.Evolves n e) : e.Keeps :=
  h.keeps (fun _ he => he.step) (fun _ he => he.cancel) h₀

/-! ### Accounts -/

/-- What the counters of an engine show when it has stopped. -/
structure Settles (e : Engine) (exit : Exit) : Prop where
  requests : e.stat.requests.toNat = (e.sent.filter (·.accepted)).length
  bytes : e.stat.bytes = UInt64.ofNat ((e.sent.filter (·.accepted)).map (·.size)).sum
  errors : e.stat.errors = if exit.error?.isSome then 1 else 0
  error : e.stat.error = exit.error?
  /-- The start is set exactly if the connect succeeded in time. -/
  started : e.stat.started.isSome = true ↔
    ∃ delay ≤ e.setup.timeoutMs, e.setup.target.connect = .after delay (.ok ())
  finished : ∃ t, e.stat.finished = some t ∧ ∀ s, e.stat.started = some s → s ≤ t
  countReached : exit = .countReached → e.setup.limit = some e.stat.requests.toNat

/-- How the accounts of an engine stand. -/
structure Accounts (e : Engine) : Prop where
  /-- The sends bear the transactions of the client in their order, and those are accepted which the
      far side accepts within the timeout. -/
  sends : ∀ k x, e.sent.reverse[k]? = some x → IsSend e.setup k x
  /-- Every send except possibly the last one was accepted. -/
  accepted : ∀ x ∈ e.sent.tail, x.accepted = true
  /-- Whenever the engine looks, its pacer has consumed as many requests as are counted. -/
  consumed : ∀ p, e.phase = .looping p → p.consumed = e.stat.requests.toNat
  settles : ∀ exit, e.phase = .stopped exit → e.Settles exit

/-- The requests are counted exactly, since they are no more than the sends. -/
theorem Keeps.toNat_requests (h : e.Keeps) (hsettled : e.settledSends = e.sent) :
    e.stat.requests.toNat = (e.sent.filter (·.accepted)).length := by
  have hlength : e.tally.requests = (e.sent.filter (·.accepted)).length := by
    rw [tally, acceptedSends, hsettled, List.length_reverse]
  have hword : (e.sent.filter (·.accepted)).length < 2 ^ 64 :=
    calc (e.sent.filter (·.accepted)).length ≤ e.sent.length := List.length_filter_le ..
      _ ≤ Text.wordMax := h.log.word
      _ < 2 ^ 64 := by decide
  rw [h.counted.requests, hlength, UInt64.toNat_ofNat_of_lt' hword]

theorem Keeps.settles (h : e.Keeps) {exit : Exit} (hp : e.phase = .stopped exit) :
    e.Settles exit := by
  have hsettled : e.settledSends = e.sent := by rw [settledSends, hp]
  have hrequests := h.toNat_requests hsettled
  have hfits := h.fits
  rw [hp] at hfits
  cases hfits with
  | stopped hstat =>
    refine ⟨hrequests, ?_, ?_, hstat.error, hstat.started_iff.trans bounded_eq_ok_iff,
      ⟨_, hstat.finished, hstat.started_le⟩, fun hexit => ?_⟩
    · rw [h.counted.bytes, tally, acceptedSends, hsettled, List.map_reverse, List.sum_reverse]
    · rw [h.counted.errors, tally, exit?, hp]
      cases exit <;> rfl
    · obtain ⟨hlimit, haccepted⟩ := hstat.count hexit
      rw [hrequests, List.filter_eq_self.mpr haccepted, hlimit]

theorem Keeps.accounts (h : e.Keeps) : e.Accounts := by
  refine ⟨h.log.sends, h.log.accepted, fun p hp => ?_, fun exit hp => h.settles hp⟩
  have hrequests := h.toNat_requests (by rw [settledSends, hp])
  have hfits := h.fits
  rw [hp] at hfits
  cases hfits with
  | looping hstat haccepted hconsumed =>
    rw [hrequests, List.filter_eq_self.mpr haccepted, hconsumed]

/-- **Accounts.** Whatever the client and the far side of an engine do, and whenever it is
    cancelled: at every moment its accounts are in order, and when it has stopped they are
    settled. -/
theorem accounts_of_evolves (setup : EngineSetup) (now n : Nat) (e : Engine)
    (h : ({ setup, now } : Engine).Evolves n e) : e.setup = setup ∧ e.Accounts :=
  ⟨h.setup_eq, ((keeps_fresh setup now).evolves h).accounts⟩

/-- An engine with transactions of growing sizes, the third of which is never answered. -/
def unanswered : EngineSetup where
  endpoint := default
  rate := 100
  limit := some 9
  mode := .sync
  timeoutMs := 30
  spawned := 0
  deadline := 200
  client := fun k => .ok (List.replicate (k + 1) 0)
  target :=
    { connect := .after 3 (.ok ())
      send := fun s => if s.index = 2 then .never else .after s.index (.ok ()) }

/-- The two transactions before are counted with their bytes, and the third is an error. -/
theorem accounts_unanswered :
    ∃ n, ({ setup := unanswered, now := 0 } : Engine).Evolves n
        (run { setup := unanswered, now := 0 }) ∧
      (run { setup := unanswered, now := 0 }).Accounts ∧
      (run { setup := unanswered, now := 0 }).stat =
        ⟨2, 3, 1, some 3000000, some 53000000, some (.timeout 30000000)⟩ := by
  obtain ⟨n, h⟩ := (@Evolves.start { setup := unanswered, now := 0 }).steps
    (budget { setup := unanswered, now := 0 })
  exact ⟨n, h, (accounts_of_evolves _ _ _ _ h).2, by decide +kernel⟩

end Engine

end TxLoad
