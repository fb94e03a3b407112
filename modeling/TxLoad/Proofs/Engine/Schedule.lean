import TxLoad.Config.Basic
import TxLoad.Proofs.Engine.Pacing
import Mathlib.Data.List.Count
import Mathlib.Tactic.Ring

namespace TxLoad

/-!
# The schedule of an engine

An engine asks its pacer what is due, parks when nothing is, and sends one transaction at a time.
What comes of this is a schedule that has neither looks nor parks in it: each send is made at the
instant at which the engine is free for it or at which it is due, whichever is later. The due
instants are reckoned from the opening of the connection alone, so that nothing drifts.

* `Schedule.startAt` is the instant of a send by this recurrence, `Schedule.IsMade` says whether
  the send is made at all, `Schedule.exit` and `Schedule.endsAt` how and when the engine stops.
* `Schedule.Describes`: a stopped engine has done what the schedule says.
* `OnSchedule.step`: every step of an engine keeps it on the schedule.
* `run_describes`: the run of an engine is described by the schedule.
-/

namespace Schedule

variable (setup : EngineSetup) (payload : Nat → Payload) (opened : Nat) (sends : List Sent)

/-- How long the send with the number `k` takes and what comes of it. -/
def attempt (k : Nat) : Nat × Except ConnectionError Unit :=
  Engine.bounded setup (setup.target.send ⟨k, payload k, setup.mode⟩)

/-- The instant at which the engine is free for the send with the given number: that of the opening
    or that at which it has learnt what came of the send before. -/
def freeAt : Nat → Nat
  | 0 => opened
  | k + 1 => (sends[k]?.map (·.settled)).getD opened

/-- The instant of the send with the number `k`. -/
def startAt (k : Nat) : Nat := max (freeAt opened sends k) (Pacer.dueMs setup.rate opened k)

/-- There is no send before the one with the given number, or it was accepted. -/
def goesOn : Nat → Bool
  | 0 => true
  | k + 1 => sends[k]?.any (·.accepted)

/-- The send with the number `k` is made: the one before was accepted, the deadline does not come
    first and the count allows it. -/
structure IsMade (k : Nat) : Prop where
  goesOn : goesOn sends k = true
  deadline : startAt setup opened sends k < setup.deadline
  limit : setup.limit.any (· ≤ k) = false

/-- The send with the number `k`, made at its instant. -/
def made (k : Nat) : Sent where
  submitted := startAt setup opened sends k
  settled := startAt setup opened sends k + (attempt setup payload k).1
  size := (payload k).length
  accepted := (attempt setup payload k).2.isOk

/-- The error of the last send, if there is one and it failed. -/
def failure? : Option ConnectionError :=
  match sends.length with
  | 0 => none
  | k + 1 =>
    match (attempt setup payload k).2 with
    | .error error => some error
    | .ok () => none

/-- How an engine that has made these sends and no further one stops. -/
def exit : Exit :=
  match failure? setup payload sends with
  | some error => .failed error
  | none =>
    if freeAt opened sends sends.length < setup.deadline ∧
        setup.limit.any (· ≤ sends.length) = true then .countReached
    else .elapsed

/-- When an engine that has made these sends and no further one stops. -/
def endsAt : Nat :=
  match exit setup payload opened sends with
  | .elapsed => max (freeAt opened sends sends.length) setup.deadline
  | _ => freeAt opened sends sends.length

/-- The engine has stopped, and all it did is what the schedule says. -/
structure Describes (e : Engine) : Prop where
  /-- A send is made exactly if the schedule has it. -/
  isMade : ∀ k, k < e.sent.reverse.length ↔ IsMade setup opened e.sent.reverse k
  /-- Each send is made at its instant and settled when its outcome is there. -/
  made : ∀ k s, e.sent.reverse[k]? = some s → s = made setup payload opened e.sent.reverse k
  exit : e.phase = .stopped (exit setup payload opened e.sent.reverse)
  endsAt : e.now = endsAt setup payload opened e.sent.reverse
  /-- Never are there more sends than the rate allows, the first one being due at once. -/
  atMost : ∀ t, e.sent.reverse.countP (fun s => Clock.nanos s.submitted ≤ t) ≤
    (t - Clock.nanos opened) * setup.rate / Pacer.secondNs + 1
  /-- However late the sends before were made, a send for which the engine is free in time is made
      when it is due. -/
  inTime : ∀ k s, e.sent.reverse[k]? = some s →
    freeAt opened e.sent.reverse k ≤ Pacer.dueMs setup.rate opened k →
    s.submitted = Pacer.dueMs setup.rate opened k

/-! ### Sends so far -/

/-- All sends so far are those of the schedule. -/
structure Follows : Prop where
  isMade : ∀ k < sends.length, IsMade setup opened sends k
  made : ∀ k s, sends[k]? = some s → s = made setup payload opened sends k

variable {setup payload opened sends}

theorem freeAt_append {k : Nat} (h : k ≤ sends.length) (more : List Sent) :
    freeAt opened (sends ++ more) k = freeAt opened sends k := by
  cases k with
  | zero => rfl
  | succ k => simp only [freeAt, List.getElem?_append_left h]

theorem goesOn_append {k : Nat} (h : k ≤ sends.length) (more : List Sent) :
    goesOn (sends ++ more) k = goesOn sends k := by
  cases k with
  | zero => rfl
  | succ k => simp only [goesOn, List.getElem?_append_left h]

theorem freeAt_snoc (s : Sent) : freeAt opened (sends ++ [s]) (sends.length + 1) = s.settled := by
  simp [freeAt]

theorem startAt_append {k : Nat} (h : k ≤ sends.length) (more : List Sent) :
    startAt setup opened (sends ++ more) k = startAt setup opened sends k := by
  simp only [startAt, freeAt_append h]

theorem made_append {k : Nat} (h : k ≤ sends.length) (more : List Sent) :
    made setup payload opened (sends ++ more) k = made setup payload opened sends k := by
  simp only [made, startAt_append h]

theorem IsMade.append {k : Nat} (h : IsMade setup opened sends k) (hk : k ≤ sends.length)
    (more : List Sent) : IsMade setup opened (sends ++ more) k where
  goesOn := by rw [goesOn_append hk]; exact h.goesOn
  deadline := by rw [startAt_append hk]; exact h.deadline
  limit := h.limit

theorem follows_nil : Follows setup payload opened [] where
  isMade k hk := absurd hk (Nat.not_lt_zero k)
  made k s hs := by simp at hs

/-- The next send of the schedule extends the sends so far. -/
theorem Follows.snoc (h : Follows setup payload opened sends)
    (hnext : IsMade setup opened sends sends.length) :
    Follows setup payload opened
      (sends ++ [Schedule.made setup payload opened sends sends.length]) where
  isMade k hk := by
    have hle : k ≤ sends.length := by simpa [Nat.lt_succ_iff] using hk
    refine IsMade.append ?_ hle _
    rcases Nat.lt_or_eq_of_le hle with hlt | rfl
    · exact h.isMade k hlt
    · exact hnext
  made k s hs := by
    obtain ⟨hk, -⟩ := List.getElem?_eq_some_iff.mp hs
    have hle : k ≤ sends.length := by simpa [Nat.lt_succ_iff] using hk
    rw [made_append hle]
    rcases Nat.lt_or_eq_of_le hle with hlt | rfl
    · rw [List.getElem?_append_left hlt] at hs
      exact h.made k s hs
    · simpa using hs.symm

/-- No send is made after one that is not. -/
theorem Follows.isMade_iff (h : Follows setup payload opened sends)
    (hlast : ¬ IsMade setup opened sends sends.length) (k : Nat) :
    k < sends.length ↔ IsMade setup opened sends k := by
  constructor
  · exact h.isMade k
  · intro hk
    by_contra hge
    rcases Nat.lt_or_eq_of_le (Nat.not_lt.mp hge) with hlt | rfl
    · -- The send before `k` was not made either, so that it cannot have been accepted.
      obtain ⟨k, rfl⟩ := Nat.exists_eq_succ_of_ne_zero (Nat.ne_of_gt (Nat.zero_lt_of_lt hlt))
      have hgoes := hk.goesOn
      have hnone : sends[k]? = none := List.getElem?_eq_none (Nat.le_of_lt_succ hlt)
      simp [Schedule.goesOn, hnone] at hgoes
    · exact hlast hk

/-- No send is made before it is due. -/
theorem Follows.dueMs_le (h : Follows setup payload opened sends) {k : Nat} {s : Sent}
    (hs : sends[k]? = some s) : Pacer.dueMs setup.rate opened k ≤ s.submitted := by
  rw [h.made k s hs]
  exact Nat.le_max_right _ _

theorem opened_le_dueMs (rate opened k : Nat) : opened ≤ Pacer.dueMs rate opened k := by
  rw [Pacer.dueMs, ← Nat.not_lt]
  intro hlt
  have := (Clock.ceilMs_le_iff _ _).mp (Nat.le_pred_of_lt hlt)
  have := Clock.nanos_lt_nanos (Nat.pred_lt_of_lt hlt)
  omega

/-- The engine is never free before its opening. -/
theorem Follows.opened_le_freeAt (h : Follows setup payload opened sends) :
    opened ≤ freeAt opened sends sends.length := by
  rcases List.eq_nil_or_concat sends with rfl | ⟨sends, s, rfl⟩
  · exact Nat.le_refl _
  · rw [List.concat_eq_append] at h ⊢
    have hs : (sends ++ [s])[sends.length]? = some s := by simp
    have hmade := h.made sends.length s hs
    have hdue := h.dueMs_le hs
    have hopened := opened_le_dueMs setup.rate opened sends.length
    have hsettled : s.submitted ≤ s.settled := by
      rw [hmade]
      exact Nat.le_add_right _ _
    rw [List.length_append, List.length_singleton, freeAt_snoc]
    omega

/-- A property that only the first places of a list can have holds of no more members. -/
theorem countP_le_of_index {p : Sent → Bool} {m : Nat} (l : List Sent)
    (h : ∀ k s, l[k]? = some s → p s = true → k < m) : l.countP p ≤ m := by
  have hrest : (l.drop m).countP p = 0 := by
    rw [List.countP_eq_zero]
    intro s hs hp
    obtain ⟨i, hi⟩ := List.mem_iff_getElem?.mp hs
    rw [List.getElem?_drop] at hi
    have := h (m + i) s hi hp
    omega
  have hsplit : l.countP p = (l.take m).countP p + (l.drop m).countP p := by
    rw [← List.countP_append, List.take_append_drop]
  have hfirst : (l.take m).countP p ≤ (l.take m).length := List.countP_le_length
  have htake : (l.take m).length ≤ m := List.length_take_le m l
  omega

/-- Up to an instant there are at most as many sends as are due. -/
theorem Follows.countP_le (h : Follows setup payload opened sends) (hrate : 0 < setup.rate)
    (t : Nat) : sends.countP (fun s => Clock.nanos s.submitted ≤ t) ≤
      (t - Clock.nanos opened) * setup.rate / Pacer.secondNs + 1 := by
  apply countP_le_of_index
  intro k s hs ht
  have ht : Clock.nanos s.submitted ≤ t := by simpa using ht
  have hdue := h.dueMs_le hs
  rw [Pacer.dueMs, Clock.ceilMs_le_iff] at hdue
  have hoffset : Pacer.offset setup.rate k ≤ t - Clock.nanos opened := by omega
  rw [Nat.lt_succ_iff, Nat.le_div_iff_mul_le Pacer.secondNs_pos]
  exact (Pacer.offset_le_iff hrate k _).mp hoffset

theorem failure?_snoc (s : Sent) : failure? setup payload (sends ++ [s]) =
    match (attempt setup payload sends.length).2 with
    | .error error => some error
    | .ok () => none := by
  simp [failure?]

/-- The engine goes on after a send that was accepted. -/
theorem goesOn_snoc : goesOn (sends ++ [Schedule.made setup payload opened sends sends.length])
    (sends.length + 1) = (attempt setup payload sends.length).2.isOk := by
  simp [goesOn, Schedule.made]

/-- After sends that were all accepted there is no failure. -/
theorem Follows.failure?_eq_none (h : Follows setup payload opened sends)
    (hgoes : goesOn sends sends.length = true) : failure? setup payload sends = none := by
  rcases List.eq_nil_or_concat sends with rfl | ⟨sends, s, rfl⟩
  · rfl
  · rw [List.concat_eq_append] at h hgoes ⊢
    have hs : s = Schedule.made setup payload opened sends sends.length := by
      have := h.made sends.length s (by simp)
      rwa [made_append (Nat.le_refl _)] at this
    rw [hs, List.length_append, List.length_singleton, goesOn_snoc] at hgoes
    rw [failure?_snoc]
    cases hattempt : (attempt setup payload sends.length).2 with
    | error error => simp [hattempt, Except.isOk, Except.toBool] at hgoes
    | ok u => rfl

end Schedule

namespace Engine

open Schedule

variable {setup : EngineSetup} {payload : Nat → Payload} {now opened : Nat}

/-! ### Steps on the schedule -/

/-- The engine that looks at the instant `t` and has made the given sends. -/
def looking (setup : EngineSetup) (opened t : Nat) (stat : ConnectionStat) (sends : List Sent) :
    Engine where
  setup := setup
  now := t
  phase := .looping ⟨setup.rate, Clock.nanos opened, sends.length⟩
  stat := stat
  sent := sends.reverse

/-- The engine waits for the next send: it is free for it, and it has not waited in vain. -/
structure Waits (setup : EngineSetup) (opened : Nat) (sends : List Sent) (now : Nat) : Prop where
  goesOn : goesOn sends sends.length = true
  free : freeAt opened sends sends.length ≤ now
  start : now ≤ startAt setup opened sends sends.length
  /-- Only an engine that is allowed another send parks, and not beyond the deadline. -/
  parked : freeAt opened sends sends.length < now →
    setup.limit.any (· ≤ sends.length) = false ∧ now ≤ setup.deadline

/-- The states of an engine that was started at `now` and whose connect completes at `opened`. -/
inductive OnSchedule (setup : EngineSetup) (payload : Nat → Payload) (now opened : Nat) :
    Engine → Prop
  | connecting : OnSchedule setup payload now opened { setup := setup, now := now }
  | opening : OnSchedule setup payload now opened
      { setup := setup, now := opened, phase := .opening (.ok ()) }
  | looking {t : Nat} {stat : ConnectionStat} {sends : List Sent}
      (hfollows : Follows setup payload opened sends) (hwaits : Waits setup opened sends t) :
      OnSchedule setup payload now opened (looking setup opened t stat sends)
  | sending {stat : ConnectionStat} {sends : List Sent} {s : Sent}
      (hfollows : Follows setup payload opened (sends ++ [s]))
      (hs : s = Schedule.made setup payload opened sends sends.length) :
      OnSchedule setup payload now opened
      { setup := setup, now := s.settled, stat := stat, sent := s :: sends.reverse,
        phase := .sending ⟨setup.rate, Clock.nanos opened, sends.length⟩
          (payload sends.length).length (attempt setup payload sends.length).2 }
  | stopped {stat : ConnectionStat} {sends : List Sent}
      (hfollows : Follows setup payload opened sends)
      (hlast : ¬ IsMade setup opened sends sends.length) :
      OnSchedule setup payload now opened
      { setup := setup, now := endsAt setup payload opened sends, stat := stat,
        sent := sends.reverse, phase := .stopped (exit setup payload opened sends) }

/-- What is asked of a setup and its opening: the client does not fail, and no word of the pacer is
    exhausted before the deadline. -/
structure IsPaceable (setup : EngineSetup) (payload : Nat → Payload) (opened : Nat) : Prop where
  client : ∀ k, setup.client k = .ok (payload k)
  exact : (Pacer.start setup.rate (Clock.nanos opened)).IsExactUntil (Clock.nanos setup.deadline)

theorem freeAt_le_startAt (sends : List Sent) (k : Nat) :
    freeAt opened sends k ≤ startAt setup opened sends k := Nat.le_max_left _ _

/-- An engine that waits and finds the deadline past has no further send on its schedule. -/
theorem onSchedule_elapsed {t : Nat} {stat : ConnectionStat} {sends : List Sent}
    (hfollows : Follows setup payload opened sends) (hwaits : Waits setup opened sends t)
    (hdeadline : setup.deadline ≤ t) :
    OnSchedule setup payload now opened ((looking setup opened t stat sends).stop .elapsed) := by
  have hlast : ¬ IsMade setup opened sends sends.length := by
    intro hmade
    have hbefore := hmade.deadline
    have hstart := hwaits.start
    omega
  have hcount : ¬ (freeAt opened sends sends.length < setup.deadline ∧
      setup.limit.any (· ≤ sends.length) = true) := by
    rintro ⟨hfree, hlimit⟩
    obtain ⟨hbelow, -⟩ := hwaits.parked (by omega)
    rw [hlimit] at hbelow
    cases hbelow
  have hexit : exit setup payload opened sends = .elapsed := by
    unfold exit
    rw [hfollows.failure?_eq_none hwaits.goesOn]
    simp only [if_neg hcount]
  have hends : endsAt setup payload opened sends = t := by
    unfold endsAt
    rw [hexit]
    have hfree := hwaits.free
    rcases Nat.lt_or_eq_of_le hfree with hlt | heq
    · obtain ⟨-, hle⟩ := hwaits.parked hlt
      simp only
      omega
    · simp only
      omega
  have h := @OnSchedule.stopped setup payload now opened (stat.onFinished (Clock.nanos t)) sends
    hfollows hlast
  rw [hends, hexit] at h
  exact h

/-- An engine that waits and has made all sends that its count allows has not parked. -/
theorem onSchedule_counted {t : Nat} {stat : ConnectionStat} {sends : List Sent}
    (hfollows : Follows setup payload opened sends) (hwaits : Waits setup opened sends t)
    (hdeadline : t < setup.deadline) (hlimit : setup.limit.any (· ≤ sends.length) = true) :
    OnSchedule setup payload now opened
      ((looking setup opened t stat sends).stop .countReached) := by
  have hlast : ¬ IsMade setup opened sends sends.length := by
    intro hmade
    have hbelow := hmade.limit
    rw [hlimit] at hbelow
    cases hbelow
  have hfree : freeAt opened sends sends.length = t := by
    rcases Nat.lt_or_eq_of_le hwaits.free with hlt | heq
    · obtain ⟨hbelow, -⟩ := hwaits.parked hlt
      rw [hlimit] at hbelow
      cases hbelow
    · exact heq
  have hexit : exit setup payload opened sends = .countReached := by
    unfold exit
    rw [hfollows.failure?_eq_none hwaits.goesOn, hfree]
    simp only [if_pos (And.intro hdeadline hlimit)]
  have hends : endsAt setup payload opened sends = t := by
    unfold endsAt
    rw [hexit]
    exact hfree
  have h := @OnSchedule.stopped setup payload now opened (stat.onFinished (Clock.nanos t)) sends
    hfollows hlast
  rw [hends, hexit] at h
  exact h

/-- **One look.** A look of an engine that waits stops it, parks it or makes the next send, as the
    schedule has it. -/
theorem onSchedule_look (h : IsPaceable setup payload opened) {t : Nat} {stat : ConnectionStat}
    {sends : List Sent} (hfollows : Follows setup payload opened sends)
    (hwaits : Waits setup opened sends t) :
    OnSchedule setup payload now opened (looking setup opened t stat sends).step := by
  have hlook := looks_look (looking setup opened t stat sends)
    ⟨setup.rate, Clock.nanos opened, sends.length⟩
  have hexact : Pacer.IsExactUntil ⟨setup.rate, Clock.nanos opened, sends.length⟩
      (Clock.nanos setup.deadline) := ⟨h.exact.rate_pos, h.exact.elapsed, h.exact.total⟩
  show OnSchedule setup payload now opened ((looking setup opened t stat sends).look _)
  generalize (looking setup opened t stat sends).look _ = d at hlook
  have hopened : opened ≤ t := Nat.le_trans hfollows.opened_le_freeAt hwaits.free
  cases hlook with
  | cancelled hcancelled => cases hcancelled
  | elapsed hgoing hdeadline => exact onSchedule_elapsed hfollows hwaits hdeadline
  | counted hgoing hdeadline hlimit => exact onSchedule_counted hfollows hwaits hdeadline hlimit
  | parked hgoing hdeadline hlimit hdue =>
    have hlater := le_parkUntil (looking setup opened t stat sends)
      ⟨setup.rate, Clock.nanos opened, sends.length⟩
    have hdeadline' := parkUntil_le_deadline (e := looking setup opened t stat sends)
      ⟨setup.rate, Clock.nanos opened, sends.length⟩ (Nat.le_of_lt hdeadline)
    have hdueMs := parkUntil_le_dueMs (e := looking setup opened t stat sends)
      (p := ⟨setup.rate, Clock.nanos opened, sends.length⟩) h.exact.rate_pos rfl
    refine OnSchedule.looking hfollows ⟨hwaits.goesOn, ?_, ?_, ?_⟩
    · exact Nat.le_trans hwaits.free hlater
    · exact Nat.le_trans hdueMs (Nat.max_le.mpr ⟨hwaits.start, Nat.le_max_right _ _⟩)
    · exact fun _ => ⟨hlimit, hdeadline'⟩
  | refused hgoing hdeadline hlimit hdue hclient =>
    rw [show (looking setup opened t stat sends).setup = setup from rfl, h.client] at hclient
    cases hclient
  | submitted hgoing hdeadline hlimit hdue hclient =>
    rw [show (looking setup opened t stat sends).setup = setup from rfl, h.client] at hclient
    cases hclient
    have hdueMs := Pacer.dueMs_le_of_due hexact rfl hopened
      (Clock.nanos_le_nanos (Nat.le_of_lt hdeadline)) hdue
    have hstart : startAt setup opened sends sends.length = t :=
      Nat.le_antisymm (Nat.max_le.mpr ⟨hwaits.free, hdueMs⟩) hwaits.start
    have hmade : IsMade setup opened sends sends.length :=
      ⟨hwaits.goesOn, by rw [hstart]; exact hdeadline, hlimit⟩
    have hsent : (looking setup opened t stat sends).submit
        ⟨setup.rate, Clock.nanos opened, sends.length⟩ (payload sends.length) =
        { setup := setup, now := (Schedule.made setup payload opened sends sends.length).settled,
          stat := stat,
          sent := Schedule.made setup payload opened sends sends.length :: sends.reverse,
          phase := .sending ⟨setup.rate, Clock.nanos opened, sends.length⟩
            (payload sends.length).length (attempt setup payload sends.length).2 } := by
      simp only [Schedule.made, hstart]
      rfl
    rw [hsent]
    exact .sending (hfollows.snoc hmade) rfl

/-- After a send the engine goes on or stops, as the schedule has it. -/
theorem onSchedule_settle {stat : ConnectionStat} {sends : List Sent} {s : Sent}
    (hfollows : Follows setup payload opened (sends ++ [s]))
    (hs : s = Schedule.made setup payload opened sends sends.length) :
    OnSchedule setup payload now opened (step
      { setup := setup, now := s.settled, stat := stat, sent := s :: sends.reverse,
        phase := .sending ⟨setup.rate, Clock.nanos opened, sends.length⟩
          (payload sends.length).length (attempt setup payload sends.length).2 }) := by
  have hlength : (sends ++ [s]).length = sends.length + 1 := by simp
  have hsent : s :: sends.reverse = (sends ++ [s]).reverse := by simp
  have hfree : freeAt opened (sends ++ [s]) (sends.length + 1) = s.settled := freeAt_snoc s
  have hgoes : goesOn (sends ++ [s]) (sends.length + 1) =
      (attempt setup payload sends.length).2.isOk := by
    rw [hs]
    exact goesOn_snoc
  have hfailure := @failure?_snoc setup payload sends s
  cases hattempt : (attempt setup payload sends.length).2 with
  | error error =>
    rw [hattempt] at hfailure hgoes
    have hlast : ¬ IsMade setup opened (sends ++ [s]) (sends ++ [s]).length := by
      intro hmade
      have := hmade.goesOn
      rw [hlength, hgoes] at this
      cases this
    have hexit : exit setup payload opened (sends ++ [s]) = .failed error := by
      unfold exit
      rw [hfailure]
    have hends : endsAt setup payload opened (sends ++ [s]) = s.settled := by
      unfold endsAt
      rw [hexit, hlength]
      exact hfree
    have h := @OnSchedule.stopped setup payload now opened
      ((stat.onError error).onFinished (Clock.nanos s.settled)) _ hfollows hlast
    rw [hends, hexit, ← hsent] at h
    exact h
  | ok u =>
    rw [hattempt] at hgoes
    have hwaits : Waits setup opened (sends ++ [s]) s.settled := by
      refine ⟨?_, ?_, ?_, ?_⟩
      · rw [hlength]
        exact hgoes
      · rw [hlength, hfree]
      · rw [hlength, ← hfree]
        exact freeAt_le_startAt _ _
      · rw [hlength, hfree]
        exact fun hlt => absurd hlt (Nat.lt_irrefl _)
    have h := @OnSchedule.looking setup payload now opened _ ((stat.onRequests 1).onSend
      (UInt64.ofNat (payload sends.length).length)) _ hfollows hwaits
    unfold looking at h
    rw [hlength, ← hsent] at h
    exact h

/-- **Step lemma.** Every step of an engine keeps it on its schedule. -/
theorem OnSchedule.step {delay : Nat} (h : IsPaceable setup payload opened)
    (hconnect : bounded setup setup.target.connect = (delay, .ok ())) (hopened : opened = now + delay)
    {e : Engine} (he : OnSchedule setup payload now opened e) :
    OnSchedule setup payload now opened e.step := by
  cases he with
  | connecting =>
    have hstep : Engine.step { setup := setup, now := now } =
        { setup := setup, now := opened, phase := .opening (.ok ()) } := by
      simp only [Engine.step, hconnect, hopened]
    rw [hstep]
    exact .opening
  | opening =>
    have hwaits : Waits setup opened [] opened :=
      ⟨rfl, Nat.le_refl _, Nat.le_max_left _ _, fun hlt => absurd hlt (Nat.lt_irrefl _)⟩
    exact .looking follows_nil hwaits
  | looking hfollows hwaits => exact onSchedule_look h hfollows hwaits
  | sending hfollows hs => exact onSchedule_settle hfollows hs
  | stopped hfollows hlast => exact .stopped hfollows hlast

/-- **Run lemma.** However many steps an engine takes, it stays on its schedule. -/
theorem OnSchedule.steps {delay : Nat} (h : IsPaceable setup payload opened)
    (hconnect : bounded setup setup.target.connect = (delay, .ok ())) (hopened : opened = now + delay)
    (n : Nat) {e : Engine} (he : OnSchedule setup payload now opened e) :
    OnSchedule setup payload now opened (Engine.steps n e) :=
  of_steps (fun _ hd => hd.step h hconnect hopened) n he

/-- An engine that is on its schedule and has stopped is described by it. -/
theorem OnSchedule.describes (h : IsPaceable setup payload opened) {e : Engine}
    (he : OnSchedule setup payload now opened e) (hstopped : e.isStopped = true) :
    Describes setup payload opened e := by
  cases he with
  | connecting | opening | looking | sending => cases hstopped
  | stopped hfollows hlast =>
    refine ⟨?_, ?_, ?_, ?_, ?_, ?_⟩ <;> simp only [List.reverse_reverse]
    · exact hfollows.isMade_iff hlast
    · exact hfollows.made
    · exact hfollows.countP_le h.exact.rate_pos
    · intro k s hs hfree
      rw [hfollows.made k s hs]
      exact Nat.max_eq_right hfree

/-- The words of a pacer suffice for every run of at most the longest time whose transactions can be
    counted. -/
theorem isExactUntil_of_span {rate opened deadline : Nat} (hrate : 1 ≤ rate)
    (hspan : deadline ≤ opened + Clock.seconds maxSeconds)
    (hwords : rate * (deadline - opened) < 1000 * Text.wordMax) :
    (Pacer.start rate (Clock.nanos opened)).IsExactUntil (Clock.nanos deadline) := by
  have hsub : Clock.nanos deadline - Clock.nanos opened = (deadline - opened) * 1000000 := by
    unfold Clock.nanos
    omega
  refine ⟨hrate, ?_, ?_⟩
  · have hmax : Clock.seconds maxSeconds * 1000000 < Text.wordMax := by decide
    show Clock.nanos deadline - Clock.nanos opened < Text.wordMax
    omega
  · show (Clock.nanos deadline - Clock.nanos opened) * rate < Text.wordMax * Pacer.secondNs
    rw [hsub]
    calc (deadline - opened) * 1000000 * rate
        = rate * (deadline - opened) * 1000000 := by ring
      _ < 1000 * Text.wordMax * 1000000 := Nat.mul_lt_mul_of_pos_right hwords (by decide)
      _ = Text.wordMax * Pacer.secondNs := by decide

/-- **The pacing loop refines the drift-free schedule.** Let the connect of an engine complete in
    time, let its client not fail, and let its transactions up to the deadline be countable with a
    word. Then its run ends, and the schedule describes it: which sends are made, when, what comes of
    them, how the engine stops and when. -/
theorem run_describes {delay : Nat} (hconnect : setup.target.connect = .after delay (.ok ()))
    (hdelay : delay ≤ setup.timeoutMs) (hclient : ∀ k, setup.client k = .ok (payload k))
    (hrate : 1 ≤ setup.rate)
    (hspan : setup.deadline ≤ now + delay + Clock.seconds maxSeconds)
    (hwords : setup.rate * (setup.deadline - (now + delay)) < 1000 * Text.wordMax) :
    Describes setup payload (now + delay) (run { setup := setup, now := now }) := by
  have h : IsPaceable setup payload (now + delay) :=
    ⟨hclient, isExactUntil_of_span hrate hspan hwords⟩
  have hbounded : bounded setup setup.target.connect = (delay, .ok ()) := by
    simp [bounded, hconnect, Awaited.within, hdelay]
  have hon : OnSchedule setup payload now (now + delay) (run { setup := setup, now := now }) :=
    OnSchedule.connecting.steps h hbounded rfl _
  have hpaced : IsPaced { setup := setup, now := now } := by
    simp only [IsPaced, hbounded]
    exact h.exact
  exact hon.describes h (isStopped_run hpaced)

/-- An engine with a hundred transactions a second, whose second send takes 25 ms and whose fifth
    one fails. -/
def lateSend : EngineSetup where
  endpoint := default
  rate := 100
  limit := some 9
  mode := .sync
  timeoutMs := 1000
  spawned := 0
  deadline := 200
  client := fun _ => .ok [1, 2, 3]
  target :=
    { connect := .after 3 (.ok ())
      send := fun s =>
        if s.index = 1 then .after 25 (.ok ())
        else if s.index = 4 then .after 1 (.error (.rpc "full"))
        else .after 2 (.ok ()) }

/-- The sends after the late one are made as soon as the engine is free, or when they are due. -/
theorem run_describes_lateSend :
    Describes lateSend (fun _ => [1, 2, 3]) 3 (run { setup := lateSend, now := 0 }) ∧
      (run { setup := lateSend, now := 0 }).sent.reverse.map (·.submitted) = [3, 13, 38, 40, 43] ∧
      (run { setup := lateSend, now := 0 }).exit? = some (.failed (.rpc "full")) :=
  ⟨@run_describes lateSend (fun _ => [1, 2, 3]) 0 3 rfl (by decide) (fun _ => rfl) (by decide)
    (by decide) (by decide), by decide +kernel, by decide +kernel⟩

end Engine

end TxLoad
