import TxLoad.Proofs.Engine.Asking
import TxLoad.Proofs.Engine.Schedule
import TxLoad.Proofs.Engine.Tally

namespace TxLoad

/-!
# Engines that nothing hinders

Where the far side accepts everything at once, an engine is always free when its next transaction
becomes due. Its schedule then is no recurrence anymore: the sends are those that are due before the
deadline, as far as the count allows them, each at its own instant.

* `Pacer.dueMs_eq` is the instant of a transaction in whole milliseconds, and `Pacer.dueMs_lt_iff`
  says how many of these instants lie before another one.
* `Schedule.quota` is the number of sends, `Schedule.finishMs` the instant at which the engine
  stops.
* `Schedule.Follows.sends_eq`: the sends of the schedule in closed form.
* `Engine.IsStamped`: the instants among the counters.
* `Engine.achieves_run`: what the run of such an engine comes to.
-/

namespace Pacer

variable {rate : Nat}

/-- A transaction is due after as many milliseconds as its predecessors fill, rounded up. -/
theorem dueMs_eq (h : 0 < rate) (opened k : Nat) :
    dueMs rate opened k = opened + (1000 * k) ⌈/⌉ rate := by
  -- The two instants have the same milliseconds `t` after them.
  apply eq_of_forall_ge_iff
  intro t
  rw [dueMs, Clock.ceilMs_le_iff]
  by_cases ht : opened ≤ t
  · obtain ⟨d, rfl⟩ := Nat.exists_eq_add_of_le ht
    have hnanos : Clock.nanos (opened + d) = Clock.nanos opened + 1000000 * d := by
      unfold Clock.nanos
      omega
    have hleft : k * secondNs = 1000000 * (1000 * k) := by
      unfold secondNs
      omega
    have hright : 1000000 * d * rate = 1000000 * (rate * d) := by ring
    rw [hnanos, Nat.add_le_add_iff_left, Nat.add_le_add_iff_left, offset_le_iff h,
      ceilDiv_le_iff_le_mul h, hleft, hright]
    exact Nat.mul_le_mul_left_iff (by decide)
  · have hlt := Clock.nanos_lt_nanos (Nat.not_le.mp ht)
    omega

/-- How many transactions are due within a span of milliseconds, the last instant excluded. -/
def dueWithin (rate span : Nat) : Nat := (span - 1) * rate / 1000 + 1

/-- Exactly the first of all transactions are due before the end of a span, as many as that. -/
theorem dueMs_lt_iff (h : 0 < rate) {span : Nat} (hspan : 0 < span) (opened k : Nat) :
    dueMs rate opened k < opened + span ↔ k < dueWithin rate span := by
  rw [dueMs_eq h, Nat.add_lt_add_iff_left, dueWithin, Nat.lt_succ_iff,
    Nat.le_div_iff_mul_le (by decide), ← Nat.le_sub_one_iff_lt hspan, ceilDiv_le_iff_le_mul h,
    Nat.mul_comm k, Nat.mul_comm rate]

theorem dueMs_le_dueMs (h : 0 < rate) (opened : Nat) {k l : Nat} (hle : k ≤ l) :
    dueMs rate opened k ≤ dueMs rate opened l := by
  have hfilled := (offset_le_iff h l _).mp (Nat.le_refl _)
  have hoffset : offset rate k ≤ offset rate l :=
    (offset_le_iff h k _).mpr (Nat.le_trans (Nat.mul_le_mul_right _ hle) hfilled)
  exact Clock.ceilMs_le_ceilMs (Nat.add_le_add_left hoffset _)

end Pacer

namespace Schedule

/-! ### The schedule in closed form -/

section

variable (setup : EngineSetup) (payload : Nat → Payload) (opened : Nat)

/-- The number of sends: those due before the deadline, as far as the count allows them. -/
def quota : Nat :=
  let due := Pacer.dueWithin setup.rate (setup.deadline - opened)
  match setup.limit with
  | some count => min count due
  | none => due

/-- The instant at which the engine stops: after the last send that its count allows, if it comes to
    that, and at the deadline otherwise. -/
def finishMs : Nat :=
  match setup.limit with
  | some count =>
    if count ≤ Pacer.dueWithin setup.rate (setup.deadline - opened) then
      Pacer.dueMs setup.rate opened (quota setup opened - 1)
    else setup.deadline
  | none => setup.deadline

/-- The send with the number `k`, made when it is due and accepted at once. -/
def prompt (k : Nat) : Sent where
  submitted := Pacer.dueMs setup.rate opened k
  settled := Pacer.dueMs setup.rate opened k
  size := (payload k).length
  accepted := true

/-- What an engine that nothing hinders starts from: the far side accepts everything at once, there
    is time, and the count does not forbid every send. -/
structure IsOpen : Prop where
  target : setup.target = .ideal
  rate_pos : 0 < setup.rate
  deadline : opened < setup.deadline
  limit : setup.limit ≠ some 0

end

variable {setup : EngineSetup} {payload : Nat → Payload} {opened : Nat} {sends : List Sent}

/-- Every send is accepted at once. -/
theorem IsOpen.attempt_eq (h : IsOpen setup opened) (k : Nat) :
    attempt setup payload k = (0, .ok ()) := by
  simp [attempt, Engine.bounded, h.target, Target.ideal]

/-- The first send may be made. -/
theorem IsOpen.quota_pos (h : IsOpen setup opened) : 0 < quota setup opened := by
  have hlimit := h.limit
  unfold quota Pacer.dueWithin
  cases hcount : setup.limit with
  | none => exact Nat.succ_pos _
  | some count =>
    have hne : count ≠ 0 := fun hzero => hlimit (by rw [hcount, hzero])
    simp only
    omega

/-- A send is within the quota exactly if it is due before the deadline and the count allows it. -/
theorem IsOpen.lt_quota_iff (h : IsOpen setup opened) (k : Nat) : k < quota setup opened ↔
    Pacer.dueMs setup.rate opened k < setup.deadline ∧ setup.limit.any (· ≤ k) = false := by
  have hdeadline := h.deadline
  have hspan : setup.deadline = opened + (setup.deadline - opened) := by omega
  have hdue : Pacer.dueMs setup.rate opened k < setup.deadline ↔
      k < Pacer.dueWithin setup.rate (setup.deadline - opened) := by
    conv_lhs => rw [hspan]
    exact Pacer.dueMs_lt_iff h.rate_pos (by omega) opened k
  rw [hdue, quota]
  cases setup.limit with
  | none => simp
  | some count =>
    simp only [Option.any_some, decide_eq_false_iff_not]
    omega

/-- The engine is always free when its next send becomes due. -/
theorem Follows.startAt_eq (h : Follows setup payload opened sends) (hopen : IsOpen setup opened)
    {k : Nat} (hk : k ≤ sends.length) :
    startAt setup opened sends k = Pacer.dueMs setup.rate opened k := by
  induction k with
  | zero =>
    rw [startAt, freeAt]
    exact Nat.max_eq_right (opened_le_dueMs setup.rate opened 0)
  | succ k ih =>
    -- The send before was over as soon as it was made.
    have hs := List.getElem?_eq_getElem hk
    have hfree : freeAt opened sends (k + 1) = Pacer.dueMs setup.rate opened k := by
      rw [freeAt, hs, Option.map_some, Option.getD_some, h.made k _ hs, Schedule.made,
        hopen.attempt_eq, ih (Nat.le_of_succ_le hk), Nat.add_zero]
    rw [startAt, hfree]
    exact Nat.max_eq_right (Pacer.dueMs_le_dueMs hopen.rate_pos opened (Nat.le_succ k))

/-- **Each send is made when it is due**, and it is accepted at once. -/
theorem Follows.eq_prompt (h : Follows setup payload opened sends) (hopen : IsOpen setup opened)
    {k : Nat} {s : Sent} (hs : sends[k]? = some s) : s = prompt setup payload opened k := by
  have hk : k < sends.length := (List.getElem?_eq_some_iff.mp hs).1
  rw [h.made k s hs, Schedule.made, h.startAt_eq hopen (Nat.le_of_lt hk), hopen.attempt_eq, prompt,
    Nat.add_zero]
  rfl

theorem Follows.goesOn_length (h : Follows setup payload opened sends)
    (hopen : IsOpen setup opened) : goesOn sends sends.length = true := by
  rcases List.eq_nil_or_concat sends with rfl | ⟨sends, s, rfl⟩
  · rfl
  · rw [List.concat_eq_append] at h ⊢
    have hs : (sends ++ [s])[sends.length]? = some s := by simp
    rw [List.length_append, List.length_singleton, goesOn, hs, h.eq_prompt hopen hs]
    rfl

/-- The next send is made exactly if it is within the quota. -/
theorem Follows.isMade_length_iff (h : Follows setup payload opened sends)
    (hopen : IsOpen setup opened) :
    IsMade setup opened sends sends.length ↔ sends.length < quota setup opened := by
  -- The send before was accepted in any case, so that only deadline and count decide.
  rw [hopen.lt_quota_iff, ← h.startAt_eq hopen (Nat.le_refl _)]
  constructor
  · intro hmade
    exact ⟨hmade.deadline, hmade.limit⟩
  · rintro ⟨hdeadline, hlimit⟩
    exact ⟨h.goesOn_length hopen, hdeadline, hlimit⟩

/-- **The schedule in closed form.** The sends of an engine that has made its last one are those
    within the quota, each at its own instant. -/
theorem Follows.sends_eq (h : Follows setup payload opened sends) (hopen : IsOpen setup opened)
    (hlast : ¬ IsMade setup opened sends sends.length) :
    sends = (List.range (quota setup opened)).map (prompt setup payload opened) := by
  have hge : quota setup opened ≤ sends.length := by
    rw [h.isMade_length_iff hopen] at hlast
    exact Nat.not_lt.mp hlast
  have hle : ∀ k < sends.length, k < quota setup opened := by
    intro k hk
    have hmade := h.isMade k hk
    rw [hopen.lt_quota_iff, ← h.startAt_eq hopen (Nat.le_of_lt hk)]
    exact ⟨hmade.deadline, hmade.limit⟩
  apply List.ext_getElem?
  intro k
  by_cases hk : k < sends.length
  · have hs := List.getElem?_eq_getElem hk
    rw [hs, h.eq_prompt hopen hs, List.getElem?_map, List.getElem?_range (hle k hk)]
    rfl
  · have hnone : (List.range (quota setup opened))[k]? = none := by
      rw [List.getElem?_eq_none_iff, List.length_range]
      omega
    rw [List.getElem?_eq_none (Nat.not_lt.mp hk), List.getElem?_map, hnone, Option.map_none]

/-- Such an engine stops after its last send or at its deadline. -/
theorem Follows.endsAt_eq (h : Follows setup payload opened sends) (hopen : IsOpen setup opened)
    (hlast : ¬ IsMade setup opened sends sends.length) :
    endsAt setup payload opened sends = finishMs setup opened := by
  have hlength : sends.length = quota setup opened := by
    rw [h.sends_eq hopen hlast, List.length_map, List.length_range]
  obtain ⟨last, hquota⟩ := Nat.exists_eq_add_one_of_ne_zero (Nat.ne_of_gt hopen.quota_pos)
  -- The last send is over when it was due, and that is before the deadline.
  have hfree : freeAt opened sends (last + 1) = Pacer.dueMs setup.rate opened last := by
    have hs := List.getElem?_eq_getElem (show last < sends.length by omega)
    rw [freeAt, hs, h.eq_prompt hopen hs, Option.map_some, Option.getD_some, prompt]
  have hbefore : Pacer.dueMs setup.rate opened last < setup.deadline :=
    ((hopen.lt_quota_iff last).mp (by omega)).1
  have hfailure := h.failure?_eq_none (h.goesOn_length hopen)
  unfold endsAt exit finishMs
  simp only [hfailure, hlength, hquota, hfree, Nat.add_sub_cancel]
  unfold quota at hquota
  cases hcount : setup.limit with
  | none =>
    simp only [Option.any_none, Bool.false_eq_true, and_false, if_false]
    exact Nat.max_eq_right (Nat.le_of_lt hbefore)
  | some count =>
    simp only [hcount] at hquota
    by_cases hle : count ≤ Pacer.dueWithin setup.rate (setup.deadline - opened)
    · have hall : count ≤ last + 1 := by omega
      simp [hbefore, hle, hall]
    · have hall : ¬ count ≤ last + 1 := by omega
      simp only [Option.any_some, hall, decide_false, Bool.false_eq_true, and_false, if_false, hle]
      exact Nat.max_eq_right (Nat.le_of_lt hbefore)

end Schedule

namespace Engine

open Schedule

variable {setup : EngineSetup} {payload : Nat → Payload} {now opened : Nat} {e : Engine}

/-! ### Instants among the counters -/

/-- The instants among the counters of an engine whose connect succeeds at `opened`: that of the
    start once it is connected, that of the finish once it has stopped. -/
def IsStamped (opened : Nat) (e : Engine) : Prop :=
  match e.phase with
  | .connecting => bounded e.setup e.setup.target.connect = (opened - e.now, .ok ()) ∧
      e.now ≤ opened ∧ e.stat.started = none ∧ e.stat.finished = none
  | .opening outcome => outcome = .ok () ∧ e.now = opened ∧
      e.stat.started = none ∧ e.stat.finished = none
  | .looping _ | .sending _ _ _ =>
      e.stat.started = some (Clock.nanos opened) ∧ e.stat.finished = none
  | .stopped _ => e.stat.started = some (Clock.nanos opened) ∧
      e.stat.finished = some (Clock.nanos e.now)

theorem isStamped_stop (hstarted : e.stat.started = some (Clock.nanos opened))
    (hfinished : e.stat.finished = none) (exit : Exit) : (e.stop exit).IsStamped opened := by
  cases exit <;>
    simp [IsStamped, stop, ConnectionStat.onFinished, ConnectionStat.onError, hstarted, hfinished]

/-- **Step lemma.** The first start and the first finish are kept, and there are no others. -/
theorem IsStamped.step (h : e.IsStamped opened) : e.step.IsStamped opened := by
  unfold Engine.step
  split
  · rename_i hp
    simp only [IsStamped, hp] at h
    obtain ⟨hconnect, hnow, hstarted, hfinished⟩ := h
    simp only [IsStamped, hconnect]
    exact ⟨trivial, Nat.add_sub_cancel' hnow, hstarted, hfinished⟩
  · rename_i hp
    simp only [IsStamped, hp] at h
    cases h.1
  · rename_i hp
    simp only [IsStamped, hp] at h
    obtain ⟨-, rfl, hstarted, hfinished⟩ := h
    simp [IsStamped, ConnectionStat.onStarted, hstarted, hfinished]
  · rename_i p hp
    simp only [IsStamped, hp] at h
    obtain ⟨hstarted, hfinished⟩ := h
    have hlook := looks_look e p
    generalize e.look p = d at hlook
    cases hlook with
    | cancelled | elapsed | counted | refused => exact isStamped_stop hstarted hfinished _
    | parked =>
      simp only [IsStamped, hp]
      exact ⟨hstarted, hfinished⟩
    | submitted => exact ⟨hstarted, hfinished⟩
  · rename_i hp
    simp only [IsStamped, hp] at h
    exact isStamped_stop h.1 h.2 _
  · rename_i hp
    simp only [IsStamped, hp] at h
    exact h
  · exact h

theorem IsStamped.of_isStopped (h : e.IsStamped opened) (hstopped : e.isStopped = true) :
    e.stat.started = some (Clock.nanos opened) ∧ e.stat.finished = some (Clock.nanos e.now) := by
  unfold isStopped at hstopped
  split at hstopped
  · rename_i hp
    simpa only [IsStamped, hp] using h
  · cases hstopped

/-! ### The run -/

/-- What an engine has come to that nothing has hindered. -/
structure Achieves (setup : EngineSetup) (opened size : Nat) (e : Engine) : Prop where
  isStopped : e.isStopped = true
  /-- The sends are those within the quota, each made when it is due. -/
  submitted : e.sent.reverse.map (·.submitted) =
    (List.range (quota setup opened)).map (Pacer.dueMs setup.rate opened)
  counted : e.Counted
  /-- All sends were accepted. -/
  requests : e.tally.requests = quota setup opened
  bytes : e.tally.bytes = quota setup opened * size
  started : e.stat.started = some (Clock.nanos opened)
  finished : e.stat.finished = some (Clock.nanos (finishMs setup opened))

/-- An engine that has stopped on its schedule has made the sends of the closed form. -/
theorem OnSchedule.closed (he : OnSchedule setup payload now opened e)
    (hopen : IsOpen setup opened) (hstopped : e.isStopped = true) :
    e.sent.reverse = (List.range (quota setup opened)).map (prompt setup payload opened) ∧
      e.now = finishMs setup opened := by
  cases he with
  | connecting | opening | looking | sending => cases hstopped
  | stopped hfollows hlast =>
    simp only [List.reverse_reverse]
    exact ⟨hfollows.sends_eq hopen hlast, hfollows.endsAt_eq hopen hlast⟩

/-- Connecting takes no time. -/
theorem bounded_connect_of_isOpen (hopen : IsOpen setup opened) :
    bounded setup setup.target.connect = (0, .ok ()) := by
  simp [bounded, hopen.target, Target.ideal]

/-- The run of an engine whose client never fails is in closed form. -/
theorem closed_run (hopen : IsOpen setup now) (hclient : ∀ k, setup.client k = .ok (payload k))
    (hpaced : IsPaced { setup := setup, now := now }) :
    (run { setup := setup, now := now }).sent.reverse =
        (List.range (quota setup now)).map (prompt setup payload now) ∧
      (run { setup := setup, now := now }).now = finishMs setup now := by
  have hconnect := bounded_connect_of_isOpen hopen
  have hexact : (Pacer.start setup.rate (Clock.nanos now)).IsExactUntil
      (Clock.nanos setup.deadline) := by
    simpa only [IsPaced, hconnect, Nat.add_zero] using hpaced
  have hon : OnSchedule setup payload now now (run { setup := setup, now := now }) :=
    OnSchedule.connecting.steps ⟨hclient, hexact⟩ hconnect rfl _
  exact hon.closed hopen (isStopped_run hpaced)

/-- The true numbers of a stopped engine are those of its sends, if all of these were accepted. -/
theorem tally_of_accepted (hstopped : e.isStopped = true)
    (haccepted : ∀ s ∈ e.sent, s.accepted = true) :
    e.tally.requests = e.sent.reverse.length ∧
      e.tally.bytes = (e.sent.reverse.map (·.size)).sum := by
  have hsettled : e.settledSends = e.sent := by
    unfold isStopped at hstopped
    unfold settledSends
    split
    · rename_i hp
      simp [hp] at hstopped
    · rfl
  have hall : e.acceptedSends = e.sent.reverse := by
    rw [acceptedSends, hsettled, List.filter_eq_self.mpr haccepted]
  rw [tally, hall]
  exact ⟨rfl, rfl⟩

/-- So is the run of an engine whose client answers as far as the engine may ask: with a client that
    never fails it does the same. -/
theorem exists_closed_run {bound size : Nat} (hopen : IsOpen setup setup.spawned)
    (hpaced : IsPaced { setup := setup, now := setup.spawned }) (hs : KeepsWithin setup bound)
    (hsize : ∀ n < bound, ∃ payload, setup.client n = .ok payload ∧ payload.length = size) :
    ∃ payload : Nat → Payload, (∀ n, (payload n).length = size) ∧
      (run { setup := setup, now := setup.spawned }).sent.reverse =
        (List.range (quota setup setup.spawned)).map (prompt setup payload setup.spawned) ∧
      (run { setup := setup, now := setup.spawned }).now = finishMs setup setup.spawned := by
  have htotal : ∀ n, ∃ payload : Payload,
      (n < bound → setup.client n = .ok payload) ∧ payload.length = size := by
    intro n
    by_cases hn : n < bound
    · obtain ⟨payload, hclient, hlength⟩ := hsize n hn
      exact ⟨payload, fun _ => hclient, hlength⟩
    · exact ⟨List.replicate size 0, fun hlt => absurd hlt hn, List.length_replicate⟩
  choose payload hclient hlength using htotal
  have hanswers : ∀ n < bound, (fun n => .ok (payload n) : Client) n = setup.client n :=
    fun n hn => (hclient n hn).symm
  have hsame := (called_fresh setup bound).run_withClient hs hanswers
  have hfree : IsOpen { setup with client := fun n => .ok (payload n) } setup.spawned :=
    ⟨hopen.target, hopen.rate_pos, hopen.deadline, hopen.limit⟩
  obtain ⟨hsent, hnow⟩ := closed_run hfree (fun _ => rfl) hpaced
  rw [withClient] at hsame
  rw [hsame, sent_withClient] at hsent
  rw [hsame, now_withClient] at hnow
  -- The schedule does not depend on the client. The run is generalised so that it is not evaluated.
  generalize run { setup := setup, now := setup.spawned } = d at hsent hnow ⊢
  exact ⟨payload, hlength, hsent, hnow⟩

/-- **What an unhindered engine achieves.** Let the far side of an engine accept everything at once,
    let its client have transactions of one size as far as the engine may ask for them, and let its
    transactions up to the deadline be countable. Then it makes the sends that are due before the
    deadline, as far as its count allows them. -/
theorem achieves_run {bound size : Nat} (hopen : IsOpen setup setup.spawned)
    (hpaced : IsPaced { setup := setup, now := setup.spawned }) (hs : KeepsWithin setup bound)
    (hsize : ∀ n < bound, ∃ payload, setup.client n = .ok payload ∧ payload.length = size) :
    Achieves setup setup.spawned size (run { setup := setup, now := setup.spawned }) := by
  obtain ⟨payload, hlength, hsent, hnow⟩ := exists_closed_run hopen hpaced hs hsize
  have hstopped := isStopped_run hpaced
  have hcounted : (run { setup := setup, now := setup.spawned }).Counted :=
    of_steps (fun _ he => he.step.1) _ (counted_fresh _ _)
  have hstamped : (run { setup := setup, now := setup.spawned }).IsStamped setup.spawned := by
    apply of_steps (fun _ he => he.step)
    simp [IsStamped, bounded_connect_of_isOpen hopen]
  have haccepted : ∀ s ∈ (run { setup := setup, now := setup.spawned }).sent,
      s.accepted = true := by
    intro s hmem
    rw [← List.mem_reverse, hsent] at hmem
    obtain ⟨k, -, rfl⟩ := List.mem_map.mp hmem
    rfl
  obtain ⟨hrequests, hbytes⟩ := tally_of_accepted hstopped haccepted
  obtain ⟨hstarted, hfinished⟩ := hstamped.of_isStopped hstopped
  have hsizes : ((List.range (quota setup setup.spawned)).map
      (prompt setup payload setup.spawned)).map (·.size) =
        List.replicate (quota setup setup.spawned) size := by
    rw [List.map_map, List.eq_replicate_iff]
    simp [prompt, hlength]
  refine ⟨hstopped, ?_, hcounted, ?_, ?_, hstarted, hnow ▸ hfinished⟩
  · rw [hsent, List.map_map]
    rfl
  · rw [hrequests, hsent, List.length_map, List.length_range]
  · rw [hbytes, hsent, hsizes, List.sum_replicate_nat]

end Engine

end TxLoad
