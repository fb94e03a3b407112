import TxLoad.Proofs.Deployment.Timed

namespace TxLoad

/-!
# Workers on the common clock

* `Member.IsOnTime`: a worker on a clock, whose links hold, is not behind the clock.
* `Member.Prepares.operate`, `Member.Plays.operate`: a worker that was sent the configuration goes on
  to answer it in time, and one that was told to start goes on to send its last report in time.
* `Member.heard_eq_of_isQuiet`, `Member.mem_arrived_of_isQuiet`: before time goes on, whoever listens
  has read everything, and all that was sent has arrived.
-/

namespace Member

variable {m : Member} {c : Coordinator} {q clock first last : Nat}

/-! ### Links that hold -/

/-- What has been read and what waits to be read was delivered, in this order. -/
theorem Linked.arrived_eq (h : m.Linked c q) (hfault : m.down.fault = none) :
    m.worker.heard ++ m.worker.inbox =
      ((c.deliveredTo q).take m.down.carried).map .message := by
  rw [h.down.arrived_eq, hfault, Option.toList_none, List.append_nil]

/-- The first reading that waits is the next message that was delivered. -/
theorem Linked.next_reading (h : m.Linked c q) (hfault : m.down.fault = none) {r : Reading}
    {inbox : List Reading} (hin : m.worker.inbox = r :: inbox) :
    ∃ x, r = .message x ∧ (c.deliveredTo q)[m.worker.heard.length]? = some x := by
  have hget : (m.worker.heard ++ m.worker.inbox)[m.worker.heard.length]? = some r := by
    simp [hin]
  rw [h.arrived_eq hfault, List.getElem?_map, Option.map_eq_some_iff] at hget
  obtain ⟨x, hx, rfl⟩ := hget
  rw [List.getElem?_take] at hx
  split at hx
  · exact ⟨x, rfl, hx⟩
  · cases hx

/-- What has been read was delivered first. -/
theorem Linked.heard_isPrefix (h : m.Linked c q) (hfault : m.down.fault = none) :
    m.worker.heard <+: (c.deliveredTo q).map .message := by
  have harrived := h.arrived_eq hfault
  rw [List.map_take] at harrived
  exact (List.prefix_append _ _).trans (harrived ▸ List.take_prefix _ _)

/-- What holds of a worker on the common clock as long as links hold. -/
structure IsOnTime (m : Member) (clock : Nat) : Prop where
  now : clock ≤ m.worker.now
  unbroken : m.worker.IsUnbroken
  excused : m.worker.Excused
  /-- The link to the coordinator is closed only after all that was sent has arrived. -/
  up : m.up.fault = none ∨ m.worker.isStopped = true ∧ m.worker.sent.length ≤ m.up.carried
  down : m.down.fault = none

theorem isOnTime_start (setup : WorkerSetup) (now : Nat) :
    ({ worker := .start setup now } : Member).IsOnTime 0 where
  now := Nat.zero_le _
  unbroken := ⟨rfl, fun x hx => by cases hx⟩
  excused e he := by cases he
  up := .inl rfl
  down := rfl

namespace IsOnTime

/-- Nothing but messages waits to be read. -/
theorem inbox_message (h : m.IsOnTime clock) (hinv : m.Inv c) :
    ∀ r ∈ m.worker.inbox, ∃ x, r = .message x := by
  intro r hr
  have hmem := List.mem_append_right m.worker.heard hr
  cases hq : m.peer? with
  | none =>
    rw [(hinv.unlinked hq).arrived] at hmem
    cases hmem
  | some q =>
    rw [(hinv.linked q hq).arrived_eq h.down] at hmem
    obtain ⟨x, -, rfl⟩ := List.mem_map.mp hmem
    exact ⟨x, rfl⟩

theorem arrived_le (h : m.IsOnTime clock) : m.up.fault = none ∨
    m.worker.sent.length ≤ m.up.carried := h.up.imp_right And.right

/-- Whatever a worker does by itself, in no time, keeps it on time. -/
theorem operate (h : m.IsOnTime clock) (hinv : m.Inv c) {e : WorkerEvent}
    (he : e.isPrompt = true) : { m with worker := m.worker.step e }.IsOnTime clock := by
  have hadvance : ∀ ms, e ≠ .advance ms := by
    rintro ms rfl
    cases he
  have hsever : e ≠ .sever := by
    rintro rfl
    cases he
  refine ⟨?_, h.unbroken.step hsever, h.excused.step hinv.worker h.unbroken e, ?_, h.down⟩
  · exact (m.worker.now_step hadvance).symm ▸ h.now
  · refine h.up.imp_right fun ⟨hstopped, hall⟩ => ?_
    obtain ⟨result, hresult⟩ := Option.isSome_iff_exists.mp hstopped
    have hp := Worker.phase_of_result hresult
    have hsent : (m.worker.step e).sent = m.worker.sent := by
      rw [Worker.sent, Worker.log_step_of_stopped hp e, Worker.sent]
    refine ⟨?_, hsent.symm ▸ hall⟩
    simp [Worker.isStopped, Worker.result?, (Worker.step_of_stopped hp e).1]

theorem ascend (h : m.IsOnTime clock) {r : Reading} {up : Link}
    (hn : m.up.next? m.worker.sent none = some (r, up)) : { m with up }.IsOnTime clock := by
  refine ⟨h.now, h.unbroken, h.excused, .inl ?_, h.down⟩
  cases hf : m.up.fault with
  | some f => simp [Link.next?, hf] at hn
  | none =>
    simp only [Link.next?, hf, Option.map_eq_some_iff, Prod.mk.injEq] at hn
    obtain ⟨_, -, -, rfl⟩ := hn
    rfl

/-- The worker has stopped and closes its link. -/
theorem close (h : m.IsOnTime clock) (hstopped : m.worker.isStopped = true)
    (hall : m.worker.sent.length ≤ m.up.carried) {r : Reading} {up : Link}
    (hn : m.up.next? m.worker.sent (some .ended) = some (r, up)) :
    { m with up }.IsOnTime clock := by
  refine ⟨h.now, h.unbroken, h.excused, .inr ⟨hstopped, ?_⟩, h.down⟩
  cases hf : m.up.fault with
  | some f => simp [Link.next?, hf] at hn
  | none =>
    simp only [Link.next?, hf, Option.some.injEq, Prod.mk.injEq] at hn
    obtain ⟨-, rfl⟩ := hn
    exact hall

theorem descend (h : m.IsOnTime clock) {sent : List Message} {r : Reading} {down : Link}
    (hn : m.down.next? sent none = some (r, down)) :
    { m with worker := m.worker.step (.arrive r), down }.IsOnTime clock := by
  have hunbroken : (m.worker.step (.arrive r)).IsUnbroken := h.unbroken.step fun h => by cases h
  refine ⟨h.now, hunbroken, fun e he => (h.excused e he).congr rfl rfl, h.up, ?_⟩
  simp only [Link.next?, h.down, Option.map_eq_some_iff, Prod.mk.injEq] at hn
  obtain ⟨_, -, -, rfl⟩ := hn
  rfl

/-- Time passes. -/
theorem advance (h : m.IsOnTime clock) (hinv : m.Inv c) {ms later : Nat}
    (hnow : later ≤ (m.worker.step (.advance ms)).now) :
    { m with worker := m.worker.step (.advance ms) }.IsOnTime later := by
  have hunbroken : (m.worker.step (.advance ms)).IsUnbroken :=
    h.unbroken.step fun h => by cases h
  refine ⟨hnow, hunbroken, h.excused.step hinv.worker h.unbroken _, ?_, h.down⟩
  obtain ⟨now, -, -, hstep⟩ := m.worker.step_advance ms
  exact hstep.symm ▸ h.up

/-- Whoever closes its link has stopped, and all that it has sent was read. -/
theorem heardFrom_of_closed (h : m.IsOnTime clock) (hinv : m.Inv c) (hq : m.peer? = some q)
    {r : Reading} {rest : List Reading} (hin : c.inbox q = r :: rest)
    (hr : ∀ x, r ≠ .message x) :
    m.worker.isStopped = true ∧ c.heardFrom q = m.worker.sent.map .message := by
  have hup := (hinv.linked q hq).up
  rw [hin] at hup
  obtain ⟨hfault, hheard⟩ := hup.of_fault hr
  obtain ⟨hstopped, hall⟩ := h.up.resolve_left (by simp [hfault])
  rw [List.take_of_length_le hall] at hheard
  exact ⟨hstopped, hheard⟩

end IsOnTime

/-! ### Answering the configuration -/

/-- A worker that was sent the configuration answers it in time: it has still to read it, at once, or
    has done so. -/
inductive Prepares (m : Member) (clock first last : Nat) : Prop
  | greeted (hnow : clock = first)
    (hp : m.worker.phase = .greeting ∨ m.worker.phase = .awaitingConfig)
  | briefed (h : m.worker.Answers first last)

/-- A worker that was told to start sends its last report in time: it has still to read the start, at
    once, or has done so. -/
inductive Plays (m : Member) (clock first last : Nat) : Prop
  | ready {cfg : Config} {clients : List Client} {pool : Pool} (hnow : clock = first)
    (hp : m.worker.phase = .ready cfg clients pool)
  | launched (h : m.worker.Performs first last)

/-- **Answering.** Whatever a worker does that was sent the configuration, it answers in time. -/
theorem Prepares.operate {x : UInt64} {cfg : Config} (hinv : m.Inv c) (ht : m.IsOnTime clock)
    (hq : m.peer? = some q) (hdelivered : c.deliveredTo q = [.hello (some x), .config cfg])
    (h : m.Prepares clock first (first + Discovery.waitMs cfg)) {e : WorkerEvent}
    (hnow : m.worker.now ≤ clock) :
    { m with worker := m.worker.step e }.Prepares clock first (first + Discovery.waitMs cfg) := by
  have hl := hinv.linked q hq
  cases h with
  | briefed h => exact .briefed (h.step ht.unbroken.writable e)
  | greeted hclock hp =>
    by_cases he : e = .read
    · subst he
      cases hin : m.worker.inbox with
      | nil =>
        rw [Worker.step_read_of_empty hin]
        exact .greeted hclock hp
      | cons r inbox =>
        obtain ⟨y, rfl, hy⟩ := hl.next_reading ht.down hin
        rw [hdelivered] at hy
        rcases hp with hp | hp
        · rw [hinv.worker.heard_of_greeting hp] at hy
          cases hy
          exact .greeted hclock (.inr (Worker.phase_read_hello hp hin))
        · obtain ⟨z, hz⟩ := hinv.worker.heard_of_awaiting hp
          rw [hz] at hy
          cases hy
          have hanswers := Worker.answers_read ht.unbroken.writable hp hin
          rw [show m.worker.now = first from Nat.le_antisymm (hclock ▸ hnow) (hclock ▸ ht.now)]
            at hanswers
          exact .briefed hanswers
    · have htimer : m.worker.timer? = none := by
        rcases hp with hp | hp <;> simp [Worker.timer?, hp]
      exact .greeted hclock (by rw [Worker.phase_step_of_timer htimer he]; exact hp)

/-- **Running.** Whatever a worker does that was told to start, it sends its last report in time. -/
theorem Plays.operate {x : UInt64} {cfg : Config} {more : List Message} (hinv : m.Inv c)
    (ht : m.IsOnTime clock) (hq : m.peer? = some q)
    (hdelivered : c.deliveredTo q = .hello (some x) :: .config cfg :: .start :: more)
    (hlast : last = first + Clock.seconds cfg.time.toNat + Clock.seconds cfg.sendTimeout.toNat)
    (h : m.Plays clock first last) {e : WorkerEvent} (hnow : m.worker.now ≤ clock) :
    { m with worker := m.worker.step e }.Plays clock first last := by
  have hl := hinv.linked q hq
  cases h with
  | launched h =>
    exact .launched (h.step ht.unbroken.writable (fun _ => ht.inbox_message hinv) e)
  | @ready cfg' clients pool hclock hp =>
    by_cases he : e = .read
    · subst he
      cases hin : m.worker.inbox with
      | nil =>
        rw [Worker.step_read_of_empty hin]
        exact .ready hclock hp
      | cons r inbox =>
        obtain ⟨y, rfl, hy⟩ := hl.next_reading ht.down hin
        obtain ⟨z, hz⟩ := hinv.worker.heard_of_ready hp
        rw [hdelivered, hz] at hy
        cases hy
        -- The configuration that the worker runs is the one that was sent.
        have hprefix := hl.heard_isPrefix ht.down
        rw [hdelivered, hz] at hprefix
        obtain ⟨-, hprefix⟩ := List.cons_prefix_cons.mp hprefix
        obtain ⟨hcfg, -⟩ := List.cons_prefix_cons.mp hprefix
        cases hcfg
        have hperforms := Worker.performs_read hp hin
        rw [show m.worker.now = first from Nat.le_antisymm (hclock ▸ hnow) (hclock ▸ ht.now),
          ← hlast] at hperforms
        exact .launched hperforms
    · have htimer : m.worker.timer? = none := by simp [Worker.timer?, hp]
      exact .ready hclock ((Worker.phase_step_of_timer htimer he).trans hp)

theorem Prepares.descend (hw : m.worker.isWritable = true) (h : m.Prepares clock first last)
    (r : Reading) (down : Link) :
    { m with worker := m.worker.step (.arrive r), down }.Prepares clock first last := by
  cases h with
  | greeted hclock hp => exact .greeted hclock hp
  | briefed h => exact .briefed (h.step hw (.arrive r))

theorem Plays.descend (hinv : m.Inv c) (ht : m.IsOnTime clock) (h : m.Plays clock first last)
    (r : Reading) (down : Link) :
    { m with worker := m.worker.step (.arrive r), down }.Plays clock first last := by
  cases h with
  | ready hclock hp => exact .ready hclock hp
  | launched h =>
    exact .launched (h.step ht.unbroken.writable (fun _ => ht.inbox_message hinv) (.arrive r))

/-- Links do not matter for what a worker does. -/
theorem Prepares.up (h : m.Prepares clock first last) (up : Link) :
    { m with up }.Prepares clock first last := by
  cases h with
  | greeted hclock hp => exact .greeted hclock hp
  | briefed h => exact .briefed h

theorem Plays.up (h : m.Plays clock first last) (up : Link) :
    { m with up }.Plays clock first last := by
  cases h with
  | ready hclock hp => exact .ready hclock hp
  | launched h => exact .launched h

/-- A worker that was told to start has sent its last report when it stops. -/
theorem Plays.tells_of_stopped (h : m.Plays clock first last) (hs : m.worker.isStopped = true) :
    m.worker.TellsWithin first last Message.isLastReport := by
  cases h with
  | ready _ hp => simp [Worker.isStopped, Worker.result?, hp] at hs
  | launched h =>
    cases h with
    | running hp => simp [Worker.isStopped, Worker.result?, hp] at hs
    | performed h => exact h

/-! ### Before time goes on -/

/-- Before time goes on, whoever listens has read all that was delivered. -/
theorem heard_eq_of_isQuiet (hinv : m.Inv c) (ht : m.IsOnTime clock) (hq : m.peer? = some q)
    (hquiet : m.isQuiet c = true) (hlisten : m.worker.isListening = true) :
    m.worker.heard = (c.deliveredTo q).map .message := by
  have hl := hinv.linked q hq
  simp only [isQuiet, hq, Bool.and_eq_true, Bool.not_eq_true', Option.all_some,
    Option.isNone_iff_eq_none] at hquiet
  obtain ⟨hread, -, hdown⟩ := hquiet
  have hin : m.worker.inbox = [] := by
    simpa [Worker.canHappen, hlisten] using hread
  have hcarried : (c.deliveredTo q).length ≤ m.down.carried := by
    simpa [Link.next?, ht.down] using hdown
  have harrived := hl.arrived_eq ht.down
  rwa [hin, List.append_nil, List.take_of_length_le hcarried] at harrived

/-- Before time goes on, whoever was sent the configuration has read it. -/
theorem Prepares.answers_of_isQuiet {x : UInt64} {cfg : Config} (hinv : m.Inv c)
    (ht : m.IsOnTime clock) (hq : m.peer? = some q)
    (hdelivered : c.deliveredTo q = [.hello (some x), .config cfg])
    (hquiet : m.isQuiet c = true) (h : m.Prepares clock first last) :
    m.worker.Answers first last := by
  cases h with
  | briefed h => exact h
  | greeted hclock hp =>
    have hheard := heard_eq_of_isQuiet hinv ht hq hquiet
      (by rcases hp with hp | hp <;> simp [Worker.isListening, hp])
    rw [hdelivered] at hheard
    rcases hp with hp | hp
    · rw [hinv.worker.heard_of_greeting hp] at hheard
      cases hheard
    · obtain ⟨y, hy⟩ := hinv.worker.heard_of_awaiting hp
      rw [hy] at hheard
      cases hheard

/-- Before time goes on, whoever was told to start has read it. -/
theorem Plays.performs_of_isQuiet {x : UInt64} {cfg : Config} {more : List Message}
    (hinv : m.Inv c) (ht : m.IsOnTime clock) (hq : m.peer? = some q)
    (hdelivered : c.deliveredTo q = .hello (some x) :: .config cfg :: .start :: more)
    (hquiet : m.isQuiet c = true) (h : m.Plays clock first last) :
    m.worker.Performs first last := by
  cases h with
  | launched h => exact h
  | ready hclock hp =>
    have hheard := heard_eq_of_isQuiet hinv ht hq hquiet (by simp [Worker.isListening, hp])
    obtain ⟨y, hy⟩ := hinv.worker.heard_of_ready hp
    rw [hdelivered, hy] at hheard
    cases hheard

/-- Before time goes on, all that a worker has sent has arrived. -/
theorem mem_arrived_of_isQuiet (hinv : m.Inv c) (ht : m.IsOnTime clock) (hq : m.peer? = some q)
    (hquiet : m.isQuiet c = true) {x : Message} (hx : x ∈ m.worker.sent) :
    .message x ∈ c.heardFrom q ++ c.inbox q := by
  have hl := hinv.linked q hq
  simp only [isQuiet, hq, Bool.and_eq_true, Bool.not_eq_true', Option.all_some,
    Option.isNone_iff_eq_none] at hquiet
  have hcarried : m.worker.sent.length ≤ m.up.carried := by
    rcases ht.arrived_le with hfault | hall
    · simpa [Link.next?, hfault] using hquiet.2.1
    · exact hall
  rw [hl.up.arrived_eq, List.take_of_length_le hcarried]
  exact List.mem_append_left _ (List.mem_map_of_mem hx)

end Member

end TxLoad
