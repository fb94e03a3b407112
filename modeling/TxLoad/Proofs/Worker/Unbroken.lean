import TxLoad.Proofs.Worker.Invariant

namespace TxLoad.Worker

/-!
# Workers whose links hold

* `IsUnbroken`: the writes of a worker have all succeeded.
* `Excused.step`: such a worker fails before the start only if it has not reached its coordinator,
  has rejected the configuration, or has read something else than it expects.
* `Inv.phase_of_greeted`, `Inv.phase_of_ready`: so a worker that has been told nothing unexpected
  still waits.
-/

variable {w : Worker}

/-! ### Writes that succeed -/

/-- The link of the worker holds: all its writes have succeeded, and the next one will. -/
structure IsUnbroken (w : Worker) : Prop where
  writable : w.isWritable = true
  delivered : ∀ x ∈ w.log, x.delivered = true

theorem IsUnbroken.sent_eq (h : w.IsUnbroken) : w.sent = w.told := by
  rw [sent, told, List.filter_eq_self.mpr h.delivered]

theorem IsUnbroken.write (h : w.IsUnbroken) (m : Message) : (w.write m).IsUnbroken := by
  refine ⟨h.writable, fun x hx => ?_⟩
  rcases List.mem_append.mp hx with hx | hx
  · exact h.delivered x hx
  · rw [List.mem_singleton.mp hx]
    exact h.writable

theorem writeThen_eq (h : w.isWritable = true) (m : Message) (next : WorkerPhase) :
    w.writeThen m next = { w.write m with phase := next } := by
  rw [writeThen, if_pos h]

theorem IsUnbroken.writeThen (h : w.IsUnbroken) (m : Message) (next : WorkerPhase) :
    (w.writeThen m next).IsUnbroken := by
  rw [writeThen_eq h.writable]
  exact ⟨(h.write m).writable, (h.write m).delivered⟩

/-- Nothing but breaking the link lets a write fail. -/
theorem IsUnbroken.step (h : w.IsUnbroken) {ev : WorkerEvent} (hev : ev ≠ .sever) :
    (w.step ev).IsUnbroken := by
  have hr := w.reacts_step ev
  generalize w.step ev = v at hr ⊢
  cases hr with
  | sever => exact absurd rfl hev
  | refused | arrive | work | giveUp | interrupt | advance => exact ⟨h.writable, h.delivered⟩
  | reach => exact h.writeThen _ _
  | miss =>
    unfold miss
    split <;> exact ⟨h.writable, h.delivered⟩
  | report =>
    have hwrite := h.write (.statsReport (w.group.report false))
    rw [report, if_pos h.writable]
    exact ⟨hwrite.writable, hwrite.delivered⟩
  | conclude =>
    have hwrite := h.write (.statsReport (w.group.report true))
    rw [conclude, if_pos h.writable]
    exact ⟨hwrite.writable, hwrite.delivered⟩
  | @read r inbox hlisten hin =>
    have htook : (w.took r inbox).IsUnbroken := ⟨h.writable, h.delivered⟩
    have hsame : ∀ phase id group, { w.took r inbox with phase, id, group }.IsUnbroken :=
      fun _ _ _ => ⟨h.writable, h.delivered⟩
    unfold onRead
    split
    case h_3 =>
      unfold configure
      split
      · exact htook.writeThen _ _
      · exact ⟨h.writable, h.delivered⟩
    case h_9 =>
      unfold onRunning
      split
      · exact hsame _ _ _
      · exact htook
      · exact hsame _ _ _
    case h_10 =>
      unfold onFinishing
      split
      · exact hsame _ _ _
      · exact htook
      · exact hsame _ _ _
    case h_11 => exact htook
    all_goals exact hsame _ _ _
  | expire =>
    unfold expire
    split
    · unfold miss
      split <;> exact ⟨h.writable, h.delivered⟩
    · exact ⟨h.writable, h.delivered⟩
    · unfold prepared
      split <;> exact h.writeThen _ _
    · exact ⟨h.writable, h.delivered⟩
    · exact h

/-! ### Workers that wait -/

/-- What a worker has read before the start if it was told nothing unexpected. -/
def IsBriefing (rs : List Reading) : Prop :=
  ∃ x cfg, rs <+: [.message (.hello (some x)), .message (.config cfg)]

theorem IsBriefing.length_le {rs : List Reading} (h : IsBriefing rs) : rs.length ≤ 2 := by
  obtain ⟨x, cfg, h⟩ := h
  exact h.length_le

theorem Launched.two_lt {ts : List Tally} (h : w.Launched ts) : 2 < w.heard.length := by
  obtain ⟨x, cfg, rs, -, hheard⟩ := h.heard
  simp [hheard]

theorem Launched.not_isBriefing {ts : List Tally} (h : w.Launched ts) : ¬ IsBriefing w.heard :=
  fun hbriefing => Nat.not_lt.mpr hbriefing.length_le h.two_lt

/-- Why a worker whose link holds can have failed. -/
inductive Excuse (w : Worker) : Prop
  | unreached (htold : w.told = [])
  | rejected {reason : String} (htold : .reject reason ∈ w.told) (hheard : 2 ≤ w.heard.length)
  | diverted (hheard : ¬ IsBriefing w.heard)

/-- The worker has not failed, or there is an excuse for it. -/
def Excused (w : Worker) : Prop := ∀ e, w.phase = .stopped (.error e) → w.Excuse

theorem Excuse.congr {v : Worker} (h : w.Excuse) (htold : v.told = w.told)
    (hheard : v.heard = w.heard) : v.Excuse := by
  cases h with
  | unreached h => exact .unreached (htold.trans h)
  | rejected ht hh => exact .rejected (htold ▸ ht) (hheard ▸ hh)
  | diverted hh => exact .diverted (hheard ▸ hh)

theorem excused_of_phase {next : WorkerPhase} (hp : w.phase = next)
    (hne : ∀ e, next ≠ .stopped (.error e)) : w.Excused :=
  fun e he => absurd (hp.symm.trans he) (hne e)

/-- A rejection comes after the configuration. -/
theorem excused_reject (hw : w.isWritable = true) (e : Error) (hheard : 2 ≤ w.heard.length) :
    (w.reject e).Excused := by
  intro e' _
  rw [reject, writeThen_eq hw]
  have htold : .reject e.message ∈
      { w.write (.reject e.message) with phase := .stopped (.error e) }.told := by
    simp [told, write]
  exact .rejected htold hheard

theorem excused_configure (hw : w.isWritable = true) (cfg : Config)
    (hheard : 2 ≤ w.heard.length) : (w.configure cfg).Excused := by
  unfold configure
  split
  · exact excused_reject hw _ hheard
  · exact excused_of_phase rfl fun e he => by cases he

/-- What a worker that waits for the coordinator before the start has read. -/
theorem Inv.heard_of_greeting (h : w.Inv) (hp : w.phase = .greeting) : w.heard = [] := by
  cases h with
  | greeting _ h => exact h.heard_eq
  | _ hp' =>
    rw [hp] at hp'
    cases hp'

theorem Inv.heard_of_awaiting (h : w.Inv) (hp : w.phase = .awaitingConfig) :
    ∃ x, w.heard = [.message (.hello (some x))] := by
  cases h with
  | awaiting _ _ h => exact ⟨_, h.heard_eq⟩
  | _ hp' =>
    rw [hp] at hp'
    cases hp'

theorem Inv.heard_of_ready (h : w.Inv) {cfg : Config} {clients : List Client} {pool : Pool}
    (hp : w.phase = .ready cfg clients pool) :
    ∃ x, w.heard = [.message (.hello (some x)), .message (.config cfg)] := by
  cases h with
  | ready hp' _ h =>
    rw [hp] at hp'
    cases hp'
    exact ⟨_, h.heard_eq⟩
  | _ hp' =>
    rw [hp] at hp'
    cases hp'

/-- A worker that stops for what it reads has read something else than it expects. -/
theorem Inv.excused_onRead (h : w.Inv) (hw : w.isWritable = true) (hlisten : w.isListening = true)
    (r : Reading) (inbox : List Reading) : ((w.took r inbox).onRead r).Excused := by
  have hdiverted : ∀ e, ¬ IsBriefing (w.heard ++ [r]) →
      ((w.took r inbox).stop (.error e)).Excused := fun _ hrs _ _ => .diverted hrs
  -- Whoever has read the configuration has nothing to read before the start but an abort.
  have hlong : ∀ e, w.heard.length = 2 → ((w.took r inbox).stop (.error e)).Excused := by
    intro e hlength
    refine hdiverted e fun hbriefing => ?_
    have := hbriefing.length_le
    simp [hlength] at this
  have hsecond : ∀ e, w.phase = .awaitingConfig → (∀ cfg, r ≠ .message (.config cfg)) →
      ((w.took r inbox).stop (.error e)).Excused := by
    intro e hp hne
    obtain ⟨y, hy⟩ := h.heard_of_awaiting hp
    refine hdiverted e fun ⟨x, cfg, hprefix⟩ => ?_
    rw [hy] at hprefix
    have htail := (List.cons_prefix_cons.mp hprefix).2
    exact hne cfg (List.cons_prefix_cons.mp htail).1
  unfold onRead
  split
  · exact excused_of_phase rfl fun e he => by cases he
  · rename_i hne hp
    refine hdiverted _ fun ⟨x, cfg, hprefix⟩ => ?_
    rw [h.heard_of_greeting hp] at hprefix
    exact hne x (List.cons_prefix_cons.mp hprefix).1
  · rename_i cfg hp
    obtain ⟨y, hy⟩ := h.heard_of_awaiting hp
    have htook : (w.took (.message (.config cfg)) inbox).isWritable = true := hw
    exact excused_configure htook cfg (by simp [took, hy])
  · rename_i reason hp
    exact hsecond _ hp fun cfg hr => by cases hr
  · rename_i hne _ hp
    exact hsecond _ hp hne
  · exact excused_of_phase rfl fun e he => by cases he
  · rename_i hp
    obtain ⟨y, hy⟩ := h.heard_of_ready hp
    exact hlong _ (by simp [hy])
  · rename_i hp
    obtain ⟨y, hy⟩ := h.heard_of_ready hp
    exact hlong _ (by simp [hy])
  · rename_i hp
    unfold onRunning
    split
    · exact excused_of_phase hp fun e he => by cases he
    · exact excused_of_phase hp fun e he => by cases he
    · exact excused_of_phase rfl fun e he => by cases he
  · rename_i hp
    unfold onFinishing
    split
    · exact excused_of_phase rfl fun e he => by cases he
    · exact excused_of_phase hp fun e he => by cases he
    · exact excused_of_phase rfl fun e he => by cases he
  · intro e he
    have hp : w.phase = .stopped (.error e) := he
    simp [isListening, hp] at hlisten

/-- **Step lemma.** Whatever happens to a worker whose link holds, it fails for nothing else. -/
theorem Excused.step (h : w.Excused) (hinv : w.Inv) (hu : w.IsUnbroken) (ev : WorkerEvent) :
    (w.step ev).Excused := by
  have hmiss : ∀ deadline, w.phase = .connecting deadline → (w.miss deadline).Excused := by
    intro deadline hp
    obtain ⟨htold, -⟩ := hinv.idle_of_connecting hp
    unfold miss
    split
    · exact fun _ _ => .unreached htold
    · exact excused_of_phase rfl fun e he => by cases he
  have hr := w.reacts_step ev
  generalize w.step ev = v at hr ⊢
  cases hr with
  | refused => exact h
  | arrive | sever | advance => exact fun e he => (h e he).congr rfl rfl
  | reach hp =>
    rw [writeThen_eq hu.writable]
    exact excused_of_phase rfl fun e he => by cases he
  | miss hp => exact hmiss _ hp
  | read hlisten hin => exact hinv.excused_onRead hu.writable hlisten _ _
  | work he hdue => exact fun e hp => absurd he (by simp [hasEngines, show w.phase = _ from hp])
  | report hp hnow =>
    rw [report, if_pos hu.writable]
    exact excused_of_phase rfl fun e he => by cases he
  | conclude hp hs =>
    rw [conclude, if_pos hu.writable]
    exact excused_of_phase rfl fun e he => by cases he
  | giveUp hp hs =>
    intro e he
    cases hinv with
    | abandoning _ hl => exact .diverted hl.not_isBriefing
    | _ hp' =>
      rw [hp] at hp'
      cases hp'
  | interrupt hp hcfg => exact excused_of_phase hp fun e he => by cases he
  | expire he ht hnow hin =>
    unfold expire
    split
    · rename_i hp
      exact hmiss _ hp
    · exact excused_of_phase rfl fun e he => by cases he
    · rename_i hp
      unfold prepared
      split
      · rw [writeThen_eq hu.writable]
        exact excused_of_phase rfl fun e he => by cases he
      · refine excused_reject hu.writable _ ?_
        cases hinv with
        | preparing _ _ hi => simp [hi.heard_eq]
        | _ hp' =>
          rw [hp] at hp'
          cases hp'
    · exact excused_of_phase rfl fun e he => by cases he
    · exact h

/-! ### What follows -/

/-- A worker that has said hello and has not read the configuration waits for it. -/
theorem Inv.phase_of_greeted (h : w.Inv) (hx : w.Excused) (htold : w.told ≠ [])
    (hheard : IsBriefing w.heard) (hshort : w.heard.length ≤ 1) :
    w.phase = .greeting ∨ w.phase = .awaitingConfig := by
  cases h with
  | connecting _ h | pausing _ h => exact absurd h.told_eq htold
  | greeting hp => exact .inl hp
  | awaiting hp => exact .inr hp
  | preparing _ _ h | ready _ _ h =>
    rw [h.heard_eq] at hshort
    simp at hshort
  | running _ h | abandoning _ h | finishing _ h | lost _ h | done _ h =>
    exact absurd hheard h.not_isBriefing
  | refused hp =>
    cases hx _ hp with
    | unreached h => exact absurd h htold
    | rejected _ h => omega
    | diverted h => exact absurd hheard h

/-- A worker that has accepted the configuration and has read nothing since waits for the start. -/
theorem Inv.phase_of_ready (h : w.Inv) (hx : w.Excused) (htold : .ready ∈ w.told)
    (hheard : IsBriefing w.heard) : ∃ cfg clients pool, w.phase = .ready cfg clients pool := by
  cases h with
  | connecting _ h | pausing _ h | greeting _ h | awaiting _ _ h | preparing _ _ h =>
    rw [h.told_eq] at htold
    simp at htold
  | ready hp => exact ⟨_, _, _, hp⟩
  | running _ h | abandoning _ h | finishing _ h | lost _ h | done _ h =>
    exact absurd hheard h.not_isBriefing
  | refused hp h =>
    cases hx _ hp with
    | unreached h =>
      rw [h] at htold
      cases htold
    | @rejected reason hreject _ =>
      -- A worker answers the configuration only once.
      rcases h.told with ho | ⟨reason', ho⟩
      · have := ho.subset hreject
        simp at this
      · have := ho.subset htold
        simp at this
    | diverted h => exact absurd hheard h

end TxLoad.Worker
