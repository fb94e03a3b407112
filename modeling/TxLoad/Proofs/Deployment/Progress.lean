import TxLoad.Proofs.Deployment.Deadlines
import TxLoad.Proofs.Worker.Effort
import Mathlib.Algebra.BigOperators.Fin
import Mathlib.Data.Prod.Lex

namespace TxLoad

/-!
# Time goes on

Nobody is busy forever at one instant, so that the clock comes to every instant.

* `TimedDeployment.load` measures what is still to be done at the present instant: phases first, then
  steps of engines and reports, then what comes from the workers, and last what goes to them.
* `TimedDeployment.Inv.exists_lighter_of_not_isQuiet` and
  `TimedDeployment.Inv.exists_lighter_of_not_isTogether`: unless the clock can go on, there is
  something to do that makes the load lighter.
* `TimedDeployment.Inv.goes_on`: the clock comes to every instant.
-/

open scoped BigOperators

/-- The engines that a configuration asks for are paced, wherever and whenever they are started. -/
def Config.IsPacing (cfg : Config) : Prop :=
  ∀ pool target clients now, (Group.spawn cfg pool target clients now).IsPaced

namespace Member

/-- What has still to come from a member and to be read; what has still to arrive counts twice. -/
def upload (m : Member) (c : Coordinator) : Nat :=
  2 * (m.worker.sent.length - m.up.carried) + m.peer?.elim 0 fun q => (c.inbox q).length

/-- What has still to come to a member and to be read. -/
def download (m : Member) (c : Coordinator) : Nat :=
  (m.peer?.elim 0 fun q => 2 * ((c.deliveredTo q).length - m.down.carried)) +
    m.worker.inbox.length

/-- There is less to do for a member, or for the coordinator with it. -/
inductive Lightens (m m' : Member) (c c' : Coordinator) : Prop
  | phase (h : m'.worker.phase.rank < m.worker.phase.rank)
  | effort (hphase : m'.worker.phase.rank = m.worker.phase.rank)
    (h : m'.worker.effort < m.worker.effort)
  | upload (hphase : m'.worker.phase.rank = m.worker.phase.rank)
    (heffort : m'.worker.effort = m.worker.effort) (h : m'.upload c' < m.upload c)
  | download (hphase : m'.worker.phase.rank = m.worker.phase.rank)
    (heffort : m'.worker.effort = m.worker.effort) (hupload : m'.upload c' = m.upload c)
    (hc : c' = c) (h : m'.download c' < m.download c)

variable {m : Member} {c : Coordinator}

/-- A worker comes nearer to having nothing to do. -/
theorem lightens_of_eases {v : Worker} (h : m.worker.Eases v) :
    m.Lightens { m with worker := v } c c := by
  cases h with
  | phase h => exact .phase h
  | effort hphase h => exact .effort hphase h
  | read hphase heffort hsent h =>
    refine .download hphase heffort ?_ rfl ?_
    · simp only [upload, hsent]
    · simpa only [download, Nat.add_lt_add_iff_left] using h

/-- Something arrives from the worker. -/
theorem lightens_ascend {q : Nat} (hq : m.peer? = some q) (hlt : q < c.peers.length) {r : Reading}
    {up : Link} (hn : m.up.next? m.worker.sent none = some (r, up)) :
    m.Lightens { m with up } c (c.step (.arrive q r)) := by
  cases hf : m.up.fault with
  | some f => simp [Link.next?, hf] at hn
  | none =>
    simp only [Link.next?, hf, Option.map_eq_some_iff, Prod.mk.injEq] at hn
    obtain ⟨x, hx, -, rfl⟩ := hn
    obtain ⟨hsent, -⟩ := List.getElem?_eq_some_iff.mp hx
    refine .upload rfl rfl ?_
    simp only [upload, hq, Option.elim_some, c.inbox_arrive hlt, if_true, List.length_append,
      List.length_singleton]
    omega

/-- Something arrives at the worker. -/
theorem lightens_descend {q : Nat} (hq : m.peer? = some q) {r : Reading} {down : Link}
    (hn : m.down.next? (c.deliveredTo q) none = some (r, down)) :
    m.Lightens { m with worker := m.worker.step (.arrive r), down } c c := by
  cases hf : m.down.fault with
  | some f => simp [Link.next?, hf] at hn
  | none =>
    simp only [Link.next?, hf, Option.map_eq_some_iff, Prod.mk.injEq] at hn
    obtain ⟨x, hx, -, rfl⟩ := hn
    obtain ⟨hdelivered, -⟩ := List.getElem?_eq_some_iff.mp hx
    refine .download rfl rfl rfl rfl ?_
    have hinbox : (m.worker.step (.arrive r)).inbox.length = m.worker.inbox.length + 1 :=
      List.length_append
    simp only [download, hq, Option.elim_some, hinbox]
    omega

/-- The coordinator reads from the worker. -/
theorem lightens_read {q : Nat} (hq : m.peer? = some q) {r : Reading} {rest : List Reading}
    (hlisten : c.listensTo q = true) (hin : c.inbox q = r :: rest) :
    m.Lightens m c (c.step (.read q)) := by
  refine .upload rfl rfl ?_
  simp only [upload, hq, Option.elim_some, Coordinator.inbox_step_read hlisten hin, if_true, hin,
    List.length_cons]
  omega

end Member

namespace TimedDeployment

variable {n : Nat} {t u : TimedDeployment n}

/-- What is still to be done at the present instant. -/
def load (t : TimedDeployment n) : Nat ×ₗ Nat ×ₗ Nat ×ₗ Nat :=
  toLex (t.coordinator.phase.rank + ∑ i, (t.members i).worker.phase.rank,
    toLex (∑ i, (t.members i).worker.effort,
      toLex (∑ i, (t.members i).upload t.coordinator,
        ∑ i, (t.members i).download t.coordinator)))

/-! ### Sums over the members -/

/-- Sums that differ in one place. -/
theorem sum_add_eq {f g : Fin n → Nat} (i : Fin n) (h : ∀ j, j ≠ i → f j = g j) :
    ∑ j, f j + g i = ∑ j, g j + f i := by
  have hothers : ∑ j ∈ Finset.univ.erase i, f j = ∑ j ∈ Finset.univ.erase i, g j :=
    Finset.sum_congr rfl fun j hj => h j (Finset.ne_of_mem_erase hj)
  rw [← Finset.add_sum_erase _ f (Finset.mem_univ i),
    ← Finset.add_sum_erase _ g (Finset.mem_univ i), hothers]
  omega

theorem load_lt_of_phase
    (h : u.coordinator.phase.rank + ∑ i, (u.members i).worker.phase.rank <
      t.coordinator.phase.rank + ∑ i, (t.members i).worker.phase.rank) : u.load < t.load :=
  Prod.Lex.toLex_lt_toLex.mpr (.inl h)

section

variable (hphase : u.coordinator.phase.rank + ∑ i, (u.members i).worker.phase.rank ≤
  t.coordinator.phase.rank + ∑ i, (t.members i).worker.phase.rank)
include hphase

theorem load_lt_of_effort
    (h : ∑ i, (u.members i).worker.effort < ∑ i, (t.members i).worker.effort) : u.load < t.load :=
  Prod.Lex.toLex_lt_toLex'.mpr ⟨hphase, fun _ => Prod.Lex.toLex_lt_toLex.mpr (.inl h)⟩

variable (heffort : ∑ i, (u.members i).worker.effort ≤ ∑ i, (t.members i).worker.effort)
include heffort

theorem load_lt_of_upload
    (h : ∑ i, (u.members i).upload u.coordinator < ∑ i, (t.members i).upload t.coordinator) :
    u.load < t.load :=
  Prod.Lex.toLex_lt_toLex'.mpr ⟨hphase, fun _ => Prod.Lex.toLex_lt_toLex'.mpr ⟨heffort, fun _ =>
    Prod.Lex.toLex_lt_toLex.mpr (.inl h)⟩⟩

theorem load_lt_of_download
    (hupload : ∑ i, (u.members i).upload u.coordinator ≤ ∑ i, (t.members i).upload t.coordinator)
    (h : ∑ i, (u.members i).download u.coordinator < ∑ i, (t.members i).download t.coordinator) :
    u.load < t.load :=
  Prod.Lex.toLex_lt_toLex'.mpr ⟨hphase, fun _ => Prod.Lex.toLex_lt_toLex'.mpr ⟨heffort, fun _ =>
    Prod.Lex.toLex_lt_toLex'.mpr ⟨hupload, fun _ => h⟩⟩⟩

end

/-! ### Events that make the load lighter -/

theorem members_put (c : Coordinator) (i j : Fin n) (m : Member) :
    (t.put c i m).members j = if j = i then m else t.members j :=
  Deployment.members_set _ i j m

/-- Nothing but the coordinator changes. -/
theorem put_self (t : TimedDeployment n) (e : CoordinatorEvent) (i : Fin n) :
    t.put (t.coordinator.step e) i (t.members i) = t.conduct e := by
  have hset := Function.update_eq_self i t.members
  simp only [put, Deployment.set, hset, conduct]

/-- What is summed up over the members when one of them changes. -/
theorem sum_put (φ : Member → Nat) (c : Coordinator) (i : Fin n) (m : Member) :
    ∑ j, φ ((t.put c i m).members j) + φ (t.members i) = ∑ j, φ (t.members j) + φ m := by
  have hsum := sum_add_eq (f := fun j => φ ((t.put c i m).members j))
    (g := fun j => φ (t.members j)) i fun j hj => by simp only [members_put, if_neg hj]
  simpa only [members_put, if_true] using hsum

/-- **One member.** If there is less to do for one member, and as much as before for the others, the
    load is lighter. -/
theorem load_put_lt {c : Coordinator} {i : Fin n} {m : Member}
    (hc : c.phase.rank ≤ t.coordinator.phase.rank)
    (hothers : ∀ j, j ≠ i → (t.members j).upload c = (t.members j).upload t.coordinator)
    (h : (t.members i).Lightens m t.coordinator c) : (t.put c i m).load < t.load := by
  have hphase := t.sum_put (·.worker.phase.rank) c i m
  have heffort := t.sum_put (·.worker.effort) c i m
  have hupload := sum_add_eq (f := fun j => ((t.put c i m).members j).upload c)
    (g := fun j => (t.members j).upload t.coordinator) i fun j hj => by
      simp only [members_put, if_neg hj, hothers j hj]
  have hself : (t.put c i m).members i = m := by rw [members_put, if_pos rfl]
  simp only [hself] at hupload
  have hdownload := t.sum_put (·.download t.coordinator) c i m
  have hput : (t.put c i m).coordinator = c := rfl
  cases h with
  | phase h => exact load_lt_of_phase (by rw [hput]; omega)
  | effort hp h => exact load_lt_of_effort (by rw [hput]; omega) (by omega)
  | upload hp he h =>
    exact load_lt_of_upload (by rw [hput]; omega) (by omega) (by rw [hput]; omega)
  | download hp he hu hsame h =>
    subst hsame
    exact load_lt_of_download (by rw [hput]; omega) (by omega) (by rw [hput]; omega)
      (by rw [hput]; omega)

/-! ### What time needs to go on -/

/-- What time needs to go on: engines are paced, reports are apart, and those that are yet to be
    started have nothing to do. -/
structure IsLively (t : TimedDeployment n) : Prop where
  paced : ∀ i, (t.members i).worker.group.IsPaced
  interval : ∀ i, 0 < (t.members i).worker.setup.settings.reportIntervalMs
  ahead : t.clock < t.coordinator.now → t.coordinator.peers = [] ∧
    ∀ d, t.coordinator.deadline? = some d → t.coordinator.now ≤ d
  unlinked : ∀ i, t.clock < (t.members i).worker.now → (t.members i).peer? = none

/-- The configuration that a worker is to run is that of the coordinator. -/
theorem Inv.config_of_start (h : t.Inv) {i : Fin n} {cfg : Config} {clients : List Client}
    {pool : Pool} {inbox : List Reading} (hp : (t.members i).worker.phase = .ready cfg clients pool)
    (hin : (t.members i).worker.inbox = .message .start :: inbox) :
    cfg = t.coordinator.setup.cfg := by
  obtain ⟨hs, q, hworker, hq⟩ := h.deployment.worker_of_start (i := i) (by simp [hin])
  obtain ⟨x, more, hdelivered⟩ := h.deliveredTo_of_started hs hworker
  obtain ⟨y, hheard⟩ := (h.deployment.members i).worker.heard_of_ready hp
  have hprefix := ((h.deployment.members i).linked q hq).heard_isPrefix (h.members i).down
  rw [hdelivered, hheard] at hprefix
  obtain ⟨-, hprefix⟩ := List.cons_prefix_cons.mp hprefix
  obtain ⟨hcfg, -⟩ := List.cons_prefix_cons.mp hprefix
  cases hcfg
  rfl

theorem Inv.isPaced_step (h : t.Inv) (hl : t.IsLively)
    (hcfg : t.coordinator.setup.cfg.IsPacing) (i : Fin n) (e : WorkerEvent) :
    ((t.members i).worker.step e).group.IsPaced :=
  Worker.isPaced_step (hl.paced i)
    (fun _ _ _ _ hp hin => h.config_of_start hp hin ▸ hcfg _ _ _ _) e

/-- A member changes, and what has arrived from it. -/
theorem IsLively.put (h : t.IsLively) {c : Coordinator} {i : Fin n} {m : Member}
    (hahead : t.clock < c.now → c.peers = [] ∧ ∀ d, c.deadline? = some d → c.now ≤ d)
    (hpaced : m.worker.group.IsPaced) (hinterval : 0 < m.worker.setup.settings.reportIntervalMs)
    (hunlinked : t.clock < m.worker.now → m.peer? = none) : (t.put c i m).IsLively := by
  refine ⟨fun j => ?_, fun j => ?_, hahead, fun j => ?_⟩ <;> rw [members_put] <;>
    by_cases hj : j = i
  · rwa [if_pos hj]
  · rw [if_neg hj]
    exact h.paced j
  · rwa [if_pos hj]
  · rw [if_neg hj]
    exact h.interval j
  · rw [if_pos hj]
    exact hunlinked
  · rw [if_neg hj]
    exact h.unlinked j

/-- **Step lemma.** -/
theorem IsLively.step (hl : t.IsLively) (h : t.Inv) (hcfg : t.coordinator.setup.cfg.IsPacing)
    (e : TimedEvent n) : (t.step e).IsLively := by
  have hr := t.reacts_step e
  generalize t.step e = u at hr ⊢
  cases hr with
  | refused => exact hl
  | @coordinate e hinner hprompt hnow =>
    -- Whoever acts is not ahead of the clock, and no time passes.
    refine ⟨hl.paced, hl.interval, fun hlt => ?_, hl.unlinked⟩
    have hsame : (t.coordinator.step e).now = t.coordinator.now :=
      t.coordinator.now_step (by rintro ms rfl; cases hprompt)
    exact absurd (hsame ▸ hlt) (Nat.not_lt.mpr hnow)
  | @operate i e hinner hprompt hnow =>
    refine hl.put hl.ahead (h.isPaced_step hl hcfg i e) ?_ fun hlt => ?_
    · rw [Worker.setup_step]
      exact hl.interval i
    · have hsame : ((t.members i).worker.step e).now = (t.members i).worker.now :=
        Worker.now_step _ (by rintro ms rfl; cases hprompt)
      exact absurd (hsame ▸ hlt) (Nat.not_lt.mpr hnow)
  | @accept i deadline hnow hworker hi hp =>
    refine hl.put (fun hlt => ?_) (hl.paced i) (hl.interval i) fun hlt => ?_
    · rw [Coordinator.step_connect hp] at hlt
      exact absurd hlt (Nat.not_lt.mpr hnow)
    · exact absurd hlt (Nat.not_lt.mpr hworker)
  | @ascend i q r up hq hn | @close i q r up hq hstopped hall hn =>
    refine hl.put (fun hlt => ?_) (hl.paced i) (hl.interval i) (hl.unlinked i)
    have hlinked := ((h.deployment.members i).linked q hq).lt
    rw [(hl.ahead hlt).1] at hlinked
    cases hlinked
  | @descend i q r down hq hn =>
    exact hl.put hl.ahead (hl.paced i) (hl.interval i) (hl.unlinked i)
  | tick hquiet htogether =>
    refine ⟨fun i => h.isPaced_step hl hcfg i _, fun i => ?_, fun hlt => ?_, fun i hlt => ?_⟩
    · show 0 < ((t.members i).worker.step _).setup.settings.reportIntervalMs
      rw [Worker.setup_step]
      exact hl.interval i
    · obtain ⟨now, hnow, hstep⟩ := t.coordinator.step_advance (t.clock + 1 - t.coordinator.now)
      have hlater : t.later.coordinator = { t.coordinator with now } := hstep
      have hclock : t.clock + 1 < now := by rwa [hlater] at hlt
      obtain ⟨hpeers, hdeadline⟩ := hl.ahead (by omega)
      rw [hlater]
      refine ⟨hpeers, fun d hd => ?_⟩
      have := hdeadline d hd
      show now ≤ d
      omega
    · obtain ⟨now, -, hnow, hstep⟩ :=
        (t.members i).worker.step_advance (t.clock + 1 - (t.members i).worker.now)
      have hlater : (t.later.members i).worker = { (t.members i).worker with now } := hstep
      have hclock : t.clock + 1 < now := by rwa [hlater] at hlt
      exact hl.unlinked i (by omega)

/-- **Run lemma.** -/
theorem IsLively.run (hl : t.IsLively) (h : t.Inv) (hm : HasMargin t.coordinator.setup)
    (hcfg : t.coordinator.setup.cfg.IsPacing) (es : List (TimedEvent n)) : (t.run es).IsLively := by
  induction es generalizing t with
  | nil => exact hl
  | cons e es ih =>
    have hsetup := t.setup_step e
    exact ih (hl.step h hcfg e) (h.step hm e) (hsetup.symm ▸ hm) (hsetup.symm ▸ hcfg)

/-! ### Something to do -/

theorem step_occur {e : DeploymentEvent n} (h : t.allows e = true) :
    t.step (.occur e) = ⟨t.toDeployment.step e, t.clock⟩ := if_pos h

theorem step_coordinate {e : CoordinatorEvent} (hinner : e.isInner = true)
    (hprompt : e.isPrompt = true) (hnow : t.coordinator.now ≤ t.clock) :
    t.step (.occur (.coordinate e)) = t.conduct e := by
  rw [step_occur (by simp [allows, hprompt, hnow]), Deployment.step, if_pos hinner, conduct]

/-- The coordinator has something to read. -/
theorem Inv.exists_lighter_of_read (h : t.Inv) (hl : t.IsLively) {q : Nat}
    (hcan : t.coordinator.canHappen (.read q) = true) :
    ∃ e, (t.step (.occur e)).load < t.load := by
  simp only [Coordinator.canHappen, Bool.and_eq_true] at hcan
  obtain ⟨hlisten, hnonempty⟩ := hcan
  cases hin : t.coordinator.inbox q with
  | nil => simp [hin] at hnonempty
  | cons r rest =>
    have hlt := Coordinator.lt_of_inbox hin
    obtain ⟨i, hi⟩ := h.deployment.covered q hlt
    have hnow : t.coordinator.now ≤ t.clock := by
      by_contra hnot
      rw [(hl.ahead (Nat.lt_of_not_le hnot)).1] at hlt
      cases hlt
    refine ⟨.coordinate (.read q), ?_⟩
    rw [step_coordinate rfl rfl hnow, ← t.put_self (.read q) i]
    refine load_put_lt (Coordinator.rank_step_le h.steady.inv _) (fun j hj => ?_)
      (Member.lightens_read hi hlisten hin)
    -- Nobody else is the same peer.
    cases hp : (t.members j).peer? with
    | none => simp only [Member.upload, hp, Option.elim_none]
    | some p =>
      have hne : p ≠ q := by
        rintro rfl
        exact hj (h.deployment.unique j i p hp hi)
      simp only [Member.upload, hp, Option.elim_some,
        Coordinator.inbox_step_read hlisten hin, if_neg hne]

/-- A worker has something to do. -/
theorem exists_lighter_of_eases {i : Fin n} {e : WorkerEvent} (hinner : e.isInner = true)
    (hprompt : e.isPrompt = true) (hnow : (t.members i).worker.now ≤ t.clock)
    (h : (t.members i).worker.Eases ((t.members i).worker.step e)) :
    ∃ e, (t.step (.occur e)).load < t.load := by
  refine ⟨.operate i e, ?_⟩
  have hstep : t.step (.occur (.operate i e)) =
      t.put t.coordinator i { t.members i with worker := (t.members i).worker.step e } := by
    rw [step_occur (by simp [allows, hprompt, hnow]), Deployment.step, if_pos hinner]
    rfl
  rw [hstep]
  exact load_put_lt (Nat.le_refl _) (fun _ _ => rfl) (Member.lightens_of_eases h)

/-- Something is on its way from a worker. -/
theorem Inv.exists_lighter_of_ascend (h : t.Inv) {i : Fin n} {q : Nat} {r : Reading} {up : Link}
    (hq : (t.members i).peer? = some q)
    (hn : (t.members i).up.next? (t.members i).worker.sent none = some (r, up)) :
    ∃ e, (t.step (.occur e)).load < t.load := by
  refine ⟨.ascend i none, ?_⟩
  have hlt := ((h.deployment.members i).linked q hq).lt
  have hstep : t.step (.occur (.ascend i none)) =
      t.put (t.coordinator.step (.arrive q r)) i { t.members i with up } := by
    rw [step_occur rfl]
    simp only [Deployment.step, hq, hn]
    rfl
  rw [hstep]
  refine load_put_lt (Nat.le_refl _) (fun j hj => ?_) (Member.lightens_ascend hq hlt hn)
  cases hp : (t.members j).peer? with
  | none => simp only [Member.upload, hp, Option.elim_none]
  | some p =>
    have hne : p ≠ q := by
      rintro rfl
      exact hj (h.deployment.unique j i p hp hq)
    simp only [Member.upload, hp, Option.elim_some, t.coordinator.inbox_arrive hlt, if_neg hne,
      List.append_nil]

/-- Something is on its way to a worker. -/
theorem exists_lighter_of_descend {i : Fin n} {q : Nat} {r : Reading} {down : Link}
    (hq : (t.members i).peer? = some q)
    (hn : (t.members i).down.next? (t.coordinator.deliveredTo q) none = some (r, down)) :
    ∃ e, (t.step (.occur e)).load < t.load := by
  refine ⟨.descend i none, ?_⟩
  have hstep : t.step (.occur (.descend i none)) = t.put t.coordinator i
      { t.members i with worker := (t.members i).worker.step (.arrive r), down } := by
    rw [step_occur rfl]
    simp only [Deployment.step, hq, hn]
    rfl
  rw [hstep]
  exact load_put_lt (Nat.le_refl _) (fun _ _ => rfl) (Member.lightens_descend hq hn)

/-- As long as something is on its way or waits to be read, there is something to do. -/
theorem Inv.exists_lighter_of_not_isQuiet (h : t.Inv) (hl : t.IsLively)
    (hquiet : t.isQuiet = false) : ∃ e, (t.step (.occur e)).load < t.load := by
  simp only [Deployment.isQuiet, Bool.and_eq_false_iff, List.all_eq_false, List.mem_range,
    List.mem_finRange, true_and, Bool.not_eq_true', Bool.not_eq_false, Bool.not_eq_true] at hquiet
  rcases hquiet with ⟨q, -, hcan⟩ | ⟨i, hi⟩
  · exact h.exists_lighter_of_read hl hcan
  · simp only [Member.isQuiet, Bool.and_eq_false_iff, Bool.not_eq_false'] at hi
    cases hq : (t.members i).peer? with
    | none =>
      -- Nothing has arrived at a worker whose link was not accepted.
      have hin := (List.append_eq_nil_iff.mp ((h.deployment.members i).unlinked hq).arrived).2
      simp [Worker.canHappen, hin, hq] at hi
    | some q =>
      simp only [hq, Option.all_some, Bool.and_eq_false_iff, Option.isNone_eq_false_iff,
        Option.isSome_iff_exists, Prod.exists] at hi
      rcases hi with hread | ⟨r, up, hn⟩ | ⟨r, down, hn⟩
      · have hnow : (t.members i).worker.now ≤ t.clock := by
          by_contra hnot
          rw [hl.unlinked i (Nat.lt_of_not_le hnot)] at hq
          cases hq
        simp only [Worker.canHappen, Bool.and_eq_true] at hread
        obtain ⟨hlisten, hnonempty⟩ := hread
        cases hin : (t.members i).worker.inbox with
        | nil => simp [hin] at hnonempty
        | cons r inbox =>
          exact exists_lighter_of_eases rfl rfl hnow
            (Worker.eases_read (h.members i).unbroken.writable hlisten hin)
      · exact h.exists_lighter_of_ascend hq hn
      · exact exists_lighter_of_descend hq hn

/-- As long as somebody holds up the clock, there is something to do. -/
theorem Inv.exists_lighter_of_not_isTogether (h : t.Inv) (hl : t.IsLively)
    (hquiet : t.isQuiet = true) (hnot : t.later.isTogether = false) :
    ∃ e, (t.step (.occur e)).load < t.load := by
  simp only [isTogether, Bool.and_eq_false_iff, decide_eq_false_iff_not, List.all_eq_false,
    List.mem_finRange, true_and, decide_eq_true_eq, Nat.not_le] at hnot
  rcases hnot with hlt | ⟨i, hlt⟩
  · have hlt : (t.coordinator.step (.advance (t.clock + 1 - t.coordinator.now))).now <
      t.clock + 1 := hlt
    have hnow := h.now
    have hheld : (t.coordinator.step (.advance (t.clock + 1 - t.coordinator.now))).now <
      t.coordinator.now + (t.clock + 1 - t.coordinator.now) := by omega
    obtain ⟨d, hd, hstands⟩ := Coordinator.exists_deadline_of_advance hheld
    have hpresent : t.coordinator.now ≤ t.clock := by
      by_contra hahead
      have := (hl.ahead (Nat.lt_of_not_le hahead)).2 d hd
      omega
    have hcan : t.coordinator.canHappen .expire = true := by
      simp only [Coordinator.canHappen, hd, Option.any_some, Bool.and_eq_true, decide_eq_true_eq]
      refine ⟨by omega, ?_⟩
      split
      · rename_i next _ hp
        rw [Option.all_eq_true]
        intro q hq
        rw [inbox_eq_nil_of_isQuiet hquiet (by simp [Coordinator.listensTo, hp, hq])]
        rfl
      · rfl
    refine ⟨.coordinate .expire, ?_⟩
    rw [step_coordinate rfl rfl hpresent]
    exact load_lt_of_phase (Nat.add_lt_add_right (Coordinator.rank_expire_lt h.steady.inv hcan) _)
  · have hlt : ((t.members i).worker.step
        (.advance (t.clock + 1 - (t.members i).worker.now))).now < t.clock + 1 := hlt
    have hnow := (h.members i).now
    have hheld : ((t.members i).worker.step
        (.advance (t.clock + 1 - (t.members i).worker.now))).now <
      (t.members i).worker.now + (t.clock + 1 - (t.members i).worker.now) := by omega
    obtain ⟨d, hd, hle⟩ := Worker.exists_timer_of_advance hheld
    obtain ⟨now, hstands, -, hstep⟩ := (t.members i).worker.step_advance
      (t.clock + 1 - (t.members i).worker.now)
    rw [hstep] at hlt hle
    have hlt : now < t.clock + 1 := hlt
    have hle : d ≤ now := hle
    have hread : (t.members i).worker.canHappen .read = false := by
      have hi := isQuiet_member hquiet i
      simp only [Member.isQuiet, Bool.and_eq_true, Bool.not_eq_true'] at hi
      exact hi.1
    obtain ⟨e, hinner, hprompt, heases⟩ := Worker.exists_eases (h.members i).unbroken.writable
      (hl.paced i) (hl.interval i) hread hd (by omega)
    exact exists_lighter_of_eases hinner hprompt (by omega) heases

/-! ### Time -/

theorem clock_occur (t : TimedDeployment n) (e : DeploymentEvent n) :
    (t.step (.occur e)).clock = t.clock := by
  rw [TimedDeployment.step]
  split <;> rfl

theorem run_append (t : TimedDeployment n) (es es' : List (TimedEvent n)) :
    t.run (es ++ es') = (t.run es).run es' := List.foldl_append

/-- **A millisecond.** The clock can go on after some events. -/
theorem Inv.exists_tick (h : t.Inv) (hm : HasMargin t.coordinator.setup)
    (hcfg : t.coordinator.setup.cfg.IsPacing) (hl : t.IsLively) :
    ∃ es, (t.run es).clock = t.clock + 1 := by
  -- The induction is on the load: each event that has to come before the tick makes it lighter.
  induction hload : t.load using WellFoundedLT.induction generalizing t with
  | ind load ih =>
    subst hload
    by_cases htick : (t.isQuiet && t.later.isTogether) = true
    · refine ⟨[.tick], ?_⟩
      show (t.step .tick).clock = _
      rw [TimedDeployment.step, if_pos htick]
      rfl
    · obtain ⟨e, he⟩ : ∃ e, (t.step (.occur e)).load < t.load := by
        cases hquiet : t.isQuiet with
        | false => exact h.exists_lighter_of_not_isQuiet hl hquiet
        | true =>
          rw [hquiet, Bool.true_and, Bool.not_eq_true] at htick
          exact h.exists_lighter_of_not_isTogether hl hquiet htick
      have hsetup := t.setup_step (.occur e)
      obtain ⟨es, hes⟩ := ih _ he (h.step hm (.occur e)) (hsetup.symm ▸ hm) (hsetup.symm ▸ hcfg)
        (hl.step h hcfg (.occur e)) rfl
      exact ⟨.occur e :: es, hes.trans (by rw [clock_occur])⟩

/-- **Progress.** The clock comes to every instant. -/
theorem Inv.goes_on (h : t.Inv) (hm : HasMargin t.coordinator.setup)
    (hcfg : t.coordinator.setup.cfg.IsPacing) (hl : t.IsLively) (instant : Nat) :
    ∃ es, instant ≤ (t.run es).clock := by
  induction instant with
  | zero => exact ⟨[], Nat.zero_le _⟩
  | succ instant ih =>
    obtain ⟨es, hes⟩ := ih
    have hsetup := t.setup_run es
    obtain ⟨es', hes'⟩ := (h.run hm es).exists_tick (hsetup.symm ▸ hm) (hsetup.symm ▸ hcfg)
      (hl.run h hm hcfg es)
    refine ⟨es ++ es', ?_⟩
    rw [run_append, hes']
    exact Nat.succ_le_succ hes

end TimedDeployment

end TxLoad
