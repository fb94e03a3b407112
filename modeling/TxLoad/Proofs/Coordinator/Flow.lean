import TxLoad.Coordinator.Step
import Mathlib.Tactic.Common

namespace TxLoad

/-!
# What flows into a coordinator and out of it

Nothing that was written is taken back, and nothing that has arrived is lost or invented: it waits
in the inbox until it is read.

* `lines` are the peers without regard to whether they are kept; neither what has arrived from them
  nor writing to them depends on it (`inbox_eq_lines`, `canWrite_eq_lines`).
* `Keeps` holds of everything that a coordinator does to a reading: inboxes are left alone.
* `Reacts` says once what each event can do; `reacts_step` opens the step of a coordinator.
* `Flows.step`: an event of the coordinator's own moves readings from the inboxes to what was read.
* `Flows.deliveredTo`: what was delivered to a peer only grows.
-/

/-- Whether nothing new arrives by an event: it is the coordinator's own, or a link breaks. -/
def CoordinatorEvent.isInner : CoordinatorEvent → Bool
  | .connect | .arrive _ _ => false
  | _ => true

namespace Coordinator

variable {c d : Coordinator}

/-! ### Peers without regard to whether they are kept -/

/-- The peers as if all were kept. -/
def lines (c : Coordinator) : List Peer := c.peers.map fun p => { p with isOpen := true }

theorem length_lines (c : Coordinator) : c.lines.length = c.peers.length := by simp [lines]

/-- What has arrived from a peer does not depend on whether it is kept. -/
theorem inbox_eq_lines (c : Coordinator) (q : Nat) :
    c.inbox q = ((c.lines[q]?).map (·.inbox)).getD [] := by
  simp [inbox, lines, Function.comp_def]

/-- Neither does it matter for writing whether a peer is kept. -/
theorem canWrite_eq_lines (c : Coordinator) (q : Nat) :
    c.canWrite q = (c.lines[q]?).any fun p => p.limit.all ((c.writtenTo q).length < ·) := by
  simp [canWrite, lines, Option.any_map]

@[simp] theorem lines_drop (c : Coordinator) (q : Nat) : (c.drop q).lines = c.lines := by
  simp only [lines, drop, modifyPeer]
  refine List.ext_getElem? fun i => ?_
  simp only [List.getElem?_map, List.getElem?_modify]
  by_cases h : q = i <;> cases c.peers[i]? <;> simp [h]

@[simp] theorem lines_dropOthers (c : Coordinator) : c.dropOthers.lines = c.lines := by
  simp only [lines, dropOthers]
  refine List.ext_getElem? fun i => ?_
  simp [Function.comp_def]

@[simp] theorem lines_finish (c : Coordinator) (r : Except Error Summary) :
    (c.finish r).lines = c.lines := by
  simp [lines, finish, Function.comp_def]

/-- No time passes, the log only grows, and neither what was read nor the peers change, except for
    whether they are kept. -/
structure Keeps (c d : Coordinator) : Prop where
  setup : d.setup = c.setup
  now : d.now = c.now
  log : c.log <+: d.log
  heard : d.heard = c.heard
  lines : d.lines = c.lines

/-- The log only grows, and what was read and what waits in the inboxes is in all the same. -/
structure Flows (c d : Coordinator) : Prop where
  setup : d.setup = c.setup
  log : c.log <+: d.log
  arrived : ∀ q, d.heardFrom q ++ d.inbox q = c.heardFrom q ++ c.inbox q
  peers : d.peers.length = c.peers.length

/-! ### Keeping -/

namespace Keeps

theorem refl (c : Coordinator) : c.Keeps c := ⟨rfl, rfl, List.prefix_refl _, rfl, rfl⟩

theorem trans {e : Coordinator} (h₁ : c.Keeps d) (h₂ : d.Keeps e) : c.Keeps e :=
  ⟨h₂.setup.trans h₁.setup, h₂.now.trans h₁.now, h₁.log.trans h₂.log, h₂.heard.trans h₁.heard,
    h₂.lines.trans h₁.lines⟩

/-- Phase, workers and collector do not matter. -/
theorem of_same {b : Coordinator} (h : c.Keeps d) (hsetup : c.setup = b.setup)
    (hnow : c.now = b.now) (hlog : c.log = b.log) (hheard : c.heard = b.heard)
    (hpeers : c.peers = b.peers) : b.Keeps d :=
  ⟨hsetup ▸ h.setup, hnow ▸ h.now, hlog ▸ h.log, hheard ▸ h.heard,
    h.lines.trans (by simp only [Coordinator.lines, hpeers])⟩

theorem foldl {α : Type} {f : Coordinator → α → Coordinator} (h : ∀ c a, Keeps c (f c a))
    (as : List α) (c : Coordinator) : c.Keeps (as.foldl f c) := by
  induction as generalizing c with
  | nil => exact refl c
  | cons a as ih => exact (h c a).trans (ih (f c a))

theorem inbox_eq (h : c.Keeps d) (q : Nat) : d.inbox q = c.inbox q := by
  rw [inbox_eq_lines, inbox_eq_lines, h.lines]

theorem peers_length (h : c.Keeps d) : d.peers.length = c.peers.length := by
  rw [← length_lines, h.lines, length_lines]

theorem flows (h : c.Keeps d) : c.Flows d where
  setup := h.setup
  log := h.log
  arrived q := by rw [heardFrom, heardFrom, h.heard, h.inbox_eq]
  peers := h.peers_length

end Keeps

/-! ### Peers and writing -/

theorem inbox_modifyPeer (c : Coordinator) (q : Nat) {f : Peer → Peer}
    (hf : ∀ p, (f p).inbox = p.inbox) (p : Nat) : (c.modifyPeer q f).inbox p = c.inbox p := by
  simp only [inbox, modifyPeer, List.getElem?_modify]
  by_cases h : q = p <;> cases c.peers[p]? <;> simp [h, hf]

theorem keeps_write (c : Coordinator) (q : Nat) (m : Message) : c.Keeps (c.write q m) :=
  ⟨rfl, rfl, List.prefix_append _ _, rfl, rfl⟩

theorem keeps_drop (c : Coordinator) (q : Nat) : c.Keeps (c.drop q) :=
  ⟨rfl, rfl, List.prefix_refl _, rfl, c.lines_drop q⟩

theorem keeps_dropOthers (c : Coordinator) : c.Keeps c.dropOthers :=
  ⟨rfl, rfl, List.prefix_refl _, rfl, c.lines_dropOthers⟩

theorem keeps_finish (c : Coordinator) (result : Except Error Summary) :
    c.Keeps (c.finish result) :=
  ⟨rfl, rfl, List.prefix_refl _, rfl, c.lines_finish result⟩

theorem keeps_send (c : Coordinator) (id : Nat) (m : Message) : c.Keeps (c.send id m) := by
  unfold send
  split
  · split
    · exact c.keeps_write _ m
    · exact .refl c
  · exact .refl c

theorem keeps_giveUp (c : Coordinator) (reason : String) (e : Error) :
    c.Keeps (c.giveUp reason e) :=
  (Keeps.foldl (fun c q => c.keeps_write q (.abort reason)) c.workers c).trans (keeps_finish _ _)

/-! ### Before the start -/

theorem keeps_distribute (qs : List Nat) (c : Coordinator) : c.Keeps (c.distribute qs).1 := by
  induction qs generalizing c with
  | nil => exact .refl c
  | cons q qs ih =>
    have hwrite := c.keeps_write q (.config c.setup.cfg)
    simp only [distribute]
    split
    · exact hwrite.trans (ih _)
    · exact hwrite

theorem keeps_configure (c : Coordinator) : c.Keeps c.configure := by
  have h := c.keeps_dropOthers.trans (keeps_distribute c.workers c.dropOthers)
  unfold configure
  split <;> rename_i heq <;> rw [heq] at h
  · exact h.trans ⟨rfl, rfl, List.prefix_refl _, rfl, rfl⟩
  · exact h.trans (keeps_giveUp _ _ _)

theorem keeps_enlist (c : Coordinator) (q : Nat) : c.Keeps (c.enlist q) := by
  have hwrite := c.keeps_write q (.hello (some (UInt64.ofNat c.workers.length)))
  have henlist := hwrite.trans (d := c.write q (.hello (some (UInt64.ofNat c.workers.length))))
    (e := { c.write q (.hello (some (UInt64.ofNat c.workers.length))) with
      workers := c.workers ++ [q] }) ⟨rfl, rfl, List.prefix_refl _, rfl, rfl⟩
  simp only [enlist]
  split
  · split
    · exact henlist
    · exact henlist.trans (keeps_configure _)
  · exact hwrite.trans (keeps_drop _ q)

theorem keeps_onGreeting (c : Coordinator) (q : Nat) (r : Reading) :
    c.Keeps (c.onGreeting q r) := by
  unfold onGreeting
  split
  · exact c.keeps_enlist q
  · exact c.keeps_drop q

theorem keeps_startWorker (c : Coordinator) (id : Nat) : c.Keeps (c.startWorker id) := by
  unfold startWorker
  split
  · rename_i q _
    split
    · exact (c.keeps_write q .start).trans ⟨rfl, rfl, List.prefix_refl _, rfl, rfl⟩
    · exact (c.keeps_write q .start).trans (keeps_drop _ q)
  · exact .refl c

theorem keeps_onAnswer (c : Coordinator) (next deadline : Nat) (r : Reading) :
    c.Keeps (c.onAnswer next deadline r) := by
  unfold onAnswer
  split
  · exact c.keeps_giveUp _ _
  · split
    · exact ⟨rfl, rfl, List.prefix_refl _, rfl, rfl⟩
    · have hstart := (Keeps.foldl keeps_startWorker (List.range c.workers.length)
        { c with
          collector := (List.range c.workers.length).foldl Collector.register c.collector
          connected := List.range c.workers.length }).of_same (b := c) rfl rfl rfl rfl rfl
      exact hstart.trans ⟨rfl, rfl, List.prefix_refl _, rfl, rfl⟩

/-! ### From the start on -/

theorem keeps_conclude (c : Coordinator) : c.Keeps c.conclude := by
  unfold conclude
  split
  · exact c.keeps_finish _
  · exact (keeps_finish _ _).of_same rfl rfl rfl rfl rfl

theorem keeps_leave (c : Coordinator) : c.Keeps c.leave := by
  unfold leave
  split
  · exact c.keeps_conclude
  · exact .refl c

theorem keeps_settle (c : Coordinator) : c.Keeps c.settle := by
  unfold settle
  split
  · exact (keeps_leave _).of_same rfl rfl rfl rfl rfl
  · exact .refl c

theorem keeps_onMessage (c : Coordinator) (id : Nat) (m : Message) :
    c.Keeps (c.onMessage id m) := by
  have hviolation : ∀ e, c.Keeps (c.onViolation id e) := fun e =>
    (keeps_send _ id _).of_same rfl rfl rfl rfl rfl
  cases m with
  | statsReport report =>
    simp only [onMessage, onReport]
    split
    · exact (keeps_send _ id _).of_same rfl rfl rfl rfl rfl
    · exact ⟨rfl, rfl, List.prefix_refl _, rfl, rfl⟩
    · exact hviolation _
  | _ => exact hviolation _

theorem keeps_onReading (c : Coordinator) (id : Nat) (r : Reading) :
    c.Keeps (c.onReading id r) := by
  cases r with
  | message m =>
    simp only [onReading]
    split
    · exact c.keeps_onMessage id m
    · exact .refl c
  | _ => exact ⟨rfl, rfl, List.prefix_refl _, rfl, rfl⟩

theorem keeps_onLateReading (c : Coordinator) (id : Nat) (r : Reading) :
    c.Keeps (c.onLateReading id r) := by
  cases r <;> exact ⟨rfl, rfl, List.prefix_refl _, rfl, rfl⟩

/-! ### Steps -/

theorem keeps_onRead (c : Coordinator) (q : Nat) (r : Reading) : c.Keeps (c.onRead q r) := by
  unfold onRead
  split
  · exact c.keeps_onGreeting q r
  · exact c.keeps_onAnswer _ _ r
  · split
    · exact (c.keeps_onReading _ r).trans (keeps_settle _)
    · exact .refl c
  · split
    · exact (c.keeps_onLateReading _ r).trans (keeps_leave _)
    · exact .refl c
  · exact .refl c

theorem keeps_heed (c : Coordinator) : c.Keeps c.heed :=
  (Keeps.foldl (fun c id => c.keeps_send id (.stop "interrupted")) c.collector.active c).trans
    ⟨rfl, rfl, List.prefix_refl _, rfl, rfl⟩

theorem keeps_expire (c : Coordinator) : c.Keeps c.expire := by
  unfold expire
  split
  · exact c.keeps_giveUp _ _
  · exact c.keeps_giveUp _ _
  · exact (keeps_settle _).of_same rfl rfl rfl rfl rfl
  · exact c.keeps_conclude
  · exact .refl c

/-! ### What an event does -/

/-- The coordinator to which another peer has connected. -/
def welcome (c : Coordinator) : Coordinator := { c with peers := c.peers ++ [({} : Peer)] }

theorem step_connect {deadline : Nat} (hp : c.phase = .accepting deadline) :
    c.step .connect = c.welcome := by
  have hstep : c.step .connect = c.connect := rfl
  rw [hstep]
  simp only [connect, hp, welcome]

/-- What an event does to a coordinator. -/
inductive Reacts (c : Coordinator) : CoordinatorEvent → Coordinator → Prop where
  /-- The event cannot happen now. -/
  | refused {e : CoordinatorEvent} (hcan : c.canHappen e = false) : c.Reacts e c
  /-- No more peers are awaited. -/
  | late (hp : ∀ deadline, c.phase ≠ .accepting deadline) : c.Reacts .connect c
  /-- The program was interrupted before. -/
  | again (hi : c.interrupt ≠ .none) : c.Reacts .interrupt c
  | welcome {deadline : Nat} (hp : c.phase = .accepting deadline) : c.Reacts .connect c.welcome
  | arrive (q : Nat) (r : Reading) :
    c.Reacts (.arrive q r) (c.modifyPeer q fun p => { p with inbox := p.inbox ++ [r] })
  | sever (q writes : Nat) : c.Reacts (.sever q writes)
    (c.modifyPeer q fun p => { p with limit := some (p.limit.elim writes (min writes)) })
  | read {q : Nat} {r : Reading} {inbox : List Reading} (hlisten : c.listensTo q = true)
    (hin : c.inbox q = r :: inbox) : c.Reacts (.read q) ((c.take q r inbox).onRead q r)
  | interrupt (hi : c.interrupt = .none) :
    c.Reacts .interrupt { c with interrupt := .requested }
  | heed {deadline : Nat} (hp : c.phase = .running deadline) (hi : c.interrupt = .requested) :
    c.Reacts .heed c.heed
  | advance {ms now : Nat} (hnow : now = c.deadline?.elim (c.now + ms) (min (c.now + ms))) :
    c.Reacts (.advance ms) { c with now }
  | expire {deadline : Nat} (hd : c.deadline? = some deadline) (hnow : deadline ≤ c.now)
    (hin : ∀ next d q, c.phase = .configuring next d → c.workers[next]? = some q →
      c.inbox q = []) : c.Reacts .expire c.expire

/-- An event that can happen does what its name says. -/
theorem reacts_act {e : CoordinatorEvent} (hcan : c.canHappen e = true) : c.Reacts e (c.act e) := by
  cases e with
  | connect =>
    rw [act, connect]
    split
    · rename_i hp
      exact .welcome hp
    · rename_i hp
      exact .late hp
  | arrive q r => exact .arrive q r
  | sever q writes => exact .sever q writes
  | read q =>
    simp only [canHappen, Bool.and_eq_true] at hcan
    cases hin : c.inbox q with
    | nil => simp [hin] at hcan
    | cons r inbox =>
      rw [act, read, hin]
      exact .read hcan.1 hin
  | interrupt =>
    by_cases hi : c.interrupt = .none
    · rw [act, if_pos hi]
      exact .interrupt hi
    · rw [act, if_neg hi]
      exact .again hi
  | heed =>
    simp only [canHappen] at hcan
    split at hcan
    · rename_i hp
      exact .heed hp (by simpa using hcan)
    · cases hcan
  | advance ms =>
    rw [act, advance]
    cases hd : c.deadline? with
    | some d => exact .advance (by rw [hd]; rfl)
    | none => exact .advance (by rw [hd]; rfl)
  | expire =>
    simp only [canHappen, Bool.and_eq_true, Option.any_eq_true, decide_eq_true_eq] at hcan
    obtain ⟨⟨deadline, hd, hnow⟩, hin⟩ := hcan
    refine .expire hd hnow fun next d q hp hq => ?_
    simpa [hp, hq] using hin

/-- **Inversion.** What a step does is what the event does. -/
theorem reacts_step (c : Coordinator) (e : CoordinatorEvent) : c.Reacts e (c.step e) := by
  by_cases hcan : c.canHappen e = true
  · rw [step, if_pos hcan]
    exact reacts_act hcan
  · rw [step, if_neg hcan]
    exact .refused (by simpa using hcan)

/-- Reading the first of what has arrived. -/
theorem step_read {q : Nat} {r : Reading} {inbox : List Reading} (hlisten : c.listensTo q = true)
    (hin : c.inbox q = r :: inbox) : c.step (.read q) = (c.take q r inbox).onRead q r := by
  have hcan : c.canHappen (.read q) = true := by simp [canHappen, hlisten, hin]
  rw [step, if_pos hcan, act, read, hin]

/-! ### Flowing -/

theorem inbox_take {q : Nat} {r : Reading} {inbox : List Reading} (h : c.inbox q = r :: inbox)
    (p : Nat) : (c.take q r inbox).inbox p = if p = q then inbox else c.inbox p := by
  simp only [Coordinator.inbox, take, modifyPeer, List.getElem?_modify]
  by_cases hp : p = q
  · subst hp
    cases hpeer : c.peers[p]? with
    | none => simp [Coordinator.inbox, hpeer] at h
    | some peer => simp
  · simp [hp, Ne.symm hp]

/-- Taking a reading moves it from the inbox to what was read. -/
theorem flows_take {q : Nat} {r : Reading} {inbox : List Reading} (h : c.inbox q = r :: inbox) :
    c.Flows (c.take q r inbox) := by
  refine ⟨rfl, List.prefix_refl _, fun p => ?_, by simp [take, modifyPeer]⟩
  have hheard : (c.take q r inbox).heardFrom p =
      c.heardFrom p ++ if p = q then [r] else [] := by
    by_cases hp : p = q
    · simp [take, heardFrom, hp]
    · simp [take, heardFrom, hp, Ne.symm hp]
  rw [hheard, inbox_take h]
  by_cases hp : p = q
  · subst hp
    simp [h]
  · simp [hp]

/-- What is read leaves the inbox, and no other inbox changes. -/
theorem inbox_step_read {q : Nat} {r : Reading} {inbox : List Reading}
    (hlisten : c.listensTo q = true) (hin : c.inbox q = r :: inbox) (p : Nat) :
    (c.step (.read q)).inbox p = if p = q then inbox else c.inbox p := by
  rw [step_read hlisten hin, (keeps_onRead _ q r).inbox_eq, inbox_take hin]

theorem Flows.trans {e : Coordinator} (h₁ : c.Flows d) (h₂ : d.Flows e) : c.Flows e :=
  ⟨h₂.setup.trans h₁.setup, h₁.log.trans h₂.log, fun q => (h₂.arrived q).trans (h₁.arrived q),
    h₂.peers.trans h₁.peers⟩

/-- An event of the coordinator's own loses nothing that has arrived. -/
theorem Flows.step (c : Coordinator) {e : CoordinatorEvent} (he : e.isInner = true) :
    c.Flows (c.step e) := by
  have hr := c.reacts_step e
  generalize c.step e = d at hr ⊢
  cases hr with
  | refused | late | again => exact (Keeps.refl c).flows
  | welcome | arrive => cases he
  | sever q writes =>
    refine ⟨rfl, List.prefix_refl _, fun p => ?_, by simp [modifyPeer]⟩
    rw [c.inbox_modifyPeer q (by simp)]
    rfl
  | read hlisten hin => exact (flows_take hin).trans (keeps_onRead _ _ _).flows
  | interrupt | advance => exact ⟨rfl, List.prefix_refl _, fun _ => rfl, rfl⟩
  | heed => exact c.keeps_heed.flows
  | expire => exact c.keeps_expire.flows

/-- What was delivered to a peer only grows. -/
theorem Flows.deliveredTo (h : c.Flows d) (q : Nat) : c.deliveredTo q <+: d.deliveredTo q :=
  ((h.log.filter _).filter _).map _

/-- Something arrives from a peer. -/
theorem step_arrive (c : Coordinator) (q : Nat) (r : Reading) : c.step (.arrive q r) =
    c.modifyPeer q fun p => { p with inbox := p.inbox ++ [r] } := rfl

theorem inbox_arrive (c : Coordinator) {q : Nat} (hq : q < c.peers.length) (r : Reading)
    (p : Nat) : (c.step (.arrive q r)).inbox p = c.inbox p ++ if p = q then [r] else [] := by
  rw [step_arrive]
  simp only [inbox, modifyPeer, List.getElem?_modify]
  by_cases hp : p = q
  · simp [hp, List.getElem?_eq_getElem hq]
  · simp [hp, Ne.symm hp]

theorem arrived_arrive (c : Coordinator) {q : Nat} (hq : q < c.peers.length) (r : Reading)
    (p : Nat) : (c.step (.arrive q r)).heardFrom p ++ (c.step (.arrive q r)).inbox p =
      (c.heardFrom p ++ c.inbox p) ++ if p = q then [r] else [] := by
  rw [c.inbox_arrive hq r p, ← List.append_assoc]
  rfl

/-! ### Another peer -/

theorem length_peers_welcome (c : Coordinator) :
    c.welcome.peers.length = c.peers.length + 1 := by
  simp [welcome]

/-- Nothing has arrived from the new peer. -/
theorem inbox_welcome (c : Coordinator) (q : Nat) : c.welcome.inbox q = c.inbox q := by
  simp only [inbox, welcome, List.getElem?_append]
  split
  · rfl
  · rename_i hq
    have hnone : c.peers[q]? = none := List.getElem?_eq_none (by omega)
    rw [hnone]
    cases q - c.peers.length <;> simp

/-! ### The clock and the setup -/

/-- No time passes unless the event says so. -/
theorem now_step (c : Coordinator) {e : CoordinatorEvent} (he : ∀ ms, e ≠ .advance ms) :
    (c.step e).now = c.now := by
  have hr := c.reacts_step e
  generalize c.step e = d at hr ⊢
  cases hr with
  | refused | late | again | welcome | arrive | sever | interrupt => rfl
  | read hlisten hin => exact (keeps_onRead _ _ _).now
  | heed => exact c.keeps_heed.now
  | advance => exact absurd rfl (he _)
  | expire => exact c.keeps_expire.now

/-- No event changes the setup. -/
theorem setup_step (c : Coordinator) (e : CoordinatorEvent) : (c.step e).setup = c.setup := by
  by_cases he : e.isInner = true
  · exact (Flows.step c he).setup
  · have hr := c.reacts_step e
    generalize c.step e = d at hr ⊢
    cases hr with
    | refused | late | again | welcome | arrive => rfl
    | _ => exact absurd rfl he

theorem setup_run (c : Coordinator) (es : List CoordinatorEvent) : (c.run es).setup = c.setup := by
  induction es generalizing c with
  | nil => rfl
  | cons e es ih => exact (ih (c.step e)).trans (c.setup_step e)

end Coordinator

end TxLoad
