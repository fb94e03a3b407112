import TxLoad.Proofs.Coordinator.Flow
import Mathlib.Data.List.Nodup

namespace TxLoad.Coordinator

/-!
# What a coordinator writes

A coordinator often writes one message to several peers. Since a write succeeds or not depending on
its peer alone, what is written does not depend on the order.

* `note` adds to the log; every operation that writes is a `note` of `letter`s
  (`send_eq_note`, `sendAll_eq_note`, `abort_eq_note`, `distribute_eq`, `foldl_startWorker`).
* `writtenTo_note` and `filter_letters` say what is thereby written to a given peer.
-/

/-! ### The log -/

/-- All of a coordinator but its peers, its log and where its workers stand. -/
def rest (c : Coordinator) : Coordinator :=
  { c with peers := [], log := [], started := [], connected := [], collector := {}, accepted := [] }

section

variable {c d : Coordinator} (h : c.rest = d.rest)
include h

theorem setup_of_rest : c.setup = d.setup := (congrArg Coordinator.setup h :)
theorem phase_of_rest : c.phase = d.phase := (congrArg Coordinator.phase h :)
theorem workers_of_rest : c.workers = d.workers := (congrArg Coordinator.workers h :)
theorem heard_of_rest : c.heard = d.heard := (congrArg Coordinator.heard h :)

end

/-- Adds to the log. -/
def note (c : Coordinator) (ws : List Written) : Coordinator := { c with log := c.log ++ ws }

/-- A message written to a peer now. -/
def letter (c : Coordinator) (m : Message) (peer : Nat) : Written := ⟨peer, m, c.canWrite peer⟩

section

variable (c : Coordinator) (ws : List Written)

@[simp] theorem setup_note : (c.note ws).setup = c.setup := rfl
@[simp] theorem now_note : (c.note ws).now = c.now := rfl
@[simp] theorem phase_note : (c.note ws).phase = c.phase := rfl
@[simp] theorem peers_note : (c.note ws).peers = c.peers := rfl
@[simp] theorem workers_note : (c.note ws).workers = c.workers := rfl
@[simp] theorem started_note : (c.note ws).started = c.started := rfl
@[simp] theorem connected_note : (c.note ws).connected = c.connected := rfl
@[simp] theorem collector_note : (c.note ws).collector = c.collector := rfl
@[simp] theorem interrupt_note : (c.note ws).interrupt = c.interrupt := rfl
@[simp] theorem files_note : (c.note ws).files = c.files := rfl
@[simp] theorem heard_note : (c.note ws).heard = c.heard := rfl
@[simp] theorem accepted_note : (c.note ws).accepted = c.accepted := rfl
@[simp] theorem log_note : (c.note ws).log = c.log ++ ws := rfl
@[simp] theorem note_nil : c.note [] = c := by simp [note]

end

@[simp] theorem note_note (c : Coordinator) (ws vs : List Written) :
    (c.note ws).note vs = c.note (ws ++ vs) := by simp [note]

/-- What is written to a peer grows by its share of what is noted. -/
@[simp] theorem writtenTo_note (c : Coordinator) (ws : List Written) (q : Nat) :
    (c.note ws).writtenTo q = c.writtenTo q ++ ws.filter (·.peer == q) := by
  simp [writtenTo]

/-- Whether a write succeeds depends only on the peers and on what was written to this one. -/
theorem canWrite_congr {c d : Coordinator} {q : Nat} (hp : c.peers = d.peers)
    (hw : c.writtenTo q = d.writtenTo q) : c.canWrite q = d.canWrite q := by
  rw [canWrite, canWrite, hp, hw]

/-- Writing to other peers changes nothing for a peer. -/
theorem canWrite_note {c : Coordinator} {ws : List Written} {q : Nat}
    (h : ∀ w ∈ ws, w.peer ≠ q) : (c.note ws).canWrite q = c.canWrite q := by
  refine canWrite_congr rfl ?_
  rw [writtenTo_note, List.filter_eq_nil_iff.mpr fun w hw => by simpa using h w hw,
    List.append_nil]

theorem write_eq_note (c : Coordinator) (q : Nat) (m : Message) :
    c.write q m = c.note [c.letter m q] := rfl

/-- Of letters to different peers at most one goes to a given peer. -/
theorem filter_letters {ps : List Nat} (hps : ps.Nodup) (c : Coordinator) (m : Message) (q : Nat) :
    (ps.map (c.letter m)).filter (·.peer == q) = if q ∈ ps then [c.letter m q] else [] := by
  induction ps with
  | nil => simp
  | cons p ps ih =>
    obtain ⟨hp, hps⟩ := List.nodup_cons.mp hps
    rw [List.map_cons, List.filter_cons, ih hps]
    by_cases h : p = q
    · subst h
      simp [letter, hp]
    · simp [letter, h, Ne.symm h]

/-- What goes to a single peer. -/
theorem filter_peer {ws : List Written} {q : Nat} (h : ∀ w ∈ ws, w.peer = q) (p : Nat) :
    ws.filter (·.peer == p) = if p = q then ws else [] := by
  by_cases hp : p = q
  · rw [if_pos hp, List.filter_eq_self]
    intro w hw
    simp [h w hw, hp]
  · rw [if_neg hp, List.filter_eq_nil_iff]
    intro w hw
    simp [h w hw, Ne.symm hp]

/-- Writing to different peers, one after the other. -/
theorem foldl_write {ps : List Nat} (hps : ps.Nodup) (c : Coordinator) (m : Message) :
    ps.foldl (fun c p => c.write p m) c = c.note (ps.map (c.letter m)) := by
  induction ps generalizing c with
  | nil => simp
  | cons p ps ih =>
    obtain ⟨hp, hps⟩ := List.nodup_cons.mp hps
    have hletter : ∀ q ∈ ps, (c.note [c.letter m p]).letter m q = c.letter m q := by
      intro q hq
      have hne : p ≠ q := fun h => hp (h ▸ hq)
      rw [letter, canWrite_note (by simpa [letter] using hne), letter]
    rw [List.foldl_cons, write_eq_note, ih hps, note_note, List.map_congr_left hletter]
    rfl

/-- Aborting writes to every worker. -/
theorem abort_eq_note {c : Coordinator} (hc : c.workers.Nodup) (reason : String) :
    c.abort reason = c.note (c.workers.map (c.letter (.abort reason))) :=
  foldl_write hc c _

/-! ### Writing to started workers -/

/-- The peer to which a message for a worker is written, if the worker was started. -/
def addressee? (c : Coordinator) (id : Nat) : Option Nat :=
  if c.started.contains id then c.workers[id]? else none

theorem send_eq_note (c : Coordinator) (id : Nat) (m : Message) :
    c.send id m = c.note ((c.addressee? id).toList.map (c.letter m)) := by
  unfold send addressee?
  cases c.workers[id]? with
  | none => simp
  | some p => by_cases h : id ∈ c.started <;> simp [h, write_eq_note]

/-- Different workers are different peers. -/
theorem nodup_addressees {c : Coordinator} (hc : c.workers.Nodup) {is : List Nat}
    (his : is.Nodup) : (is.filterMap c.addressee?).Nodup := by
  refine his.filterMap fun i j p hi hj => ?_
  simp only [addressee?, Option.mem_def, Option.ite_none_right_eq_some] at hi hj
  obtain ⟨hlt, hp⟩ := List.getElem?_eq_some_iff.mp hi.2
  exact (List.getElem?_inj hlt hc).mp (hi.2.trans hj.2.symm)

theorem sendAll_eq_note {c : Coordinator} (hc : c.workers.Nodup) {is : List Nat}
    (his : is.Nodup) (m : Message) :
    c.sendAll is m = c.note ((is.filterMap c.addressee?).map (c.letter m)) := by
  rw [← foldl_write (nodup_addressees hc his)]
  clear hc his
  unfold sendAll
  -- Neither the workers nor who was started changes on the way.
  suffices h : ∀ d : Coordinator, d.workers = c.workers → d.started = c.started →
      is.foldl (fun d id => d.send id m) d =
        (is.filterMap c.addressee?).foldl (fun d p => d.write p m) d from h c rfl rfl
  induction is with
  | nil => intros; rfl
  | cons i is ih =>
    intro d hw hs
    have ha : d.addressee? i = c.addressee? i := by rw [addressee?, addressee?, hw, hs]
    rw [List.foldl_cons, send_eq_note, ha, ih (d.note _) hw hs, List.filterMap_cons]
    cases c.addressee? i with
    | none => simp
    | some p => rfl

@[simp] theorem lines_note (c : Coordinator) (ws : List Written) : (c.note ws).lines = c.lines :=
  rfl

/-! ### Distributing the configuration -/

/-- The peers to which the configuration is written: those before the first write that fails, and
    the one at which it fails. -/
def reached (c : Coordinator) : List Nat → List Nat
  | [] => []
  | p :: ps => if c.canWrite p then p :: reached c ps else [p]

theorem reached_isPrefix (c : Coordinator) (ps : List Nat) : c.reached ps <+: ps := by
  induction ps with
  | nil => exact List.prefix_refl _
  | cons p ps ih =>
    by_cases h : c.canWrite p = true
    · simpa [reached, h] using ih
    · simp [reached, h]

/-- Unless a write fails, all are reached. -/
theorem reached_of_all {c : Coordinator} {ps : List Nat} (h : ps.all c.canWrite = true) :
    c.reached ps = ps := by
  induction ps with
  | nil => rfl
  | cons p ps ih =>
    obtain ⟨hp, hps⟩ := Bool.and_eq_true_iff.mp (List.all_cons ▸ h)
    rw [reached, if_pos hp, ih hps]

theorem reached_congr {c d : Coordinator} {ps : List Nat}
    (h : ∀ p ∈ ps, c.canWrite p = d.canWrite p) : c.reached ps = d.reached ps := by
  induction ps with
  | nil => rfl
  | cons p ps ih =>
    rw [reached, reached, h p (by simp), ih fun q hq => h q (by simp [hq])]

/-- The configuration is written up to the first write that fails. -/
theorem distribute_eq {ps : List Nat} (hps : ps.Nodup) (c : Coordinator) :
    c.distribute ps =
      (c.note ((c.reached ps).map (c.letter (.config c.setup.cfg))), ps.all c.canWrite) := by
  induction ps generalizing c with
  | nil => simp [distribute, reached]
  | cons p ps ih =>
    obtain ⟨hp, hps⟩ := List.nodup_cons.mp hps
    by_cases hw : c.canWrite p = true
    · -- The first write changes nothing for the peers that follow.
      have hcan : ∀ q ∈ ps, (c.note [c.letter (.config c.setup.cfg) p]).canWrite q =
          c.canWrite q := fun q hq =>
        canWrite_note (by simpa [letter] using fun h : p = q => hp (h ▸ hq))
      have hletters : (c.reached ps).map
            ((c.note [c.letter (.config c.setup.cfg) p]).letter (.config c.setup.cfg)) =
          (c.reached ps).map (c.letter (.config c.setup.cfg)) :=
        List.map_congr_left fun q hq => by
          rw [letter, hcan q ((c.reached_isPrefix ps).subset hq), letter]
      have hall : ps.all (c.note [c.letter (.config c.setup.cfg) p]).canWrite =
          ps.all c.canWrite := by
        rw [Bool.eq_iff_iff, List.all_eq_true, List.all_eq_true]
        exact forall₂_congr fun q hq => by rw [hcan q hq]
      simp only [distribute, write_eq_note, hw, if_true]
      rw [ih hps, setup_note, reached_congr hcan, hletters, hall, note_note, reached, if_pos hw,
        List.all_cons, hw, Bool.true_and]
      rfl
    · simp [distribute, hw, reached, write_eq_note]

/-! ### Starting the workers -/

/-- The ids of the workers to which the start can be written, of those given. -/
def startable (c : Coordinator) (is : List Nat) : List Nat :=
  is.filter fun id => (c.workers[id]?).any c.canWrite

/-- How starting some workers changes a coordinator: the start is written to each of them, those to
    which it can be written are started, and the others are let go of. -/
structure StartsTo (c : Coordinator) (is : List Nat) (d : Coordinator) : Prop where
  log : d.log = c.log ++ (is.filterMap (c.workers[·]?)).map (c.letter .start)
  started : d.started = c.started ++ c.startable is
  lines : d.lines = c.lines
  connected : d.connected = c.connected
  collector : d.collector = c.collector
  accepted : d.accepted = c.accepted
  rest : d.rest = c.rest

theorem startsTo_nil (c : Coordinator) : c.StartsTo [] c :=
  ⟨by simp, by simp [startable], rfl, rfl, rfl, rfl, rfl⟩

theorem startsTo_startWorker (c : Coordinator) (id : Nat) : c.StartsTo [id] (c.startWorker id) := by
  cases hp : c.workers[id]? with
  | none =>
    have h : c.startWorker id = c := by simp [startWorker, hp]
    rw [h]
    exact ⟨by simp [hp], by simp [startable, hp], rfl, rfl, rfl, rfl, rfl⟩
  | some p =>
    by_cases hw : c.canWrite p = true
    · have h : c.startWorker id = { c.write p .start with started := c.started ++ [id] } := by
        simp only [startWorker, hp, hw, if_true]
      rw [h]
      exact ⟨by simp [hp, write, letter], by simp [startable, hp, hw], rfl, rfl, rfl, rfl, rfl⟩
    · have h : c.startWorker id = (c.write p .start).drop p := by
        simp only [startWorker, hp, hw, Bool.false_eq_true, if_false]
      rw [h]
      exact ⟨by simp [hp, write, letter, drop, modifyPeer],
        by simp [startable, hp, hw, write, drop, modifyPeer], lines_drop _ _, rfl, rfl, rfl, rfl⟩

/-- A write to one worker leaves those to the others as they are. -/
theorem StartsTo.letter_eq {c d : Coordinator} {id : Nat} (h : c.StartsTo [id] d) {q : Nat}
    (hq : c.workers[id]? ≠ some q) (m : Message) : d.letter m q = c.letter m q := by
  have hw : d.writtenTo q = c.writtenTo q := by
    have hnone : ((([id].filterMap (c.workers[·]?)).map (c.letter .start)).filter
        (·.peer == q)) = [] := by
      simp only [List.filter_eq_nil_iff, List.mem_map, List.mem_filterMap, List.mem_singleton]
      rintro w ⟨p, ⟨_, rfl, hp⟩, rfl⟩ hpq
      exact hq (hp.trans (congrArg some (by simpa [letter] using hpq)))
    rw [writtenTo, h.log, List.filter_append, hnone, List.append_nil, writtenTo]
  rw [letter, letter, canWrite_eq_lines, canWrite_eq_lines c, h.lines, hw]

/-- **Start.** Starting workers one after the other writes to each as if it were the only one. -/
theorem foldl_startWorker {c : Coordinator} (hc : c.workers.Nodup) {is : List Nat}
    (his : is.Nodup) : c.StartsTo is (is.foldl startWorker c) := by
  induction is generalizing c with
  | nil => exact startsTo_nil c
  | cons i is ih =>
    obtain ⟨hi, his⟩ := List.nodup_cons.mp his
    have h₁ := startsTo_startWorker c i
    have hworkers := workers_of_rest h₁.rest
    have h₂ := ih (c := c.startWorker i) (hworkers ▸ hc) his
    -- The workers that follow are other peers than this one.
    have hne : ∀ j ∈ is, ∀ q, c.workers[j]? = some q → c.workers[i]? ≠ some q := by
      intro j hj q hjq hiq
      obtain ⟨hlt, -⟩ := List.getElem?_eq_some_iff.mp hiq
      exact hi ((List.getElem?_inj hlt hc).mp (hiq.trans hjq.symm) ▸ hj)
    have hletters : ((is.filterMap (c.workers[·]?)).map ((c.startWorker i).letter .start)) =
        (is.filterMap (c.workers[·]?)).map (c.letter .start) := by
      refine List.map_congr_left fun q hq => h₁.letter_eq ?_ _
      obtain ⟨j, hj, hjq⟩ := List.mem_filterMap.mp hq
      exact hne j hj q hjq
    have hstartable : (c.startWorker i).startable is = c.startable is := by
      refine List.filter_congr fun j hj => ?_
      rw [hworkers]
      cases hq : c.workers[j]? with
      | none => rfl
      | some q => exact congrArg Written.delivered (h₁.letter_eq (hne j hj q hq) .start)
    rw [List.foldl_cons]
    refine ⟨?_, ?_, h₂.lines.trans h₁.lines, h₂.connected.trans h₁.connected,
      h₂.collector.trans h₁.collector, h₂.accepted.trans h₁.accepted, h₂.rest.trans h₁.rest⟩
    · rw [h₂.log, h₁.log, hworkers, hletters, List.append_assoc, ← List.map_append,
        ← List.filterMap_append]
      rfl
    · rw [h₂.started, h₁.started, hstartable, List.append_assoc, startable, startable, startable,
        ← List.filter_append]
      rfl

end TxLoad.Coordinator
