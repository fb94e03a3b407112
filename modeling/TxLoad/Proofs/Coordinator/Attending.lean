import TxLoad.Proofs.Coordinator.Writing
import TxLoad.Proofs.Stats.Entries

namespace TxLoad

/-!
# What a coordinator makes of what its workers say

While a coordinator runs, what it reads from one worker concerns the entry of this worker alone, and
all that it writes in answer goes to this worker.

* `WorkerEntry.attend`: the entry afterwards and the answer, which depend on nothing but the entry
  and the reading.
* `Coordinator.attends_onReading`: reading while running is attending to the one worker.
* `Coordinator.entryOf_loseActive`: at the deadline all are given up that are expected to report.
-/

/-- Whether a reading is a message, and not an end of the link. -/
def Reading.isMessage : Reading → Bool
  | .message _ => true
  | _ => false

namespace WorkerEntry

/-- Whether the last accepted report is ahead of another one in requests or bytes. -/
def isAheadOf (e : WorkerEntry) (r : Report) : Prop :=
  r.requests < e.report.requests ∨ r.bytes < e.report.bytes

instance (e : WorkerEntry) (r : Report) : Decidable (e.isAheadOf r) :=
  inferInstanceAs (Decidable (_ ∨ _))

/-- How a message of the active worker `id` violates the protocol, if it does. -/
def violation? (id : Nat) (e : WorkerEntry) : Message → Option ProtocolError
  | .statsReport r =>
    if e.isAheadOf r then
      some (.nonMonotonic id e.report.requests e.report.bytes r.requests r.bytes)
    else none
  | m => some (.unexpected "stats_report" m.kind)

/-- The entry of an active worker after a message, and the answer: a violation is answered by a
    stop, the last report by an acknowledgement. -/
def judge (id : Nat) (e : WorkerEntry) (m : Message) : WorkerEntry × Option Message :=
  match e.violation? id m, m with
  | some err, _ => ({ e with status := .failed }, some (.stop err.message))
  | none, .statsReport r =>
    if r.completed then (⟨.completed, r⟩, some .ack) else (⟨.active, r⟩, none)
  | none, _ => (e, none)

/-- The entry of the worker `id` after a reading, and the answer. -/
def attend (id : Nat) (e : WorkerEntry) : Reading → WorkerEntry × Option Message
  | .message m => if e.status = .active then e.judge id m else (e, none)
  | _ => (e.lose, none)

/-- The report in a reading that is merged, if there is one. -/
def admits? (e : WorkerEntry) : Reading → Option Report
  | .message (.statsReport r) => if e.status = .active ∧ ¬ e.isAheadOf r then some r else none
  | _ => none

/-- The entry holds the last report that was merged. -/
theorem report_attend (id : Nat) (e : WorkerEntry) (r : Reading) :
    (e.attend id r).1.report = (e.admits? r).getD e.report := by
  cases r with
  | message m =>
    by_cases hs : e.status = .active
    · cases m with
      | statsReport r =>
        by_cases hv : e.isAheadOf r
        · simp [attend, hs, judge, violation?, hv, admits?]
        · by_cases hc : r.completed = true <;>
            simp [attend, hs, judge, violation?, hv, admits?, hc]
      | _ => simp [attend, hs, judge, violation?, admits?]
    · cases m <;> simp [attend, hs, admits?]
  | _ => simp [attend, admits?]

/-- A message that violates the protocol is not merged. -/
theorem admits?_of_violation {id : Nat} {e : WorkerEntry} {m : Message} {err : ProtocolError}
    (hv : e.violation? id m = some err) : e.admits? (.message m) = none := by
  cases m with
  | statsReport r =>
    simp only [violation?, Option.ite_none_right_eq_some] at hv
    simp [admits?, hv.1]
  | _ => rfl

/-- A worker that is not expected to report is not attended to. -/
theorem attend_of_ne {e : WorkerEntry} (h : e.status ≠ .active) (id : Nat) (r : Reading) :
    e.attend id r = (e, none) := by
  cases r <;> simp [attend, lose, h]

/-- Nothing that a worker says makes it a lost one. -/
theorem status_attend_ne_lost {id : Nat} {e : WorkerEntry} (hs : e.status = .active) (m : Message) :
    (e.attend id (.message m)).1.status ≠ .lost := by
  simp only [attend, if_pos hs, judge]
  split
  · exact fun h => by cases h
  · split <;> exact fun h => by cases h
  · rw [hs]
    exact fun h => by cases h

/-- Nothing of such a worker is merged. -/
theorem admits?_of_ne {e : WorkerEntry} (h : e.status ≠ .active) (r : Reading) :
    e.admits? r = none := by
  cases r with
  | message m => cases m <;> simp [admits?, h]
  | _ => rfl

end WorkerEntry

namespace Coordinator

/-- How a coordinator changes that attends to a reading from the worker `id` with entry `e`. -/
structure Attends (c : Coordinator) (id : Nat) (e : WorkerEntry) (r : Reading) (d : Coordinator) :
    Prop where
  entries : ∀ j, d.collector.entryOf? j =
    if j = id then some (e.attend id r).1 else c.collector.entryOf? j
  ids : d.collector.ids = c.collector.ids
  published : c.collector.ids.Nodup → c.collector.IsPublished → d.collector.IsPublished
  log : d.log = c.log ++
    (e.attend id r).2.toList.flatMap fun m => (c.addressee? id).toList.map (c.letter m)
  accepted : d.accepted = c.accepted ++ (e.admits? r).toList.map (id, ·)
  connected : d.connected =
    if r.isMessage then c.connected else c.connected.filter (· != id)
  peers : d.peers = c.peers
  started : d.started = c.started
  rest : d.rest = c.rest

/-- A violation marks the worker as failed and stops it. -/
theorem onViolation_eq (c : Coordinator) (id : Nat) (err : ProtocolError) :
    c.onViolation id err = { c with collector := c.collector.fail id }.note
      ((c.addressee? id).toList.map (c.letter (.stop err.message))) := by
  rw [onViolation, send_eq_note]
  rfl

theorem refusal?_eq {c : Collector} {id : Nat} {e : WorkerEntry} (he : c.entryOf? id = some e)
    (hs : e.status = .active) (r : Report) :
    c.refusal? id r = e.violation? id (.statsReport r) := by
  simp only [Collector.refusal?, he, hs, WorkerEntry.violation?, WorkerEntry.isAheadOf]
  rfl

/-- Attending to a message that violates the protocol. -/
theorem attends_onViolation {c : Coordinator} {id : Nat} {e : WorkerEntry} {m : Message}
    {err : ProtocolError} (he : c.collector.entryOf? id = some e) (hs : e.status = .active)
    (hv : e.violation? id m = some err) :
    c.Attends id e (.message m) (c.onViolation id err) := by
  have ha : e.attend id (.message m) =
      ({ e with status := .failed }, some (.stop err.message)) := by
    simp [WorkerEntry.attend, hs, WorkerEntry.judge, hv]
  rw [onViolation_eq]
  refine ⟨fun j => ?_, ?_, fun hids hp => ?_, ?_, ?_, rfl, rfl, rfl, rfl⟩
  · rw [ha]
    simp [Collector.entryOf_fail, he]
  · simp
  · exact hp.mark hids _ _ _
  · simp [ha]
  · simp [WorkerEntry.admits?_of_violation hv]

/-- Attending to a report that is accepted. -/
theorem attends_accept {c : Coordinator} {id : Nat} {e : WorkerEntry} {r : Report}
    (he : c.collector.entryOf? id = some e) (hs : e.status = .active)
    (hv : e.violation? id (.statsReport r) = none) (now : Nat) :
    c.Attends id e (.message (.statsReport r))
      ((c.keep id r (c.collector.accept id r now)).note
        (if r.completed then (c.addressee? id).toList.map (c.letter .ack) else [])) := by
  have ha : e.attend id (.message (.statsReport r)) =
      if r.completed then (⟨.completed, r⟩, some .ack) else (⟨.active, r⟩, none) := by
    simp [WorkerEntry.attend, hs, WorkerEntry.judge, hv]
  have hahead : ¬ e.isAheadOf r := by
    intro h
    simp [WorkerEntry.violation?, h] at hv
  refine ⟨fun j => ?_, ?_, fun _ _ => ?_, ?_, ?_, rfl, rfl, rfl, rfl⟩
  · rw [ha, collector_note, keep, Collector.entryOf_accept he]
    by_cases hc : r.completed = true <;> simp [hc]
  · simp [keep]
  · exact Collector.isPublished_accept ..
  · rw [ha]
    by_cases hc : r.completed = true <;> simp [hc, keep]
  · simp [keep, WorkerEntry.admits?, hs, hahead]

/-- Attending to a message of a worker that is expected to report. -/
theorem attends_onMessage {c : Coordinator} {id : Nat} {e : WorkerEntry}
    (he : c.collector.entryOf? id = some e) (hs : e.status = .active) (m : Message) :
    c.Attends id e (.message m) (c.onMessage id m) := by
  cases hv : e.violation? id m with
  | some err =>
    have hm : c.onMessage id m = c.onViolation id err := by
      cases m with
      | statsReport r => simp only [onMessage, onReport, Collector.merge, refusal?_eq he hs, hv]
      | _ => simp_all [onMessage, WorkerEntry.violation?]
    rw [hm]
    exact attends_onViolation he hs hv
  | none =>
    cases m with
    | statsReport r =>
      have hm : c.onMessage id (.statsReport r) =
          (c.keep id r (c.collector.accept id r (Clock.nanos c.now))).note
            (if r.completed then (c.addressee? id).toList.map (c.letter .ack) else []) := by
        simp only [onMessage, onReport, Collector.merge, refusal?_eq he hs, hv]
        cases hc : r.completed with
        | true => exact send_eq_note _ _ _
        | false => simp
      rw [hm]
      exact attends_accept he hs hv _
    | _ => simp [WorkerEntry.violation?] at hv

/-- Attending to a message of a worker that is not expected to report. -/
theorem attends_ignored {c : Coordinator} {id : Nat} {e : WorkerEntry}
    (he : c.collector.entryOf? id = some e) (hs : e.status ≠ .active) (m : Message) :
    c.Attends id e (.message m) c := by
  have ha : e.attend id (.message m) = (e, none) := WorkerEntry.attend_of_ne hs id _
  refine ⟨fun j => ?_, rfl, fun _ hp => hp, by simp [ha],
    by simp [WorkerEntry.admits?_of_ne hs], rfl, rfl, rfl, rfl⟩
  rw [ha]
  by_cases hj : j = id <;> simp [hj, he]

/-- Attending to the end of a link. -/
theorem attends_onLeft {c : Coordinator} {id : Nat} {e : WorkerEntry}
    (he : c.collector.entryOf? id = some e) {r : Reading} (hr : r.isMessage = false) :
    c.Attends id e r (c.onLeft id) := by
  have ha : e.attend id r = (e.lose, none) := by
    cases r with
    | message m => cases hr
    | _ => rfl
  have hadmits : e.admits? r = none := by
    cases r with
    | message m => cases hr
    | _ => rfl
  refine ⟨fun j => ?_, by simp [onLeft], fun hids hp => hp.mark hids _ _ _, ?_, ?_, ?_, rfl, rfl,
    rfl⟩
  · rw [ha]
    simp [onLeft, Collector.entryOf_lose, he]
  · simp [ha, onLeft, disconnect]
  · simp [hadmits, onLeft, disconnect]
  · simp [hr, onLeft, disconnect]

/-- **Attending.** What is read from a registered worker while the coordinator runs concerns only
    this worker's entry, and only this worker is answered. -/
theorem attends_onReading {c : Coordinator} {id : Nat} {e : WorkerEntry}
    (he : c.collector.entryOf? id = some e) (r : Reading) :
    c.Attends id e r (c.onReading id r) := by
  have hstatus : c.collector.status id = some e.status := by simp [Collector.status, he]
  cases r with
  | message m =>
    by_cases hs : e.status = .active
    · have hread : c.onReading id (.message m) = c.onMessage id m := by
        simp [onReading, hstatus, hs]
      rw [hread]
      exact attends_onMessage he hs m
    · have hread : c.onReading id (.message m) = c := by
        simp [onReading, hstatus, hs]
      rw [hread]
      exact attends_ignored he hs m
  | malformed => exact attends_onLeft he rfl
  | unreadable => exact attends_onLeft he rfl
  | ended => exact attends_onLeft he rfl

/-! ### The deadline -/

/-- The entries after the workers were given up that are expected to report. -/
theorem entryOf_loseActive {c : Coordinator} (hc : c.collector.ids.Nodup) (id : Nat) :
    c.loseActive.collector.entryOf? id = (c.collector.entryOf? id).map WorkerEntry.lose := by
  have h := Collector.entryOf_foldl_lose c.collector.active c.collector id
  simp only [Collector.mem_active_iff hc] at h
  rw [loseActive, h]
  cases he : c.collector.entryOf? id with
  | none => simp
  | some e =>
    -- An entry that is not active is none to be lost.
    by_cases hs : e.status = .active
    · simp [Collector.status, he, hs]
    · simp [Collector.status, he, hs, WorkerEntry.lose]

/-- At the deadline nobody remains who is expected to report. -/
theorem isSettled_loseActive {c : Coordinator} (hc : c.collector.ids.Nodup) :
    c.loseActive.collector.isSettled = true := by
  have hids : c.loseActive.collector.ids = c.collector.ids := Collector.ids_foldl_lose ..
  rw [Collector.isSettled_iff_entry (hids ▸ hc)]
  intro id e he
  rw [entryOf_loseActive hc, Option.map_eq_some_iff] at he
  obtain ⟨e', -, rfl⟩ := he
  exact e'.status_lose_ne_active

end Coordinator

end TxLoad
