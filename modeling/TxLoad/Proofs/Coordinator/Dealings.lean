import TxLoad.Proofs.Coordinator.Attending

namespace TxLoad

/-!
# What passes between a running coordinator and a worker

`Dealings` relates everything that was read from one started worker to the worker's entry, to the
answers and to the reports that were merged, however the readings were interleaved with interrupts
and with the deadline.

* `Dealings.report_eq`: the entry holds the last report that was merged.
* `Dealings.of_ack`: an acknowledgement is written only to a worker that has completed.
* `Dealings.of_completed`: a completed worker's last report says so.
* `Dealings.status_ne_active`: whoever has said so is not expected to report any more.
* `Dealings.of_failed`: a failed worker has sent a message that violates the protocol.
-/

/-- What was read from the started worker `id`, its entry, what was written to it after the start,
    and the reports of it that were merged. -/
inductive Dealings (id : Nat) :
    List Reading → WorkerEntry → List Message → List Report → Prop where
  | start : Dealings id [] {} [] []
  | attend {rs e ms as} (h : Dealings id rs e ms as) (r : Reading) :
    Dealings id (rs ++ [r]) (e.attend id r).1 (ms ++ (e.attend id r).2.toList)
      (as ++ (e.admits? r).toList)
  | interrupt {rs e ms as} (h : Dealings id rs e ms as) (hs : e.status = .active) :
    Dealings id rs e (ms ++ [.stop "interrupted"]) as
  | expire {rs e ms as} (h : Dealings id rs e ms as) : Dealings id rs e.lose ms as

namespace WorkerEntry

/-- Giving up a worker brings it to no other status than lost. -/
theorem status_lose_eq {e : WorkerEntry} {s : WorkerStatus} (h : e.lose.status = s) :
    s = .lost ∨ e.status = s := by
  by_cases hs : e.status = .active
  · left
    simpa [lose, hs] using h.symm
  · right
    simpa [lose, hs] using h

/-- A worker that has failed is not given up. -/
theorem lose_of_failed {e : WorkerEntry} (h : e.lose.status = .failed) :
    e.status = .failed ∧ e.lose = e := by
  rcases status_lose_eq h with h | h
  · cases h
  · exact ⟨h, by simp [lose, h]⟩

/-- What can come of attending to a reading: the entry, the answer and the merged report. -/
inductive Attended (id : Nat) (e : WorkerEntry) :
    Reading → WorkerEntry × Option Message → Option Report → Prop where
  | ignored (r : Reading) : Attended id e r (e, none) none
  | left (r : Reading) : Attended id e r (e.lose, none) none
  | violated {m : Message} {err : ProtocolError} (hv : e.violation? id m = some err) :
    Attended id e (.message m) ({ e with status := .failed }, some (.stop err.message)) none
  | continued {r : Report} (hc : r.completed = false) :
    Attended id e (.message (.statsReport r)) (⟨.active, r⟩, none) (some r)
  | completed {r : Report} (hc : r.completed = true) :
    Attended id e (.message (.statsReport r)) (⟨.completed, r⟩, some .ack) (some r)

/-- A worker completes only by a last report, which is acknowledged, and fails only for a
    violation, which is answered by a stop. -/
theorem attended (id : Nat) (e : WorkerEntry) (r : Reading) :
    Attended id e r (e.attend id r) (e.admits? r) := by
  cases r with
  | message m =>
    by_cases hs : e.status = .active
    · cases hv : e.violation? id m with
      | some err =>
        have ha : e.attend id (.message m) =
            ({ e with status := .failed }, some (.stop err.message)) := by
          simp [attend, hs, judge, hv]
        rw [ha, admits?_of_violation hv]
        exact .violated hv
      | none =>
        cases m with
        | statsReport report =>
          have hadmits : e.admits? (.message (.statsReport report)) = some report := by
            simpa [admits?, violation?, hs] using hv
          rw [hadmits]
          by_cases hc : report.completed = true
          · simpa [attend, hs, judge, hv, hc] using Attended.completed hc
          · have hc : report.completed = false := by simpa using hc
            simpa [attend, hs, judge, hv, hc] using Attended.continued hc
        | _ => cases hv
    · rw [attend_of_ne hs, admits?_of_ne hs]
      exact .ignored _
  | _ => exact .left _

end WorkerEntry

namespace Dealings

variable {id : Nat} {rs : List Reading} {e : WorkerEntry} {ms : List Message} {as : List Report}

/-- A report is merged only after it was read, and in the order of reading. -/
theorem sublist (h : Dealings id rs e ms as) :
    List.Sublist (as.map fun r => Reading.message (.statsReport r)) rs := by
  induction h with
  | start => exact List.Sublist.refl _
  | @attend rs e ms as h r ih =>
    rw [List.map_append]
    refine ih.append ?_
    have ha := e.attended id r
    generalize e.attend id r = a, e.admits? r = b at ha ⊢
    cases ha <;> simp
  | interrupt h hs ih => exact ih
  | expire h ih => exact ih

/-- The entry holds the last report that was merged. -/
theorem report_eq (h : Dealings id rs e ms as) : e.report = as.getLast?.getD {} := by
  induction h with
  | start => rfl
  | @attend rs e ms as h r ih =>
    rw [WorkerEntry.report_attend, ih]
    cases e.admits? r <;> simp
  | interrupt h hs ih => exact ih
  | expire h ih => rw [WorkerEntry.report_lose, ih]

/-- Unless nothing was merged yet, the report of the entry was read from the worker. -/
theorem report_mem (h : Dealings id rs e ms as) :
    e.report = {} ∨ .message (.statsReport e.report) ∈ rs := by
  rw [h.report_eq]
  cases has : as.getLast? with
  | none => exact .inl rfl
  | some r =>
    refine .inr (h.sublist.subset ?_)
    exact List.mem_map.mpr ⟨r, List.mem_of_getLast? has, rfl⟩

/-- **Completion.** A completed worker's last report is marked as such and was read. -/
theorem of_completed (h : Dealings id rs e ms as) (hs : e.status = .completed) :
    e.report.completed = true ∧ .message (.statsReport e.report) ∈ rs := by
  have hc : e.report.completed = true := by
    induction h with
    | start => cases hs
    | @attend rs e ms as h r ih =>
      have ha := e.attended id r
      generalize e.attend id r = a, e.admits? r = b at ha hs ⊢
      cases ha with
      | ignored => exact ih hs
      | left =>
        rcases e.status_lose_eq hs with h | h
        · cases h
        · simpa using ih h
      | violated hv => cases hs
      | continued hc => cases hs
      | completed hc => exact hc
    | interrupt h hs' ih => exact ih hs
    | @expire rs e ms as h ih =>
      rcases e.status_lose_eq hs with h | h
      · cases h
      · simpa using ih h
  refine ⟨hc, h.report_mem.resolve_left fun h => ?_⟩
  rw [h] at hc
  cases hc

/-- Whoever has said that its report is the last is not waited for. -/
theorem status_ne_active (h : Dealings id rs e ms as) {r : Report}
    (hr : .message (.statsReport r) ∈ rs) (hc : r.completed = true) : e.status ≠ .active := by
  induction h with
  | start => cases hr
  | @attend rs e ms as h r' ih =>
    rcases List.mem_append.mp hr with hr | hr
    · rw [WorkerEntry.attend_of_ne (ih hr)]
      exact ih hr
    · obtain rfl := List.mem_singleton.mp hr
      by_cases hs : e.status = .active
      · cases hv : e.violation? id (.statsReport r) <;>
          simp [WorkerEntry.attend, hs, WorkerEntry.judge, hv, hc]
      · rw [WorkerEntry.attend_of_ne hs]
        exact hs
  | interrupt h hs ih => exact ih hr
  | expire h ih => exact WorkerEntry.status_lose_ne_active _

/-- **Acknowledgement.** Only a worker that has completed is acknowledged. -/
theorem of_ack (h : Dealings id rs e ms as) (hm : .ack ∈ ms) : e.status = .completed := by
  induction h with
  | start => cases hm
  | @attend rs e ms as h r ih =>
    by_cases hack : .ack ∈ ms
    · -- Once completed, a worker is not attended to anymore.
      rw [WorkerEntry.attend_of_ne (by simp [ih hack])]
      exact ih hack
    · have ha := e.attended id r
      generalize e.attend id r = a, e.admits? r = b at ha hm ⊢
      cases ha with
      | completed hc => rfl
      | _ => simp [hack] at hm
  | interrupt h hs ih => exact ih (by simpa using hm)
  | @expire rs e ms as h ih => simp [WorkerEntry.lose, ih hm]

/-- A started worker is written nothing but acknowledgements and stops. -/
theorem answers (h : Dealings id rs e ms as) : ∀ m ∈ ms, m = .ack ∨ ∃ reason, m = .stop reason := by
  induction h with
  | start => simp
  | @attend rs e ms as h r ih =>
    intro m hm
    rcases List.mem_append.mp hm with hm | hm
    · exact ih m hm
    · have ha := e.attended id r
      generalize e.attend id r = a, e.admits? r = b at ha hm
      cases ha with
      | violated hv => exact .inr ⟨_, by simpa using hm⟩
      | completed hc => exact .inl (by simpa using hm)
      | _ => cases hm
  | interrupt h hs ih =>
    intro m hm
    rcases List.mem_append.mp hm with hm | hm
    · exact ih m hm
    · exact .inr ⟨_, List.mem_singleton.mp hm⟩
  | expire h ih => exact ih

/-- **Failure.** A worker fails by a message that violates the protocol, compared with the last
    report that was merged before. -/
theorem of_failed (h : Dealings id rs e ms as) (hs : e.status = .failed) :
    ∃ pre m post err, rs = pre ++ .message m :: post ∧ e.violation? id m = some err ∧
      (e.report = {} ∨ .message (.statsReport e.report) ∈ pre) := by
  induction h with
  | start => cases hs
  | @attend rs e ms as h r ih =>
    -- A worker that failed before is only read from.
    have hkeep : e.status = .failed → ∃ pre m post err, rs ++ [r] = pre ++ .message m :: post ∧
        e.violation? id m = some err ∧
        (e.report = {} ∨ .message (.statsReport e.report) ∈ pre) := by
      intro hs
      obtain ⟨pre, m, post, err, rfl, hv, hr⟩ := ih hs
      exact ⟨pre, m, post ++ [r], err, by simp, hv, hr⟩
    have ha := e.attended id r
    generalize e.attend id r = a, e.admits? r = b at ha hs ⊢
    cases ha with
    | ignored => exact hkeep hs
    | left =>
      obtain ⟨hs, hlose⟩ := WorkerEntry.lose_of_failed hs
      rw [hlose]
      exact hkeep hs
    | @violated m err hv => exact ⟨rs, m, [], err, rfl, by cases m <;> exact hv, h.report_mem⟩
    | continued hc => cases hs
    | completed hc => cases hs
  | interrupt h hs' ih => exact ih hs
  | @expire rs e ms as h ih =>
    obtain ⟨hs, hlose⟩ := WorkerEntry.lose_of_failed hs
    rw [hlose]
    exact ih hs

/-- A worker that has not failed is stopped only for an interrupt. -/
theorem of_stop (h : Dealings id rs e ms as) {reason : String} (hm : .stop reason ∈ ms) :
    reason = "interrupted" ∨ e.status = .failed := by
  induction h with
  | start => cases hm
  | @attend rs e ms as h r ih =>
    rcases List.mem_append.mp hm with hm | hm
    · refine (ih hm).imp_right fun hs => ?_
      rw [WorkerEntry.attend_of_ne (by simp [hs])]
      exact hs
    · have ha := e.attended id r
      generalize e.attend id r = a, e.admits? r = b at ha hm ⊢
      cases ha with
      | violated hv => exact .inr rfl
      | _ => simp at hm
  | interrupt h hs ih =>
    rcases List.mem_append.mp hm with hm | hm
    · exact ih hm
    · exact .inl (by simpa using hm)
  | @expire rs e ms as h ih =>
    refine (ih hm).imp_right fun hs => ?_
    simp [WorkerEntry.lose, hs]

end Dealings

end TxLoad
