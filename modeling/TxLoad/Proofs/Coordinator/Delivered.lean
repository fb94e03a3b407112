import TxLoad.Proofs.Coordinator.Barrier

namespace TxLoad.Coordinator

/-!
# What reaches the workers

What was delivered to a worker says how far the run has come.

* `Delivery` lists what can have been delivered to a worker, `Inv.delivery` says that it has.
* `Inv.of_start`: whoever was told to start is a worker of a run that has started.
* `Inv.of_ack`: whoever was acknowledged has completed with a last report that was read.
* `Inv.of_stop`: whoever was told to stop was told so for an interrupt, or some worker has failed.
-/

variable {c : Coordinator} {id q : Nat}

/-- What was delivered to the worker `id`, which is the peer `q`. -/
inductive Delivery (c : Coordinator) (id q : Nat) : List Message → Prop where
  | greeted : c.Delivery id q [.hello (some (UInt64.ofNat id))]
  | briefed (cfg : Config) : c.Delivery id q [.hello (some (UInt64.ofNat id)), .config cfg]
  | aborted (cfg? : Option Config) (reason : String) :
    c.Delivery id q
      (.hello (some (UInt64.ofNat id)) :: (cfg?.toList.map .config ++ [.abort reason]))
  | started {cfg : Config} {rs : List Reading} {e : WorkerEntry} {ms answers : List Message}
    (h : c.Started) (hs : c.Serves id q rs e ms) (ha : answers ⊆ ms) :
    c.Delivery id q (.hello (some (UInt64.ofNat id)) :: .config cfg :: .start :: answers)

/-- What can be delivered to a worker first, second and third. -/
theorem Delivery.expected {ms delivered : List Message} {m : Message}
    (h : c.Delivery id q delivered) (hp : ms ++ [m] <+: delivered) :
    (ms.length = 0 → ∃ x, m = .hello (some x)) ∧
    (ms.length = 1 → (∃ cfg, m = .config cfg) ∨ ∃ reason, m = .abort reason) ∧
    (ms.length = 2 → m = .start ∨ ∃ reason, m = .abort reason) := by
  have hget : delivered[ms.length]? = some m := by
    obtain ⟨more, rfl⟩ := hp
    simp
  refine ⟨fun hlen => ?_, fun hlen => ?_, fun hlen => ?_⟩ <;> rw [hlen] at hget
  · cases h <;> cases hget <;> exact ⟨_, rfl⟩
  · cases h with
    | greeted => cases hget
    | briefed cfg =>
      cases hget
      exact .inl ⟨_, rfl⟩
    | aborted cfg? reason =>
      cases cfg? <;> cases hget
      · exact .inr ⟨_, rfl⟩
      · exact .inl ⟨_, rfl⟩
    | started h hs ha =>
      cases hget
      exact .inl ⟨_, rfl⟩
  · cases h with
    | greeted => cases hget
    | briefed cfg => cases hget
    | aborted cfg? reason =>
      cases cfg? <;> cases hget
      exact .inr ⟨_, rfl⟩
    | started h hs ha =>
      cases hget
      exact .inl rfl

/-- Nothing else than configuration and abort is delivered after the greeting of a run that was
    called off. -/
theorem IsCalledOff.delivery {e : Error} (h : c.IsCalledOff e) (hq : c.workers[id]? = some q) :
    c.Delivery id q (c.deliveredTo q) := by
  obtain ⟨ws, reason, b, hws, hconfig⟩ := h.aborted id q hq
  rw [deliveredTo, hws]
  rcases hconfig with rfl | ⟨b', rfl⟩
  · cases b with
    | true => exact .aborted none reason
    | false => exact .greeted
  · cases b' <;> cases b
    · exact .greeted
    · exact .aborted none reason
    · exact .briefed _
    · exact .aborted (some c.setup.cfg) reason

/-- A worker that could be told to start may have been answered. -/
theorem Started.delivery (h : c.Started) (hq : c.workers[id]? = some q) :
    c.Delivery id q (c.deliveredTo q) := by
  obtain ⟨rs, e, ms, hs⟩ := h.isUnderway.served id q hq
  obtain ⟨ws, hws, hwritten⟩ := hs.written
  rw [deliveredTo, hwritten]
  by_cases hid : id ∈ c.started
  · rw [if_pos hid] at hws
    have hanswers : (ws.filter (·.delivered)).map (·.message) ⊆ ms :=
      hws ▸ (List.filter_sublist.map _).subset
    simpa [greeting, hid] using Delivery.started h hs hanswers
  · rw [if_neg hid] at hws
    obtain rfl := List.map_eq_nil_iff.mp hws
    simpa [greeting, hid] using Delivery.briefed c.setup.cfg

/-- **Delivery.** Nothing was delivered to a peer unless it is a worker. -/
theorem Inv.delivery (h : c.Inv) (q : Nat) : c.deliveredTo q = [] ∨
    ∃ id, c.workers[id]? = some q ∧ c.Delivery id q (c.deliveredTo q) := by
  by_cases hq : q ∈ c.workers
  · right
    obtain ⟨id, hid⟩ := List.mem_iff_getElem?.mp hq
    refine ⟨id, hid, ?_⟩
    rcases h.stage with hp | hs
    · cases hp with
      | accepting hp h =>
        rw [deliveredTo, (h.greeted id q hid).1]
        exact .greeted
      | configuring hp h =>
        rw [deliveredTo, (h.briefed id q hid).1]
        exact .briefed _
      | calledOff hp h => exact h.delivery hid
    · exact hs.delivery hid
  · exact .inl (h.basics.deliveredTo_stranger hq)

/-- Whoever was told to start is a worker of a run that has started. -/
theorem Inv.of_start (h : c.Inv) (hm : .start ∈ c.deliveredTo q) : c.Started := by
  rcases h.delivery q with hnil | ⟨id, -, hd⟩
  · rw [hnil] at hm
    cases hm
  · generalize c.deliveredTo q = ms at hm hd
    cases hd with
    | started h => exact h
    | aborted cfg? => cases cfg? <;> simp at hm
    | _ => simp at hm

/-- **Acknowledgements.** Whoever was acknowledged has completed, and its last report was read. -/
theorem Inv.of_ack (h : c.Inv) (hm : .ack ∈ c.deliveredTo q) :
    ∃ id e, c.workers[id]? = some q ∧ c.collector.entryOf? id = some e ∧ e.status = .completed ∧
      e.report.completed = true ∧ .message (.statsReport e.report) ∈ c.heardFrom q := by
  rcases h.delivery q with hnil | ⟨id, hq, hd⟩
  · rw [hnil] at hm
    cases hm
  · generalize c.deliveredTo q = delivered at hm hd
    cases hd with
    | @started cfg rs e ms answers h hs ha =>
      have hack : .ack ∈ ms := ha (by simpa using hm)
      have hcompleted := hs.dealings.of_ack hack
      obtain ⟨hlast, hmem⟩ := hs.dealings.of_completed hcompleted
      obtain ⟨x, hheard⟩ := hs.heard
      exact ⟨id, e, hq, hs.entry, hcompleted, hlast, by simp [hheard, hmem]⟩
    | aborted cfg? => cases cfg? <;> simp at hm
    | _ => simp at hm

/-- **Stops.** Nobody is told to stop but for an interrupt, unless a worker has failed. -/
theorem Inv.of_stop (h : c.Inv) {reason : String} (hm : .stop reason ∈ c.messagesTo q) :
    reason = "interrupted" ∨ ∃ id e, c.collector.entryOf? id = some e ∧ e.status = .failed := by
  obtain ⟨w, hw, hstop⟩ := List.mem_map.mp hm
  have hlog := (List.mem_filter.mp hw).1
  rcases h.stage with hp | hs
  · rcases hp.message_of_mem h.basics hlog with ⟨_, hm⟩ | ⟨_, hm⟩ | ⟨_, hm⟩ <;>
      rw [hm] at hstop <;> cases hstop
  · rcases h.basics.mem_log hlog with ⟨id, q, hq, hw⟩ | ⟨id, hid⟩
    · obtain ⟨rs, e, ms, hserves⟩ := hs.isUnderway.served id q hq
      rcases hserves.message_of_mem hw with ⟨_, hm⟩ | ⟨_, hm, -⟩ | hm | hm
      · rw [hm] at hstop
        cases hstop
      · rw [hm] at hstop
        cases hstop
      · rw [hm] at hstop
        cases hstop
      · rw [hstop] at hm
        exact (hserves.dealings.of_stop hm).imp_right fun hfailed => ⟨id, e, hserves.entry, hfailed⟩
    · rw [hid] at hstop
      cases hstop

end TxLoad.Coordinator
