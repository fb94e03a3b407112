import TxLoad.Proofs.Coordinator.Underway
import TxLoad.Proofs.Stats.Keeping

namespace TxLoad

/-!
# What a summary sums up

* `Inv.of_ok`: a coordinator succeeds with the totals of its collector, and nobody is expected to
  report then.
* `IsUnderway.entry`: the entry of a worker holds the last report of it that was merged.
* `IsUnderway.toNat_totals`: the totals are the sums of these reports over all workers.
-/

namespace Coordinator

variable {c : Coordinator}

theorem phase_of_result {result : Except Error Summary} (h : c.result? = some result) :
    c.phase = .finished result := by
  unfold result? at h
  split at h
  · rename_i hp
    rw [hp, Option.some.inj h]
  · cases h

/-- A coordinator that has succeeded has started its workers, expects no more reports, and gives the
    totals of its collector. -/
theorem Inv.of_ok (h : c.Inv) {s : Summary} (hr : c.result? = some (.ok s)) :
    c.IsUnderway ∧ c.collector.isSettled = true ∧
      s.transactions = c.collector.totals.requests ∧ s.bytes = c.collector.totals.bytes := by
  have hphase := phase_of_result hr
  rcases h.stage with hp | hs
  · cases hp with
    | _ hp =>
      rw [hphase] at hp
      cases hp
  · cases hs with
    | finished hp hu hs ho =>
      rw [hphase] at hp
      cases hp
      cases ho with
      | summed hn hr =>
        obtain rfl := Storage.eq_of_conclude hr.symm
        exact ⟨hu, hs, Summary.transactions_of _ _ _, Summary.bytes_of _ _ _⟩
    | _ hp =>
      rw [hphase] at hp
      cases hp

/-! ### The totals -/

/-- The entry of a worker holds the last report of it that was merged. -/
theorem IsUnderway.entry (h : c.IsUnderway) {id : Nat} {e : WorkerEntry}
    (he : c.collector.entryOf? id = some e) :
    id < c.workers.length ∧ e.report = c.lastReport id := by
  have hid : id < c.workers.length := by
    rw [← List.mem_range, ← h.ids]
    exact Collector.mem_ids he
  obtain ⟨rs, e', ms, hs⟩ := h.served id _ (List.getElem?_eq_getElem hid)
  obtain rfl : e' = e := Option.some.inj (hs.entry.symm.trans he)
  exact ⟨hid, hs.dealings.report_eq.trans (c.lastReport_eq id).symm⟩

/-- **Totals.** They are the sums of the last reports that were merged, each worker's once. -/
theorem IsUnderway.toNat_totals (h : c.IsUnderway) :
    c.collector.totals.requests.toNat =
      ((List.range c.workers.length).map fun id => (c.lastReport id).requests.toNat).sum % 2 ^ 64 ∧
    c.collector.totals.bytes.toNat =
      ((List.range c.workers.length).map fun id => (c.lastReport id).bytes.toNat).sum % 2 ^ 64 := by
  have hnodup : c.collector.ids.Nodup := h.ids ▸ List.nodup_range
  have hreports : c.collector.workers.map (·.2.report) =
      (List.range c.workers.length).map c.lastReport := by
    rw [Collector.workers_eq_map hnodup, List.map_map, h.ids]
    refine List.map_congr_left fun id hid => ?_
    obtain ⟨e, he⟩ := Collector.exists_entry (h.ids.symm ▸ hid)
    simp only [Function.comp_apply, he, Option.getD_some]
    exact (h.entry he).2
  have hmap : ∀ f : Report → Nat, c.collector.workers.map (fun w => f w.2.report) =
      (List.range c.workers.length).map fun id => f (c.lastReport id) := by
    intro f
    have := congrArg (List.map f) hreports
    simpa only [List.map_map, Function.comp_def] using this
  obtain ⟨hrequests, hbytes⟩ := c.collector.toNat_totals
  rw [hrequests, hbytes, hmap fun r => r.requests.toNat, hmap fun r => r.bytes.toNat]
  exact ⟨rfl, rfl⟩

end Coordinator

end TxLoad
