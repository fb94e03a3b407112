import TxLoad.Proofs.Worker.Invariant

namespace TxLoad

/-!
# What a worker tells

What a worker has written is read off its invariant.

* `Worker.Inv.told_eq`: a worker says hello, accepts or rejects the configuration, and reports.
* `Worker.Inv.reported_ascending`: its reports grow, as long as its true numbers fit.
* `Worker.Inv.reported_dropLast`, `Worker.Inv.of_completed`: only its last report says that it has
  completed; this one is written when all engines have stopped and sums their counters.
* `Worker.Inv.of_completed_sent`: a worker that has sent it waits for nothing but the last word.
-/

/-- The report in a message, if it is one. -/
def Message.report? : Message → Option Report
  | .statsReport r => some r
  | _ => none

namespace Worker

variable {w : Worker} {ts : List Tally} {last : Report}

/-- The reports that a worker has written, in order. -/
def reported (w : Worker) : List Report := w.told.filterMap Message.report?

/-! ### Reading the invariant -/

theorem Idle.told_sent {told : List Message} {heard : List Reading} (h : w.Idle told heard) :
    w.sent = w.told := h.sent_eq.trans h.told_eq.symm

theorem IsReporting.le_of_lost (hc : w.IsReporting ts ∨ ∃ last, w.Concluded ts last) :
    .hello none :: .ready :: reports ts <+: w.told := by
  rcases hc with h | ⟨last, h⟩
  · exact h ▸ List.prefix_refl _
  · exact h.told ▸ ⟨[.statsReport last], rfl⟩

/-- What was sent is the beginning of what was written. -/
theorem Inv.sent_prefix (h : w.Inv) : w.sent <+: w.told := by
  cases h with
  | refused hp h => exact h.sent
  | abandoning hp h hr hs => exact hs
  | lost hp h hc hs => exact hs.trans (IsReporting.le_of_lost hc)
  | running hp h hc hs | finishing hp h hc hs | done hp h hc hs => exact hs ▸ List.prefix_refl _
  | connecting hp h | pausing hp h | greeting hp h | awaiting hp hid h | preparing hp hid h hr
  | ready hp hid h => exact h.told_sent ▸ List.prefix_refl _

/-- A worker has not started its engines, or reports on them, or has concluded. -/
theorem Inv.overture_or_launched (h : w.Inv) : (IsOverture w.told ∧ w.group.engines = []) ∨
    ∃ ts, w.Launched ts ∧ (w.IsReporting ts ∨ ∃ last, w.Concluded ts last) := by
  cases h with
  | connecting hp h | pausing hp h => exact .inl ⟨h.told_eq ▸ isOverture_nil, h.engines⟩
  | greeting hp h | awaiting hp hid h | preparing hp hid h hr =>
    exact .inl ⟨h.told_eq ▸ isOverture_hello, h.engines⟩
  | ready hp hid h => exact .inl ⟨h.told_eq ▸ isOverture_ready, h.engines⟩
  | refused hp h => exact .inl ⟨h.told, h.engines⟩
  | running hp h hr hs | abandoning hp h hr hs => exact .inr ⟨_, h, .inl hr⟩
  | finishing hp h hc hs | done hp h hc hs => exact .inr ⟨_, h, .inr ⟨_, hc⟩⟩
  | lost hp h hc hs => exact .inr ⟨_, h, hc⟩

/-- Whoever has engines was told to start, and had accepted the configuration. -/
theorem Inv.of_engines (h : w.Inv) (he : w.group.engines ≠ []) :
    .message .start ∈ w.heard ∧ .ready ∈ w.told := by
  rcases h.overture_or_launched with ⟨-, h⟩ | ⟨ts, h, hc⟩
  · exact absurd h he
  · obtain ⟨x, cfg, rs, -, hheard⟩ := h.heard
    exact ⟨by simp [hheard], (IsReporting.le_of_lost hc).subset (by simp)⟩

theorem phase_of_result {result : Except Error Report} (h : w.result? = some result) :
    w.phase = .stopped result := by
  unfold result? at h
  split at h
  · rename_i hp
    rw [hp, Option.some.inj h]
  · cases h

/-- A worker that has succeeded has concluded. -/
theorem Inv.of_done (h : w.Inv) (hp : w.phase = .stopped (.ok last)) :
    ∃ ts, w.Launched ts ∧ w.Concluded ts last := by
  cases h with
  | done hp' h hc =>
    rw [hp] at hp'
    cases hp'
    exact ⟨_, h, hc⟩
  | _ hp' =>
    rw [hp] at hp'
    cases hp'

/-! ### The reports -/

theorem filterMap_reports (ts : List Tally) :
    (reports ts).filterMap Message.report? = ts.map (·.report false) := by
  rw [reports, List.filterMap_map, ← List.filterMap_eq_map]
  rfl

theorem IsReporting.reported_eq (h : w.IsReporting ts) :
    w.reported = ts.map (·.report false) := by
  rw [reported, h, ← filterMap_reports]
  rfl

theorem Concluded.reported_eq (h : w.Concluded ts last) :
    w.reported = ts.map (·.report false) ++ [last] := by
  have hlast : [Message.statsReport last].filterMap Message.report? = [last] := rfl
  rw [reported, h.told, ← filterMap_reports, ← hlast, ← List.filterMap_append]
  rfl

theorem reported_of_isOverture (h : IsOverture w.told) : w.reported = [] := by
  have hnil : ∀ ms : List Message, ms.filterMap Message.report? = [] → w.told <+: ms →
      w.reported = [] := by
    intro ms hms h
    exact List.prefix_nil.mp (hms ▸ h.filterMap Message.report?)
  rcases h with h | ⟨reason, h⟩
  · exact hnil _ rfl h
  · exact hnil _ rfl h

/-- **What a worker says** is hello, one answer to the configuration, and then nothing but
    reports. -/
theorem Inv.told_eq (h : w.Inv) : IsOverture w.told ∨
    w.told = .hello none :: .ready :: w.reported.map .statsReport := by
  have hreports : ∀ ts, (ts.map (Tally.report · false)).map Message.statsReport = reports ts := by
    intro ts
    rw [reports, List.map_map]
    rfl
  rcases h.overture_or_launched with ⟨h, -⟩ | ⟨ts, -, h | ⟨last, h⟩⟩
  · exact .inl h
  · rw [h.reported_eq, hreports]
    exact .inr h
  · rw [h.reported_eq, List.map_append, hreports]
    exact .inr h.told

/-- What a worker sends after hello and consent is its next report. -/
theorem Inv.next_report (h : w.Inv) {a b m : Message} {ms : List Message}
    (hs : a :: b :: (ms ++ [m]) <+: w.sent) :
    ∃ rs r, ms = rs.map .statsReport ∧ m = .statsReport r ∧ rs ++ [r] <+: w.reported := by
  have htold := hs.trans h.sent_prefix
  rcases h.told_eq with ho | heq
  · -- Before the start a worker says two things at most.
    have hshort : w.told.length ≤ 2 := by
      rcases ho with ho | ⟨reason, ho⟩ <;> exact ho.length_le
    have hlong := htold.length_le
    simp only [List.length_cons, List.length_append, List.length_nil] at hlong
    omega
  · rw [heq] at htold
    obtain ⟨-, htold⟩ := List.cons_prefix_cons.mp htold
    obtain ⟨-, htold⟩ := List.cons_prefix_cons.mp htold
    obtain ⟨rs, hrs, hmap⟩ := List.prefix_map_iff.mp htold
    obtain ⟨rs', rs'', rfl, hms, hm⟩ := List.map_eq_append_iff.mp hmap.symm
    obtain ⟨r, rfl, hr⟩ := List.map_eq_singleton_iff.mp hm
    exact ⟨rs', r, hms.symm, hr.symm, hrs⟩

/-- The first answer of a worker to the configuration is consent or rejection. -/
theorem Inv.answer (h : w.Inv) {a m : Message} (hs : [a, m] <+: w.sent) :
    m = .ready ∨ ∃ reason, m = .reject reason := by
  have htold := hs.trans h.sent_prefix
  have hsecond : ∀ {b c : Message} {ms : List Message}, [a, m] <+: b :: c :: ms → m = c := by
    intro b c ms hp
    obtain ⟨-, hp⟩ := List.cons_prefix_cons.mp hp
    exact (List.cons_prefix_cons.mp hp).1
  rcases h.told_eq with (ho | ⟨reason, ho⟩) | heq
  · exact .inl (hsecond (htold.trans ho))
  · exact .inr ⟨reason, hsecond (htold.trans ho)⟩
  · exact .inl (hsecond (heq ▸ htold))

/-- **Growth.** The reports of a worker grow, as long as its true numbers fit. -/
theorem Inv.reported_ascending (h : w.Inv) (hfits : w.group.tally.Fits) :
    w.reported.Pairwise (· ≤ ·) := by
  have hts : ∀ ts, w.Launched ts → (ts.map (Tally.report · false)).Pairwise (· ≤ ·) ∧
      ∀ r ∈ ts.map (Tally.report · false), r ≤ w.group.report true := by
    intro ts h
    obtain ⟨hpair, -, hlast⟩ := List.pairwise_append.mp h.ascending
    have hle : ∀ t ∈ ts, t ≤ w.group.tally := fun t ht => hlast t ht _ (by simp)
    constructor
    · rw [List.pairwise_map]
      refine hpair.imp_of_mem fun {a b} _ hb hab => ?_
      exact Report.le_of_tally_le hab (hfits.of_le (hle b hb)) _ _
    · intro r hr
      obtain ⟨t, ht, rfl⟩ := List.mem_map.mp hr
      rw [Group.report_eq h.counted]
      exact Report.le_of_tally_le (hle t ht) hfits _ _
  rcases h.overture_or_launched with ⟨h, -⟩ | ⟨ts, hl, h | ⟨last, h⟩⟩
  · rw [reported_of_isOverture h]
    exact List.Pairwise.nil
  · rw [h.reported_eq]
    exact (hts ts hl).1
  · rw [h.reported_eq, List.pairwise_append]
    refine ⟨(hts ts hl).1, List.pairwise_singleton _ _, fun r hr r' hr' => ?_⟩
    rw [List.mem_singleton.mp hr', h.sums]
    exact (hts ts hl).2 r hr

theorem completed_of_mem_reports {r : Report} (h : r ∈ ts.map (Tally.report · false)) :
    r.completed = false := by
  obtain ⟨t, -, rfl⟩ := List.mem_map.mp h
  rfl

/-- No report but the last one says that the worker has completed. -/
theorem Inv.reported_dropLast (h : w.Inv) : ∀ r ∈ w.reported.dropLast, r.completed = false := by
  intro r hr
  rcases h.overture_or_launched with ⟨h, -⟩ | ⟨ts, -, h | ⟨last, h⟩⟩
  · rw [reported_of_isOverture h] at hr
    cases hr
  · rw [h.reported_eq] at hr
    exact completed_of_mem_reports (List.dropLast_subset _ hr)
  · rw [h.reported_eq, List.dropLast_concat] at hr
    exact completed_of_mem_reports hr

/-- **The last report** is the last message of a worker whose engines have all stopped, and sums
    their counters. -/
theorem Inv.of_completed (h : w.Inv) {r : Report} (hr : r ∈ w.reported) (hc : r.completed = true) :
    w.told.getLast? = some (.statsReport r) ∧ w.group.isStopped = true ∧
      r = w.group.report true := by
  have hnot : ∀ ts : List Tally, r ∉ ts.map (Tally.report · false) := fun ts hmem => by
    rw [completed_of_mem_reports hmem] at hc
    cases hc
  rcases h.overture_or_launched with ⟨h, -⟩ | ⟨ts, -, h | ⟨last, h⟩⟩
  · rw [reported_of_isOverture h] at hr
    cases hr
  · exact absurd (h.reported_eq ▸ hr) (hnot ts)
  · rw [h.reported_eq] at hr
    obtain rfl := List.mem_singleton.mp ((List.mem_append.mp hr).resolve_left (hnot ts))
    refine ⟨?_, h.stopped, h.sums⟩
    rw [h.told, ← List.cons_append, ← List.cons_append]
    exact List.getLast?_concat

/-- A worker that has sent its last report waits for the last word, or has succeeded. -/
theorem Inv.of_completed_sent (h : w.Inv) {r : Report} (hr : .statsReport r ∈ w.sent)
    (hc : r.completed = true) :
    (∃ deadline, w.phase = .finishing r deadline) ∨ w.phase = .stopped (.ok r) := by
  have hreported : r ∈ w.reported :=
    List.mem_filterMap.mpr ⟨_, h.sent_prefix.subset hr, rfl⟩
  have hnot : ∀ ts, Message.statsReport r ∉ Message.hello none :: .ready :: reports ts := by
    intro ts hmem
    have : r ∈ ts.map (Tally.report · false) := by simpa [reports] using hmem
    rw [completed_of_mem_reports this] at hc
    cases hc
  have hlast : ∀ {ts last}, w.Concluded ts last → last = r := fun h' =>
    h'.sums.trans (h.of_completed hreported hc).2.2.symm
  have hidle : ∀ {told heard}, w.Idle told heard → ¬ IsOverture told := by
    intro told heard hi ho
    rw [reported_of_isOverture (hi.told_eq ▸ ho)] at hreported
    cases hreported
  cases h with
  | connecting hp h | pausing hp h => exact absurd isOverture_nil (hidle h)
  | greeting hp h | awaiting hp hid h | preparing hp hid h hr =>
    exact absurd isOverture_hello (hidle h)
  | ready hp hid h => exact absurd isOverture_ready (hidle h)
  | refused hp h =>
    rw [reported_of_isOverture h.told] at hreported
    cases hreported
  | running hp h hrep hs => exact absurd (hrep ▸ hs ▸ hr) (hnot _)
  | abandoning hp h hrep hs => exact absurd (hrep ▸ hs.subset hr) (hnot _)
  | lost hp h hc' hs => exact absurd (hs.subset hr) (hnot _)
  | finishing hp h hc' hs => exact .inl ⟨_, hlast hc' ▸ hp⟩
  | done hp h hc' hs => exact .inr (hlast hc' ▸ hp)

end Worker

end TxLoad
