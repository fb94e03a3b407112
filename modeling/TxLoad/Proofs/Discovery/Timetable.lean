import TxLoad.Proofs.Discovery.Selecting
import TxLoad.Proofs.Discovery.Waiting

namespace TxLoad.Discovery

/-!
# When discovery ends

The rounds of a search are paced by pauses of one second and by the deadline, which cuts short
whatever is under way: a query, a round, a pause. A pause that is cut short leaves room for one
round more, which takes no time itself.

* `Succession.of_deadline`: past the deadline queries take no time, and only an answer that is there
  at once counts.
* `IsTimetable`: the rounds of a search, when each of them begins, and which one is the last.
* `IsSearch.exists_timetable`: every search has a timetable.
* `IsTimetable.length_le`: it has at most one round for each second, and one at the deadline.
* `keepsTime_resolve`: when resolving the endpoints of a configuration ends.
-/

variable {net : Network} {cfg : Config} {supplied : List Endpoint} {expected deadline : Nat}

/-! ### Past the deadline -/

/-- Queries that are made from the deadline on take no time. -/
theorem Succession.of_deadline {index start finished : Nat} {qs : List Query}
    (h : Succession net deadline index start qs finished) (hstart : deadline ≤ start) :
    finished = start ∧ ∀ q ∈ qs, q.instant = start := by
  induction h with
  | nil => exact ⟨rfl, by simp⟩
  | @cons index start finished e qs _ ih =>
    have hover : overAt net deadline ⟨index, start, e⟩ = start := by
      have hwait := Awaited.within_fst_le (deadline - start) (net ⟨index, start, e⟩)
      show start + ((net ⟨index, start, e⟩).within (deadline - start)).1 = start
      omega
    rw [hover] at ih
    obtain ⟨hfinished, hinstant⟩ := ih hstart
    exact ⟨hfinished, List.forall_mem_cons.mpr ⟨rfl, hinstant⟩⟩

/-- A query that is made at the deadline is answered only by an answer that is there at once. -/
theorem eq_now_of_answer? {q : Query} {info : NetInfo} (hq : q.instant = deadline)
    (h : answer? net deadline q = some info) : net q = .now (.ok info) := by
  obtain ⟨delay, hdelay, hreply⟩ := answer?_eq_some_iff.mp h
  obtain rfl : delay = 0 := by omega
  exact hreply

/-! ### Timetables -/

/-- A round, the number of its first query, and the instant at which it begins. -/
structure Stage where
  index : Nat
  start : Nat
  round : Round

/-- The rounds of a search, with query numbers from `index` on and from the instant `start` on. -/
structure IsTimetable (net : Network) (cfg : Config) (supplied : List Endpoint)
    (expected deadline index start : Nat) (stages : List Stage) : Prop where
  isRound : ∀ s ∈ stages, IsRound net cfg supplied deadline s.index s.start s.round
  begins : ∃ s, stages[0]? = some s ∧ s.index = index ∧ s.start = start
  /-- A round is followed by another exactly if it is over before the deadline and has found too
      few usable endpoints. -/
  followed : ∀ i s, stages[i]? = some s →
    (i + 1 < stages.length ↔ s.round.finished < deadline ∧ s.round.usable.length < expected)
  /-- Between two rounds is a pause, which the deadline cuts short. -/
  next : ∀ i s t, stages[i]? = some s → stages[i + 1]? = some t →
    t.index = s.index + s.round.queries.length ∧
    t.start = min deadline (s.round.finished + intervalMs)

/-- The rounds of a search have a timetable. -/
theorem IsSearch.exists_timetable {index start : Nat} {rounds : List Round}
    (h : IsSearch net cfg supplied expected deadline index start rounds) :
    ∃ stages : List Stage, stages.map (·.round) = rounds ∧
      IsTimetable net cfg supplied expected deadline index start stages := by
  induction h with
  | @last index start r h hend =>
    refine ⟨[⟨index, start, r⟩], rfl, by simpa using h, ⟨_, rfl, rfl, rfl⟩, fun i s hs => ?_,
      by simp⟩
    obtain ⟨rfl, rfl⟩ : i = 0 ∧ s = ⟨index, start, r⟩ := by
      cases i <;> simp_all
    simp only [List.length_singleton]
    omega
  | @again index start r rounds h hfew hearly _ ih =>
    obtain ⟨stages, hrounds, htable⟩ := ih
    -- The timetable of the other rounds begins after the pause.
    obtain ⟨second, hsecond, hindex, hstart⟩ := htable.begins
    have hpos : 0 < stages.length := List.getElem?_eq_some_iff.mp hsecond |>.1
    refine ⟨⟨index, start, r⟩ :: stages, by simp [hrounds], by simpa using ⟨h, htable.isRound⟩,
      ⟨_, rfl, rfl, rfl⟩, fun i s hs => ?_, fun i s t hs ht => ?_⟩
    · cases i with
      | zero =>
        cases hs
        simp only [List.length_cons]
        omega
      | succ i =>
        rw [List.getElem?_cons_succ] at hs
        rw [← htable.followed i s hs, List.length_cons, Nat.add_lt_add_iff_right]
    · rw [List.getElem?_cons_succ] at ht
      cases i with
      | zero =>
        cases hs
        obtain rfl : second = t := Option.some.inj (hsecond.symm.trans ht)
        exact ⟨hindex, hstart⟩
      | succ i =>
        rw [List.getElem?_cons_succ] at hs
        exact htable.next i s t hs ht

namespace IsTimetable

variable {index start i : Nat} {stages : List Stage} {s : Stage}

/-- A round begins after as many pauses as there are rounds before it, or at the deadline. -/
theorem le_start (h : IsTimetable net cfg supplied expected deadline index start stages)
    (hs : stages[i]? = some s) : min deadline (start + i * intervalMs) ≤ s.start := by
  induction i generalizing s with
  | zero =>
    obtain ⟨first, hfirst, -, hstart⟩ := h.begins
    obtain rfl : first = s := Option.some.inj (hfirst.symm.trans hs)
    omega
  | succ i ih =>
    obtain ⟨hlt, -⟩ := List.getElem?_eq_some_iff.mp hs
    have hbefore : stages[i]? = some stages[i] := List.getElem?_eq_getElem (by omega)
    have hle := ih hbefore
    have htime := (h.isRound _ (List.mem_of_getElem? hbefore)).succession.start_le
    have hstart := (h.next i _ s hbefore hs).2
    rw [Nat.succ_mul]
    omega

/-- A round that begins at the deadline is the last one, takes no time and counts only answers that
    are there at once. -/
theorem of_deadline (h : IsTimetable net cfg supplied expected deadline index start stages)
    (hs : stages[i]? = some s) (hstart : s.start = deadline) :
    stages.length = i + 1 ∧ s.round.finished = deadline ∧
      ∀ q ∈ s.round.queries, q.instant = deadline ∧
        ∀ info, answer? net deadline q = some info → net q = .now (.ok info) := by
  obtain ⟨hfinished, hinstant⟩ :=
    (h.isRound s (List.mem_of_getElem? hs)).succession.of_deadline hstart.ge
  have hlast := h.followed i s hs
  obtain ⟨hlt, -⟩ := List.getElem?_eq_some_iff.mp hs
  refine ⟨by omega, hfinished.trans hstart, fun q hq => ?_⟩
  have hq := (hinstant q hq).trans hstart
  exact ⟨hq, fun _ hanswer => eq_now_of_answer? hq hanswer⟩

/-- There is at most one round for each pause that fits in before the deadline, and one more. -/
theorem length_le (h : IsTimetable net cfg supplied expected deadline index start stages)
    {pauses : Nat} (hpauses : deadline ≤ start + pauses * intervalMs) :
    stages.length ≤ pauses + 1 := by
  by_contra hmany
  -- A round would follow one that does not begin before the deadline.
  have hs : stages[pauses]? = some stages[pauses] := List.getElem?_eq_getElem (by omega)
  have hstart := h.le_start hs
  have htime := (h.isRound _ (List.mem_of_getElem? hs)).succession.start_le
  have hearly := ((h.followed pauses _ hs).mp (by omega)).1
  omega

end IsTimetable

/-! ### The end -/

/-- **When discovery ends.** Resolving the endpoints of a configuration is over within the time that
    it allows for this. It makes one round after the other, at most one for each second of this time
    and one more. A round is followed by another, after a pause, exactly if it is over before the
    deadline and has found too few usable endpoints. A round that begins at the deadline is the last
    one, takes no time and counts only answers that are there at once. -/
theorem keepsTime_resolve {net : Network} {cfg : Config} {now : Nat}
    (hmethod : cfg.selectMethod ≠ .supplied) :
    let deadline := now + Clock.seconds cfg.peerConnectTimeout.toNat
    now ≤ (resolve net cfg now).finished ∧ (resolve net cfg now).finished ≤ deadline ∧
      ∀ supplied, cfg.endpoints.mapM Endpoint.parse = .ok supplied → ∃ stages,
        IsTimetable net cfg supplied (max 1 cfg.expectPeers.toNat) deadline 0 now stages ∧
        (resolve net cfg now).queries = stages.flatMap (·.round.queries) ∧
        stages.getLast?.map (·.round.finished) = some (resolve net cfg now).finished ∧
        stages.length ≤ cfg.peerConnectTimeout.toNat + 1 ∧
        ∀ i s, stages[i]? = some s → s.start = deadline →
          stages.length = i + 1 ∧ s.round.finished = deadline ∧ ∀ q ∈ s.round.queries,
            q.instant = deadline ∧
            ∀ info, answer? net deadline q = some info → net q = .now (.ok info) := by
  intro deadline
  obtain ⟨hstart, hfinished⟩ := finished_resolve net cfg now
  rw [waitMs_eq hmethod] at hfinished
  refine ⟨hstart, hfinished, fun supplied hsupplied => ?_⟩
  obtain ⟨rounds, last, hsearch, hresolve⟩ := exists_search net hmethod hsupplied now
  rw [expected_eq hmethod] at hsearch
  obtain ⟨stages, hrounds, htable⟩ := hsearch.exists_timetable
  rw [hresolve]
  refine ⟨stages, htable, ?_, ?_, htable.length_le ?_, fun i s hs => htable.of_deadline hs⟩
  · rw [← hrounds, List.flatMap_map]
  · show stages.getLast?.map (Round.finished ∘ Stage.round) = some last.finished
    rw [← Option.map_map, ← List.getLast?_map, hrounds]
    simp
  · exact Nat.le_refl _

/-- A network in which whoever is asked fails, but not at once. -/
def tardy : Network := fun _ => .after 300 (.error (.connect "unreachable"))

/-- The last pause is cut short, and so is the query that follows it. -/
theorem keepsTime_resolve_tardy :
    twoPeers.selectMethod ≠ .supplied ∧ (resolve tardy twoPeers 0).finished = 5000 ∧
      (resolve tardy twoPeers 0).queries.map (·.instant) = [0, 1300, 2600, 3900, 5000] ∧
      ∃ stages, IsTimetable tardy twoPeers [⟨"seed", 1⟩] 2 5000 0 0 stages ∧
        (resolve tardy twoPeers 0).queries = stages.flatMap (·.round.queries) ∧
        stages.length ≤ 6 := by
  have hmethod : twoPeers.selectMethod ≠ .supplied := by decide
  obtain ⟨-, -, hrounds⟩ := @keepsTime_resolve tardy twoPeers 0 hmethod
  obtain ⟨stages, htable, hqueries, -, hlength, -⟩ := hrounds [⟨"seed", 1⟩] rfl
  exact ⟨hmethod, by decide +kernel, by decide +kernel, stages, htable, hqueries, hlength⟩

end TxLoad.Discovery
