import TxLoad.Proofs.Discovery.Rounds

namespace TxLoad.Discovery

/-!
# What discovery selects

A search is a sequence of rounds, and only the last one decides: the pool consists of the endpoints
that answered in it, whatever was found before.

* `IsSearch`: the rounds of a search, and when there is another one.
* `exists_isSearch`: what the search does is such a sequence; the number of rounds that it may make
  is never exhausted.
* `endpoints_of_resolve`: the endpoints of a pool that was discovered.
-/

/-! ### Searches -/

/-- The rounds of a search for a number of usable endpoints, with query numbers from `index` on and
    from the instant `start` on. -/
inductive IsSearch (net : Network) (cfg : Config) (supplied : List Endpoint)
    (expected deadline : Nat) : (index start : Nat) → List Round → Prop where
  /-- The search is over with a round that selects enough or ends at the deadline or later. -/
  | last {index start : Nat} {r : Round} (h : IsRound net cfg supplied deadline index start r)
    (hend : expected ≤ r.usable.length ∨ deadline ≤ r.finished) :
    IsSearch net cfg supplied expected deadline index start [r]
  /-- After any other round comes a pause, which the deadline cuts short, and another round. -/
  | again {index start : Nat} {r : Round} {rounds : List Round}
    (h : IsRound net cfg supplied deadline index start r) (hfew : r.usable.length < expected)
    (hearly : r.finished < deadline)
    (hrest : IsSearch net cfg supplied expected deadline (index + r.queries.length)
      (min deadline (r.finished + intervalMs)) rounds) :
    IsSearch net cfg supplied expected deadline index start (r :: rounds)

variable {net : Network} {cfg : Config} {supplied : List Endpoint} {expected deadline : Nat}

/-- Each round of a search is a round. -/
theorem IsSearch.isRound {index start : Nat} {rounds : List Round}
    (h : IsSearch net cfg supplied expected deadline index start rounds) :
    ∀ r ∈ rounds, ∃ index start, IsRound net cfg supplied deadline index start r := by
  induction h with
  | last h _ =>
    intro r hr
    obtain rfl := List.mem_singleton.mp hr
    exact ⟨_, _, h⟩
  | again h _ _ _ ih =>
    intro r hr
    rcases List.mem_cons.mp hr with rfl | hr
    · exact ⟨_, _, h⟩
    · exact ih r hr

/-- Time does not go back while queries are made. -/
theorem Succession.start_le {index start finished : Nat} {qs : List Query}
    (h : Succession net deadline index start qs finished) : start ≤ finished := by
  induction h with
  | nil => exact Nat.le_refl _
  | cons _ ih => exact Nat.le_trans (Nat.le_add_right _ _) ih

/-- What the search does is a search by rounds, if it may make as many rounds as there are
    milliseconds left, and one more. -/
theorem exists_isSearch (net : Network) (cfg : Config) (supplied : List Endpoint)
    (expected deadline : Nat) {fuel start : Nat} (hfuel : deadline - start < fuel)
    (base : List Query) :
    ∃ rounds last, IsSearch net cfg supplied expected deadline base.length start (rounds ++ [last]) ∧
      searchFor net cfg supplied expected deadline fuel start base =
        ⟨last.usable, last.finished, ((rounds ++ [last]).flatMap Round.queries).reverse ++ base⟩ := by
  induction fuel generalizing start base with
  | zero => omega
  | succ fuel ih =>
    obtain ⟨r, hround, hqueries, hnow, husable⟩ :=
      exists_isRound net cfg supplied deadline start base
    simp only [searchFor, hqueries, hnow, husable]
    split
    · rename_i hend
      exact ⟨[], r, .last hround hend, by simp⟩
    · rename_i hgo
      obtain ⟨hfew, hearly⟩ := not_or.mp hgo
      -- The pause moves the clock, so that fewer milliseconds are left.
      have hstart := hround.succession.start_le
      have hleft : deadline - min deadline (r.finished + intervalMs) < fuel := by
        unfold intervalMs
        omega
      obtain ⟨rounds, last, hsearch, houtcome⟩ := ih hleft (r.queries.reverse ++ base)
      refine ⟨r :: rounds, last, .again hround (by omega) (by omega) ?_, ?_⟩
      · rwa [List.length_append, List.length_reverse, Nat.add_comm] at hsearch
      · rw [houtcome]
        simp

/-! ### The pool -/

theorem expected_pos (cfg : Config) : 0 < Discovery.expected cfg := by
  unfold Discovery.expected
  split <;> omega

/-- A pool holds the first of the endpoints found, and they are as many as expected. -/
theorem poolOf_eq_ok_iff {es : List Endpoint} {pool : Pool} :
    poolOf cfg es = .ok pool ↔
      pool.endpoints = capped cfg es ∧ Discovery.expected cfg ≤ pool.endpoints.length := by
  unfold poolOf
  simp only
  split
  · rename_i hfew
    simp only [reduceCtorEq, false_iff, not_and]
    rintro heq
    rw [heq]
    omega
  · rename_i henough
    have hpos := expected_pos cfg
    have hne : capped cfg es ≠ [] := List.ne_nil_of_length_pos (by omega)
    rw [Pool.ofList, dif_neg hne]
    simp only [Except.mapError, Except.ok.injEq]
    constructor
    · rintro rfl
      exact ⟨rfl, Nat.le_of_not_lt henough⟩
    · rintro ⟨heq, -⟩
      cases pool
      simp_all

/-- At least one endpoint is expected. -/
theorem expected_eq (hmethod : cfg.selectMethod ≠ .supplied) :
    Discovery.expected cfg = max 1 cfg.expectPeers.toNat := by
  unfold Discovery.expected
  split
  · rename_i hselect
    exact absurd hselect hmethod
  · exact Nat.max_comm _ _

/-- Resolving the endpoints of a configuration that does not just take the supplied ones is a
    search, whose last round decides on the pool. -/
theorem exists_search (net : Network) (hmethod : cfg.selectMethod ≠ .supplied)
    (hsupplied : cfg.endpoints.mapM Endpoint.parse = .ok supplied) (now : Nat) :
    ∃ rounds last, IsSearch net cfg supplied (Discovery.expected cfg)
        (now + Clock.seconds cfg.peerConnectTimeout.toNat) 0 now (rounds ++ [last]) ∧
      resolve net cfg now =
        ⟨poolOf cfg last.usable, last.finished, (rounds ++ [last]).flatMap Round.queries⟩ := by
  have hfuel : now + Clock.seconds cfg.peerConnectTimeout.toNat - now <
      now + Clock.seconds cfg.peerConnectTimeout.toNat - now + 1 := Nat.lt_succ_self _
  obtain ⟨rounds, last, hsearch, houtcome⟩ :=
    exists_isSearch net cfg supplied (Discovery.expected cfg) _ hfuel []
  refine ⟨rounds, last, hsearch, ?_⟩
  unfold resolve
  rw [hsupplied]
  cases hselect : cfg.selectMethod with
  | supplied => exact absurd hselect hmethod
  | discovered | any =>
    simp only [search]
    rw [houtcome]
    simp

/-- **What discovery selects.** The endpoints of a pool that was discovered are, in strictly
    ascending order and up to the configured bound, those that answered in the last round of the
    search and whose last answer there has enough peers, that are supplied or were named in the
    first phase of that round, and, unless any endpoint will do, that are not supplied. -/
theorem endpoints_of_resolve {net : Network} {cfg : Config} {now : Nat} {pool : Pool}
    (hmethod : cfg.selectMethod ≠ .supplied) (h : (resolve net cfg now).pool = .ok pool) :
    ∃ supplied deadline rounds last es,
      cfg.endpoints.mapM Endpoint.parse = .ok supplied ∧
      deadline = now + Clock.seconds cfg.peerConnectTimeout.toNat ∧
      IsSearch net cfg supplied (max 1 cfg.expectPeers.toNat) deadline 0 now (rounds ++ [last]) ∧
      (resolve net cfg now).queries = (rounds ++ [last]).flatMap Round.queries ∧
      es.Pairwise (· < ·) ∧
      (∀ e, e ∈ es ↔
        (∃ info, lastAnswer? net deadline last.queries e = some info ∧
          cfg.minConnectivity.toNat ≤ info.size) ∧
        (e ∈ supplied ∨ ∃ q ∈ last.first, Names net deadline q e) ∧
        (cfg.selectMethod = .discovered → e ∉ supplied)) ∧
      pool.endpoints = (if cfg.maxEndpoints = 0 then es else es.take cfg.maxEndpoints.toNat) ∧
      max 1 cfg.expectPeers.toNat ≤ pool.endpoints.length := by
  cases hsupplied : cfg.endpoints.mapM Endpoint.parse with
  | error error => simp [resolve, hsupplied] at h
  | ok supplied =>
    obtain ⟨rounds, last, hsearch, hresolve⟩ := exists_search net hmethod hsupplied now
    have hexpected := expected_eq hmethod
    rw [hexpected] at hsearch
    rw [hresolve] at h ⊢
    obtain ⟨hendpoints, henough⟩ := poolOf_eq_ok_iff.mp h
    obtain ⟨index, start, hround⟩ := hsearch.isRound last (by simp)
    refine ⟨supplied, _, rounds, last, last.usable, rfl, rfl, hsearch, rfl, hround.ascending,
      fun e => ?_, hendpoints, hexpected ▸ henough⟩
    have hallowed : cfg.selectMethod = .any ∨ e ∉ supplied ↔
        (cfg.selectMethod = .discovered → e ∉ supplied) := by
      cases hselect : cfg.selectMethod with
      | supplied => exact absurd hselect hmethod
      | discovered | any => simp
    rw [hround.mem_usable, hallowed]
    constructor
    · rintro ⟨⟨info, hinfo, hsize⟩, hnot⟩
      exact ⟨⟨info, hinfo, hsize⟩, hround.reachable hinfo, hnot⟩
    · rintro ⟨hanswer, -, hnot⟩
      exact ⟨hanswer, hnot⟩

/-- Two peers are expected of a supplied endpoint. -/
def twoPeers : Config where
  endpoints := ["seed:1"]
  selectMethod := .discovered
  expectPeers := 2
  minConnectivity := 1
  peerConnectTimeout := 5

/-- A network that changes: in a first round the peer `a` answers and `b` does not, in a second one
    it is `b` and `c` that are named and answer. -/
def changing : Network := fun q =>
  match q.index with
  | 0 => .now (.ok ⟨2, [⟨"b", 1⟩, ⟨"a", 1⟩]⟩)
  | 2 => .after 3 (.error (.connect "unreachable"))
  | 3 => .after 7 (.ok ⟨2, [⟨"c", 1⟩, ⟨"b", 1⟩, ⟨"c", 1⟩]⟩)
  | _ => .now (.ok ⟨1, []⟩)

/-- What was found in the first round is not in the pool, what was found in the second is. -/
theorem endpoints_of_resolve_changing :
    twoPeers.selectMethod ≠ .supplied ∧ ∃ pool supplied deadline rounds last,
      (resolve changing twoPeers 0).pool = .ok pool ∧
      pool.endpoints = [⟨"b", 1⟩, ⟨"c", 1⟩] ∧
      IsSearch changing twoPeers supplied 2 deadline 0 0 (rounds ++ [last]) ∧
      ∀ e ∈ pool.endpoints, e ∉ supplied ∧ ∃ info,
        lastAnswer? changing deadline last.queries e = some info ∧ 1 ≤ info.size := by
  have hmethod : twoPeers.selectMethod ≠ .supplied := by decide
  have hpool : (resolve changing twoPeers 0).pool = .ok ⟨[⟨"b", 1⟩, ⟨"c", 1⟩], by simp⟩ := by
    rfl
  obtain ⟨supplied, deadline, rounds, last, es, -, -, hsearch, -, -, hes, hendpoints, -⟩ :=
    endpoints_of_resolve hmethod hpool
  refine ⟨hmethod, _, supplied, deadline, rounds, last, hpool, rfl, hsearch, fun e he => ?_⟩
  rw [hendpoints, if_pos (show twoPeers.maxEndpoints = 0 from rfl)] at he
  obtain ⟨hanswer, -, hnot⟩ := (hes e).mp he
  exact ⟨hnot rfl, hanswer⟩

end TxLoad.Discovery
