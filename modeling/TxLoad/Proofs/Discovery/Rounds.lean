import TxLoad.Proofs.Discovery.Ordering
import Mathlib.Data.List.Induction

namespace TxLoad.Discovery

/-!
# One round of discovery

A round is known by its queries: which endpoints were asked, one after the other, and what they
answered in time. The state that the crawl keeps along the way is a summary of them.

* `answer?`, `lastAnswer?`: what a query brings, and what an endpoint said last.
* `Succession`: queries that are made one after the other.
* `Crawl.HasAsked`: what a crawl keeps after some queries; `Crawl.HasAsked.ask` is the step.
* `Round`, `IsRound`: the queries of a round in its two phases, and the endpoints it selects.
* `exists_isRound`: what a crawl does is such a round.
-/

variable (net : Network) (deadline : Nat)

/-! ### Queries and answers -/

/-- What a query brings, if it is answered by the deadline and not by a failure. -/
def answer? (q : Query) : Option NetInfo :=
  match ((net q).within (deadline - q.instant)).2 with
  | some (.ok info) => some info
  | _ => none

/-- The instant at which a query is answered or given up. -/
def overAt (q : Query) : Nat := q.instant + ((net q).within (deadline - q.instant)).1

/-- The answer to a query names an endpoint as a peer. -/
def Names (q : Query) (e : Endpoint) : Prop :=
  ∃ info, answer? net deadline q = some info ∧ e ∈ info.peers

/-- The latest answer of an endpoint to some queries. -/
def lastAnswer? (qs : List Query) (e : Endpoint) : Option NetInfo :=
  ((qs.filter (·.endpoint = e)).filterMap (answer? net deadline)).getLast?

variable {net deadline}

/-- A query is answered if the answer arrives by the deadline. -/
theorem answer?_eq_some_iff {q : Query} {info : NetInfo} :
    answer? net deadline q = some info ↔
      ∃ delay ≤ deadline - q.instant, net q = .after delay (.ok info) := by
  rw [← Awaited.within_snd_eq_some_iff, answer?]
  split
  · rename_i hreply
    rw [hreply]
    simp
  · rename_i hreply
    simpa using hreply info

/-- Later answers come before earlier ones. -/
theorem lastAnswer?_append (qs rs : List Query) (e : Endpoint) :
    lastAnswer? net deadline (qs ++ rs) e =
      (lastAnswer? net deadline rs e).or (lastAnswer? net deadline qs e) := by
  simp [lastAnswer?, List.filter_append, List.getLast?_append]

theorem lastAnswer?_singleton (q : Query) (e : Endpoint) :
    lastAnswer? net deadline [q] e = if q.endpoint = e then answer? net deadline q else none := by
  unfold lastAnswer?
  split
  · rename_i h
    cases hanswer : answer? net deadline q <;> simp [h, hanswer]
  · rename_i h
    simp [h]

/-- Only who was asked has answered. -/
theorem mem_of_lastAnswer? {qs : List Query} {e : Endpoint} {info : NetInfo}
    (h : lastAnswer? net deadline qs e = some info) : e ∈ qs.map (·.endpoint) := by
  obtain ⟨q, hq, -⟩ := List.mem_filterMap.mp (List.mem_of_getLast? h)
  obtain ⟨hq, hendpoint⟩ := List.mem_filter.mp hq
  exact List.mem_map.mpr ⟨q, hq, by simpa using hendpoint⟩

variable (net deadline)

/-- Queries that are made one after the other, with numbers from `index` on: the first at the
    instant `start`, each other one when the one before is over, and the last is over at
    `finished`. -/
inductive Succession : (index start : Nat) → List Query → (finished : Nat) → Prop where
  | nil {index start : Nat} : Succession index start [] start
  | cons {index start finished : Nat} {e : Endpoint} {qs : List Query}
    (h : Succession (index + 1) (overAt net deadline ⟨index, start, e⟩) qs finished) :
    Succession index start (⟨index, start, e⟩ :: qs) finished

variable {net deadline}

/-- One query more, when the others are over. -/
theorem Succession.concat {index start finished : Nat} {qs : List Query}
    (h : Succession net deadline index start qs finished) (e : Endpoint) :
    Succession net deadline index start (qs ++ [⟨index + qs.length, finished, e⟩])
      (overAt net deadline ⟨index + qs.length, finished, e⟩) := by
  induction h with
  | nil => exact .cons .nil
  | @cons index start finished f qs _ ih =>
    rw [show index + (⟨index, start, f⟩ :: qs : List Query).length = index + 1 + qs.length by
      simp only [List.length_cons]; omega]
    exact .cons ih

/-! ### The crawl -/

variable (net deadline)

/-- Asking an endpoint adds a query, whose answer is kept. -/
theorem Crawl.ask_eq (keepPeers : Bool) (c : Crawl) (e : Endpoint) :
    let q : Query := ⟨c.queries.length, c.now, e⟩
    let answer := answer? net deadline q
    c.ask net deadline keepPeers e =
      { now := overAt net deadline q
        queries := q :: c.queries
        found := answer.elim c.found fun info => insertFound ⟨e, info.size⟩ c.found
        peers := if keepPeers then c.peers ++ answer.elim [] (·.peers) else c.peers } := by
  simp only [Crawl.ask, overAt, answer?]
  rcases ((net ⟨c.queries.length, c.now, e⟩).within (deadline - c.now)).2 with _ | _ | info
  · simp
  · simp
  · rfl

/-- What a crawl keeps that began at the instant `start`, after the queries `base`, and has made
    the queries `qs` since. -/
structure Crawl.HasAsked (base : List Query) (start : Nat) (qs : List Query) (c : Crawl) :
    Prop where
  queries_eq : c.queries = qs.reverse ++ base
  succession : Succession net deadline base.length start qs c.now
  ascending : (c.found.map (·.endpoint)).Pairwise (· < ·)
  /-- Of each endpoint the crawl keeps the latest answer. -/
  mem_found : ∀ f, f ∈ c.found ↔
    ∃ info, lastAnswer? net deadline qs f.endpoint = some info ∧ info.size = f.size

variable {net deadline}
variable {base qs : List Query} {start : Nat} {c : Crawl}

/-- A crawl that begins has asked nobody. -/
theorem Crawl.hasAsked_nil (base : List Query) (start : Nat) :
    Crawl.HasAsked net deadline base start [] ⟨start, base, [], []⟩ :=
  ⟨rfl, .nil, .nil, by simp [lastAnswer?]⟩

theorem Crawl.HasAsked.length_queries (h : c.HasAsked net deadline base start qs) :
    c.queries.length = base.length + qs.length := by
  rw [h.queries_eq, List.length_append, List.length_reverse, Nat.add_comm]

/-- Asking one endpoint more. -/
theorem Crawl.HasAsked.ask (h : c.HasAsked net deadline base start qs) (keepPeers : Bool)
    (e : Endpoint) :
    (c.ask net deadline keepPeers e).HasAsked net deadline base start
      (qs ++ [⟨base.length + qs.length, c.now, e⟩]) := by
  rw [Crawl.ask_eq, h.length_queries]
  have hlast := @lastAnswer?_append net deadline qs [⟨base.length + qs.length, c.now, e⟩]
  simp only [lastAnswer?_singleton] at hlast
  refine ⟨by simp [h.queries_eq], h.succession.concat e, ?_, fun f => ?_⟩
  · cases answer? net deadline ⟨base.length + qs.length, c.now, e⟩ with
    | none => exact h.ascending
    | some info => exact pairwise_insertFound _ h.ascending
  · rw [hlast]
    cases answer? net deadline ⟨base.length + qs.length, c.now, e⟩ with
    | none => simpa using h.mem_found f
    | some info =>
      show f ∈ insertFound ⟨e, info.size⟩ c.found ↔ _
      rw [mem_insertFound h.ascending, h.mem_found]
      by_cases he : e = f.endpoint
      · cases f
        simp_all [eq_comm]
      · have hne : f ≠ ⟨e, info.size⟩ := by
          rintro rfl
          exact he rfl
        simp [he, hne, Ne.symm he]

/-- Who has been found has answered. -/
theorem Crawl.HasAsked.any_found (h : c.HasAsked net deadline base start qs) (e : Endpoint) :
    c.found.any (·.endpoint == e) = (lastAnswer? net deadline qs e).isSome := by
  rw [Bool.eq_iff_iff, List.any_eq_true, Option.isSome_iff_exists]
  constructor
  · rintro ⟨f, hf, he⟩
    obtain ⟨info, hinfo, -⟩ := (h.mem_found f).mp hf
    exact ⟨info, beq_iff_eq.mp he ▸ hinfo⟩
  · rintro ⟨info, hinfo⟩
    exact ⟨⟨e, info.size⟩, (h.mem_found _).mpr ⟨info, hinfo, rfl⟩, beq_self_eq_true e⟩

/-- The first phase asks the supplied endpoints in their order, and keeps the peers they name. -/
theorem exists_first (base : List Query) (start : Nat) (supplied : List Endpoint) :
    ∃ qs, (supplied.foldl (Crawl.ask net deadline true) ⟨start, base, [], []⟩).HasAsked net deadline
        base start qs ∧
      qs.map (·.endpoint) = supplied ∧
      ∀ e, e ∈ (supplied.foldl (Crawl.ask net deadline true) ⟨start, base, [], []⟩).peers ↔
        ∃ q ∈ qs, Names net deadline q e := by
  induction supplied using List.reverseRecOn with
  | nil => exact ⟨[], Crawl.hasAsked_nil base start, rfl, by simp⟩
  | append_singleton supplied e ih =>
    obtain ⟨qs, hasked, hendpoints, hpeers⟩ := ih
    rw [List.foldl_append, List.foldl_cons, List.foldl_nil]
    generalize supplied.foldl (Crawl.ask net deadline true) ⟨start, base, [], []⟩ = c at *
    refine ⟨_, hasked.ask true e, by simp [hendpoints], fun f => ?_⟩
    rw [Crawl.ask_eq, hasked.length_queries]
    cases hanswer : answer? net deadline ⟨base.length + qs.length, c.now, e⟩ <;>
      simp [hpeers, or_and_right, exists_or, Names, hanswer]

/-- The second phase asks those of the given peers, in their order, that have not answered in the
    first. -/
theorem exists_second (h : c.HasAsked net deadline base start qs) {peers : List Endpoint}
    (hnodup : peers.Nodup) :
    ∃ rs, (peers.foldl (Crawl.askPeer net deadline) c).HasAsked net deadline base start
        (qs ++ rs) ∧
      rs.map (·.endpoint) = peers.filter fun e => (lastAnswer? net deadline qs e).isNone := by
  induction peers using List.reverseRecOn with
  | nil => exact ⟨[], by simpa using h, rfl⟩
  | append_singleton peers e ih =>
    obtain ⟨hpeers, -, he⟩ := List.nodup_append.mp hnodup
    obtain ⟨rs, hasked, hendpoints⟩ := ih hpeers
    rw [List.foldl_append, List.foldl_cons, List.foldl_nil]
    generalize peers.foldl (Crawl.askPeer net deadline) c = d at *
    -- A peer is asked once, so that an answer of it is one to a query of the first phase.
    have hlast : lastAnswer? net deadline (qs ++ rs) e = lastAnswer? net deadline qs e := by
      have hnone : lastAnswer? net deadline rs e = none := by
        refine Option.eq_none_iff_forall_ne_some.mpr fun info hinfo => ?_
        have hmem := mem_of_lastAnswer? hinfo
        rw [hendpoints] at hmem
        exact he e (List.mem_of_mem_filter hmem) e (List.mem_singleton_self e) rfl
      rw [lastAnswer?_append, hnone, Option.none_or]
    rw [Crawl.askPeer, hasked.any_found, hlast]
    cases hfirst : lastAnswer? net deadline qs e with
    | none =>
      refine ⟨rs ++ [⟨base.length + (qs ++ rs).length, d.now, e⟩], ?_, ?_⟩
      · rw [← List.append_assoc]
        exact hasked.ask false e
      · simp [hendpoints, hfirst]
    | some info => exact ⟨rs, hasked, by simp [hendpoints, hfirst]⟩

/-! ### Rounds -/

/-- A round: the queries of its two phases, the endpoints that it selects, and the instant at which
    it is over. -/
structure Round where
  first : List Query
  second : List Query
  usable : List Endpoint
  finished : Nat

/-- All queries of a round. -/
def Round.queries (r : Round) : List Query := r.first ++ r.second

/-- A round of a search for a configuration, with query numbers from `index` on and from the
    instant `start` on. -/
structure IsRound (net : Network) (cfg : Config) (supplied : List Endpoint)
    (deadline index start : Nat) (r : Round) : Prop where
  succession : Succession net deadline index start r.queries r.finished
  first : r.first.map (·.endpoint) = supplied
  /-- The second phase asks, once each and in ascending order, the peers that were named in the
      first and have not answered in it. -/
  second_ascending : (r.second.map (·.endpoint)).Pairwise (· < ·)
  mem_second : ∀ e, e ∈ r.second.map (·.endpoint) ↔
    (∃ q ∈ r.first, Names net deadline q e) ∧ lastAnswer? net deadline r.first e = none
  ascending : r.usable.Pairwise (· < ·)
  /-- Endpoints are selected by what they said last in this round. -/
  mem_usable : ∀ e, e ∈ r.usable ↔
    (∃ info, lastAnswer? net deadline r.queries e = some info ∧
      cfg.minConnectivity.toNat ≤ info.size) ∧
    (cfg.selectMethod = .any ∨ e ∉ supplied)

/-- Who answers in a round is supplied or was named by an answer in the first phase. -/
theorem IsRound.reachable {cfg : Config} {supplied : List Endpoint} {index : Nat} {r : Round}
    (h : IsRound net cfg supplied deadline index start r) {e : Endpoint} {info : NetInfo}
    (hanswer : lastAnswer? net deadline r.queries e = some info) :
    e ∈ supplied ∨ ∃ q ∈ r.first, Names net deadline q e := by
  have hmem := mem_of_lastAnswer? hanswer
  rw [Round.queries, List.map_append, List.mem_append, h.first, h.mem_second] at hmem
  exact hmem.imp_right And.left

/-- **A round.** What a crawl does is a round: it makes its queries, is over when the round is, and
    finds the endpoints that the round selects. -/
theorem exists_isRound (net : Network) (cfg : Config) (supplied : List Endpoint)
    (deadline start : Nat) (base : List Query) :
    ∃ r, IsRound net cfg supplied deadline base.length start r ∧
      (crawl net supplied deadline start base).queries = r.queries.reverse ++ base ∧
      (crawl net supplied deadline start base).now = r.finished ∧
      usable cfg.selectMethod supplied cfg.minConnectivity.toNat
        (crawl net supplied deadline start base).found = r.usable := by
  obtain ⟨qs, hfirst, hendpoints, hpeers⟩ := @exists_first net deadline base start supplied
  have hset := Endpoint.pairwise_sortedSet
    (supplied.foldl (Crawl.ask net deadline true) ⟨start, base, [], []⟩).peers
  obtain ⟨rs, hsecond, hrest⟩ := exists_second hfirst (Endpoint.nodup_of_pairwise hset)
  have hcrawl : (crawl net supplied deadline start base).HasAsked net deadline base start
      (qs ++ rs) := hsecond
  generalize crawl net supplied deadline start base = c at *
  refine ⟨⟨qs, rs, usable cfg.selectMethod supplied cfg.minConnectivity.toNat c.found, c.now⟩,
    ⟨hcrawl.succession, hendpoints, ?_, fun e => ?_, ?_, fun e => ?_⟩, hcrawl.queries_eq, rfl, rfl⟩
  · rw [hrest]
    exact hset.filter _
  · rw [hrest, List.mem_filter, Endpoint.mem_sortedSet, hpeers, Option.isNone_iff_eq_none]
  · exact hcrawl.ascending.sublist (List.filter_sublist.map _)
  · simp only [usable, List.mem_map, List.mem_filter, hcrawl.mem_found, Round.queries]
    constructor
    · rintro ⟨f, ⟨⟨info, hinfo, hsize⟩, hf⟩, rfl⟩
      refine ⟨⟨info, hinfo, ?_⟩, ?_⟩ <;> simp_all
    · rintro ⟨⟨info, hinfo, hsize⟩, hmethod⟩
      refine ⟨⟨e, info.size⟩, ⟨⟨info, hinfo, rfl⟩, ?_⟩, rfl⟩
      simp_all

end TxLoad.Discovery
