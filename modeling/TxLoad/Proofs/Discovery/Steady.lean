import TxLoad.Proofs.Discovery.Selecting
import Mathlib.Algebra.Order.BigOperators.Group.List
import Mathlib.Algebra.Order.Ring.Nat
import Mathlib.Data.List.Perm.Subperm

namespace TxLoad.Discovery

/-!
# Networks that do not change

When every endpoint replies alike whenever it is asked, one round decides what is found. An endpoint
that never replies holds up those that are asked after it, up to the deadline, and from then on
only answers that are there at once count. What becomes of an endpoint therefore depends on those
that are asked before it, and on nobody else.

* `steady`: the network of endpoints that always reply alike.
* `IsUsable`: what makes an endpoint of such a network one that a search may select.
* `before`: the endpoints that are asked before another one.
* `Succession.instant_add_delay_le`: a query is answered in time if those before it do not take too
  long.
* `IsRound.mem_usable`, `IsRound.isUsable`: a round selects usable endpoints, and each one that is
  not held up.
* `pool_of_isAmple`: discovery succeeds in a network with enough usable endpoints that are not held
  up by endpoints that do not answer.
-/

/-! ### Replies -/

/-- What each endpoint does when it is asked, at whatever time. -/
abbrev Replies := Endpoint → Awaited (Except ConnectionError NetInfo)

/-- The network of endpoints that always reply alike. -/
def steady (replies : Replies) : Network := fun q => replies q.endpoint

/-- The milliseconds after which a reply is there, if it ever is. -/
def delayOf {α : Type} : Awaited α → Nat
  | .after delay _ => delay
  | .never => 0

/-- The answer that is given in the end, unless it is a failure or never given. -/
def told? : Awaited (Except ConnectionError NetInfo) → Option NetInfo
  | .after _ (.ok info) => some info
  | _ => none

/-- The milliseconds for which a failure is waited for. -/
def wasted : Awaited (Except ConnectionError NetInfo) → Nat
  | .after delay (.error _) => delay
  | _ => 0

section

variable {replies : Replies} {cfg : Config} {supplied : List Endpoint} {deadline : Nat}

/-- Who answers in time says what it always says. -/
theorem told?_of_answer? {q : Query} {info : NetInfo}
    (h : answer? (steady replies) deadline q = some info) :
    told? (replies q.endpoint) = some info := by
  obtain ⟨delay, -, hreply⟩ := answer?_eq_some_iff.mp h
  rw [show replies q.endpoint = .after delay (.ok info) from hreply]
  rfl

/-- Who answers at all answers in time if enough is left of it. -/
theorem answer?_of_told? {q : Query} {info : NetInfo}
    (h : told? (replies q.endpoint) = some info)
    (htime : delayOf (replies q.endpoint) ≤ deadline - q.instant) :
    answer? (steady replies) deadline q = some info := by
  refine answer?_eq_some_iff.mpr ⟨_, htime, ?_⟩
  show replies q.endpoint = _
  unfold told? at h
  split at h
  · rename_i delay info' hreply
    cases h
    rw [hreply]
    rfl
  · cases h

/-- An endpoint that has answered once has given this answer last. -/
theorem lastAnswer?_of_answer? {qs : List Query} {q : Query} {info : NetInfo} (hq : q ∈ qs)
    (h : answer? (steady replies) deadline q = some info) :
    lastAnswer? (steady replies) deadline qs q.endpoint = some info := by
  -- Whichever answer was the last, it came from the same endpoint and says the same.
  have hmem : info ∈ (qs.filter (·.endpoint = q.endpoint)).filterMap
      (answer? (steady replies) deadline) :=
    List.mem_filterMap.mpr ⟨q, List.mem_filter.mpr ⟨hq, by simp⟩, h⟩
  obtain ⟨last, hlast⟩ := Option.isSome_iff_exists.mp
    (List.getLast?_isSome.mpr (List.ne_nil_of_mem hmem))
  obtain ⟨q', hq', hanswer⟩ := List.mem_filterMap.mp (List.mem_of_getLast? hlast)
  have hendpoint : q'.endpoint = q.endpoint := by simpa using (List.mem_filter.mp hq').2
  have htold := told?_of_answer? hanswer
  rw [hendpoint, told?_of_answer? h] at htold
  rw [lastAnswer?, hlast, htold]

/-! ### Usable endpoints -/

/-- The peers that the supplied endpoints name, in ascending order and each once. -/
def named (replies : Replies) (supplied : List Endpoint) : List Endpoint :=
  Endpoint.sortedSet (supplied.flatMap fun e => (told? (replies e)).elim [] (·.peers))

theorem mem_named {e : Endpoint} : e ∈ named replies supplied ↔
    ∃ s ∈ supplied, ∃ info, told? (replies s) = some info ∧ e ∈ info.peers := by
  simp only [named, Endpoint.mem_sortedSet, List.mem_flatMap]
  refine exists_congr fun s => and_congr_right fun _ => ?_
  cases told? (replies s) <;> simp

/-- An endpoint that a search may select: it answers with enough peers, it is supplied or named by a
    supplied one that answers and, unless any endpoint will do, it is not supplied. -/
structure IsUsable (replies : Replies) (cfg : Config) (supplied : List Endpoint) (e : Endpoint) :
    Prop where
  answers : ∃ info, told? (replies e) = some info ∧ cfg.minConnectivity.toNat ≤ info.size
  reachable : e ∈ supplied ∨ e ∈ named replies supplied
  allowed : cfg.selectMethod = .any ∨ e ∉ supplied

/-- The endpoints that are asked before another one: the supplied ones as far as it, and the peers
    they name as far as it. -/
def before (replies : Replies) (supplied : List Endpoint) (e : Endpoint) : List Endpoint :=
  (supplied ++ named replies supplied).takeWhile (· ≠ e)

theorem takeWhile_ne_append {e : Endpoint} {as bs : List Endpoint} (h : e ∉ as) :
    (as ++ e :: bs).takeWhile (· ≠ e) = as := by
  rw [List.takeWhile_append_of_pos fun a ha => by simpa using fun heq : a = e => h (heq ▸ ha)]
  simp

theorem before_of_mem {e : Endpoint} (h : e ∈ supplied) :
    ∃ after, supplied = before replies supplied e ++ e :: after := by
  obtain ⟨as, bs, rfl, hnot⟩ := List.eq_append_cons_of_mem h
  refine ⟨bs, ?_⟩
  rw [before, List.append_assoc, List.cons_append, takeWhile_ne_append hnot]

theorem before_of_not_mem {e : Endpoint} (h : e ∉ supplied) : before replies supplied e =
    supplied ++ (named replies supplied).takeWhile (· ≠ e) :=
  List.takeWhile_append_of_pos fun s hs => by simpa using fun heq : s = e => h (heq ▸ hs)

/-- Of the peers that are named, those that come before one of them in the order of endpoints are
    asked before it. -/
theorem mem_takeWhile_named {e f : Endpoint} (he : e ∈ named replies supplied)
    (hf : f ∈ named replies supplied) (hlt : f < e) :
    f ∈ (named replies supplied).takeWhile (· ≠ e) := by
  have hset := Endpoint.pairwise_sortedSet
    (supplied.flatMap fun e => (told? (replies e)).elim [] (·.peers))
  change (named replies supplied).Pairwise (· < ·) at hset
  obtain ⟨as, bs, heq, hnot⟩ := List.eq_append_cons_of_mem he
  rw [heq] at hf hset ⊢
  rw [takeWhile_ne_append hnot]
  rcases List.mem_append.mp hf with hf | hf
  · exact hf
  · have hle : f = e ∨ e < f := by
      rcases List.mem_cons.mp hf with hf | hf
      · exact .inl hf
      · have hafter := (List.pairwise_append.mp hset).2.1
        exact .inr ((List.pairwise_cons.mp hafter).1 f hf)
    rcases hle with rfl | hgt
    · exact absurd hlt (Endpoint.lt_irrefl f)
    · exact absurd (Endpoint.lt_trans hlt hgt) (Endpoint.lt_irrefl f)

/-! ### Time -/

/-- A query is over when its reply is there, or before. -/
theorem overAt_le {net : Network} {q : Query} (h : net q ≠ .never) :
    overAt net deadline q ≤ q.instant + delayOf (net q) := by
  unfold overAt Awaited.within delayOf
  cases hreply : net q with
  | never => exact absurd hreply h
  | after delay reply =>
    simp only
    split <;> simp only <;> omega

/-- If the endpoints that are asked before another one reply, and altogether soon enough, then it
    is asked in time for its own reply. -/
theorem Succession.instant_add_delay_le {net : Network} {index start finished : Nat}
    {ps qs : List Query} {q : Query}
    (h : Succession net deadline index start (ps ++ q :: qs) finished)
    (hreply : ∀ p ∈ ps, net p ≠ .never)
    (htime : start + (ps.map fun p => delayOf (net p)).sum + delayOf (net q) ≤ deadline) :
    q.instant + delayOf (net q) ≤ deadline := by
  induction ps generalizing index start with
  | nil =>
    cases h
    simpa using htime
  | cons p ps ih =>
    obtain ⟨hp, hps⟩ := List.forall_mem_cons.mp hreply
    rw [List.map_cons, List.sum_cons] at htime
    cases h with
    | @cons _ _ _ e _ hrest =>
      -- The next query is made when this one is over.
      have hover : overAt net deadline ⟨index, start, e⟩ ≤
          start + delayOf (net ⟨index, start, e⟩) := overAt_le hp
      exact ih hrest hps (by omega)

/-- What does not answer and is waited for is a failure. -/
theorem delayOf_of_told? {reply : Awaited (Except ConnectionError NetInfo)}
    (h : told? reply = none) : delayOf reply = wasted reply := by
  cases reply with
  | never => rfl
  | after delay result =>
    cases result with
    | error error => rfl
    | ok info => cases h

/-- The time that replies take is that of the answers and that of the failures. -/
theorem sum_delay_le {d : Nat}
    (hdelay : ∀ e info, told? (replies e) = some info → delayOf (replies e) ≤ d)
    (es : List Endpoint) : (es.map fun e => delayOf (replies e)).sum ≤
      d * (es.filter fun e => (told? (replies e)).isSome).length +
        (es.map fun e => wasted (replies e)).sum := by
  induction es with
  | nil => simp
  | cons e es ih =>
    simp only [List.map_cons, List.sum_cons, List.filter_cons]
    cases htold : told? (replies e) with
    | none =>
      rw [delayOf_of_told? htold]
      simp only [Option.isSome_none, Bool.false_eq_true, if_false]
      omega
    | some info =>
      have hle := hdelay e info htold
      simp only [Option.isSome_some, if_true, List.length_cons, Nat.mul_succ]
      omega

theorem wasted_of_told? {reply : Awaited (Except ConnectionError NetInfo)} {info : NetInfo}
    (h : told? reply = some info) : wasted reply = 0 := by
  unfold told? at h
  split at h
  · rfl
  · cases h

/-- Of two lists, the first no longer than that of the supplied endpoints and the second without
    duplicates, the replies take the time of as many answers and of the failures. -/
theorem sum_delay_append_le {answering as bs : List Endpoint} {d : Nat}
    (htold : ∀ e info, told? (replies e) = some info → e ∈ answering ∧ delayOf (replies e) ≤ d)
    (hlength : as.length ≤ supplied.length) (hnodup : bs.Nodup) :
    ((as ++ bs).map fun e => delayOf (replies e)).sum ≤
      d * (supplied.length + answering.length) +
        ((as ++ bs).map fun e => wasted (replies e)).sum := by
  have hsum := sum_delay_le (fun e info h => (htold e info h).2) (as ++ bs)
  -- An endpoint may stand in the first list more than once, but not in the second.
  have hanswers : ((as ++ bs).filter fun e => (told? (replies e)).isSome).length ≤
      supplied.length + answering.length := by
    have has := (List.length_filter_le (fun e => (told? (replies e)).isSome) as).trans hlength
    have hbs : (bs.filter fun e => (told? (replies e)).isSome).Subperm answering :=
      List.subperm_of_subset (hnodup.filter _) fun e he => by
        obtain ⟨info, hinfo⟩ := Option.isSome_iff_exists.mp (List.mem_filter.mp he).2
        exact (htold e info hinfo).1
    have hlen := hbs.length_le
    rw [List.filter_append, List.length_append]
    omega
  have hmul := Nat.mul_le_mul_left d hanswers
  omega

/-! ### Rounds -/

variable {r : Round} {index start d : Nat} {answering : List Endpoint} {e : Endpoint}

/-- A peer that an answer in the first phase names is named by a supplied endpoint. -/
theorem IsRound.mem_named (h : IsRound (steady replies) cfg supplied deadline index start r)
    {q : Query} (hq : q ∈ r.first) (hnames : Names (steady replies) deadline q e) :
    e ∈ named replies supplied := by
  obtain ⟨info, hanswer, he⟩ := hnames
  refine Discovery.mem_named.mpr ⟨q.endpoint, ?_, info, told?_of_answer? hanswer, he⟩
  rw [← h.first]
  exact List.mem_map_of_mem hq

/-- What a round selects is usable. -/
theorem IsRound.isUsable (h : IsRound (steady replies) cfg supplied deadline index start r)
    (he : e ∈ r.usable) : IsUsable replies cfg supplied e := by
  obtain ⟨⟨info, hlast, hsize⟩, hallowed⟩ := (h.mem_usable e).mp he
  obtain ⟨q, hq, hanswer⟩ := List.mem_filterMap.mp (List.mem_of_getLast? hlast)
  have hendpoint : q.endpoint = e := by simpa using (List.mem_filter.mp hq).2
  refine ⟨⟨info, hendpoint ▸ told?_of_answer? hanswer, hsize⟩, ?_, hallowed⟩
  exact (h.reachable hlast).imp_right fun ⟨q, hq, hnames⟩ => h.mem_named hq hnames

/-- A usable endpoint is selected by a round in which it is asked in time. -/
theorem IsRound.mem_usable_of_query
    (h : IsRound (steady replies) cfg supplied deadline index start r)
    (husable : IsUsable replies cfg supplied e) {q : Query} (hq : q ∈ r.queries)
    (hendpoint : q.endpoint = e) (htime : delayOf (replies q.endpoint) ≤ deadline - q.instant) :
    e ∈ r.usable := by
  obtain ⟨info, htold, hsize⟩ := husable.answers
  subst hendpoint
  have hlast := lastAnswer?_of_answer? hq (answer?_of_told? htold htime)
  exact (h.mem_usable _).mpr ⟨⟨info, hlast, hsize⟩, husable.allowed⟩

/-- A peer that is named is asked if the supplied endpoints that answer are asked in time. -/
theorem IsRound.mem_second_of_named
    (h : IsRound (steady replies) cfg supplied deadline index start r)
    (hfirst : ∀ q ∈ r.first, ∀ info, told? (replies q.endpoint) = some info →
      delayOf (replies q.endpoint) ≤ deadline - q.instant)
    (he : e ∈ named replies supplied) (hnot : e ∉ supplied) : e ∈ r.second.map (·.endpoint) := by
  obtain ⟨s, hs, info, htold, hpeer⟩ := Discovery.mem_named.mp he
  rw [← h.first] at hs
  obtain ⟨q, hq, rfl⟩ := List.mem_map.mp hs
  have hanswer := answer?_of_told? htold (hfirst q hq info htold)
  refine (h.mem_second e).mpr ⟨⟨q, hq, info, hanswer, hpeer⟩,
    Option.eq_none_iff_forall_ne_some.mpr fun info hlast => hnot ?_⟩
  rw [← h.first]
  exact mem_of_lastAnswer? hlast

/-- A query is made in time if nobody who was asked before it stays mute, and the answers and the
    failures before it leave time enough. -/
theorem IsRound.delay_le (h : IsRound (steady replies) cfg supplied deadline index start r)
    (htold : ∀ e info, told? (replies e) = some info → e ∈ answering ∧ delayOf (replies e) ≤ d)
    {ps qs : List Query} {q : Query} (hqueries : r.queries = ps ++ q :: qs)
    {as bs : List Endpoint} (hasked : (ps ++ [q]).map (·.endpoint) = as ++ bs)
    (hlength : as.length ≤ supplied.length) (hnodup : bs.Nodup)
    (hreply : ∀ p ∈ ps, replies p.endpoint ≠ .never)
    (htime : start + d * (supplied.length + answering.length) +
      ((as ++ bs).map fun e => wasted (replies e)).sum ≤ deadline) :
    delayOf (replies q.endpoint) ≤ deadline - q.instant := by
  have hsum := sum_delay_append_le htold hlength hnodup
  have hsplit : ((as ++ bs).map fun e => delayOf (replies e)).sum =
      (ps.map fun p => delayOf (steady replies p)).sum + delayOf (steady replies q) := by
    rw [← hasked, List.map_map, List.map_append, List.sum_append]
    simp [Function.comp_def, steady]
  have hq := (hqueries ▸ h.succession).instant_add_delay_le hreply (by omega)
  exact Nat.le_sub_of_add_le (by rwa [Nat.add_comm] at hq)

/-- Failures of fewer endpoints take less time. -/
theorem sum_wasted_le {as bs : List Endpoint} (h : as.Subperm bs) :
    (as.map fun e => wasted (replies e)).sum ≤ (bs.map fun e => wasted (replies e)).sum := by
  obtain ⟨l, hperm, hsub⟩ := h
  calc (as.map fun e => wasted (replies e)).sum
      = (l.map fun e => wasted (replies e)).sum := (hperm.map _).sum_eq.symm
    _ ≤ (bs.map fun e => wasted (replies e)).sum := (hsub.map _).sum_le_sum (by simp)

/-- The peers that are asked before one of them come before it among those that are named. -/
theorem IsRound.subset_takeWhile
    (h : IsRound (steady replies) cfg supplied deadline index start r)
    (he : e ∈ named replies supplied) {as bs : List Endpoint}
    (hsecond : r.second.map (·.endpoint) = as ++ e :: bs) :
    as ⊆ (named replies supplied).takeWhile (· ≠ e) := by
  intro f hf
  have hascending := h.second_ascending
  rw [hsecond] at hascending
  have hlt := (List.pairwise_append.mp hascending).2.2 f hf e List.mem_cons_self
  have hmem : f ∈ r.second.map (·.endpoint) := by
    rw [hsecond]
    exact List.mem_append_left _ hf
  obtain ⟨⟨q, hq, hnames⟩, -⟩ := (h.mem_second f).mp hmem
  exact mem_takeWhile_named he (h.mem_named hq hnames) hlt

section

variable (h : IsRound (steady replies) cfg supplied deadline index start r)
  (htold : ∀ e info, told? (replies e) = some info → e ∈ answering ∧ delayOf (replies e) ≤ d)

include h htold

/-- A supplied endpoint is asked in time if the supplied ones leave time enough. -/
theorem IsRound.delay_le_of_first (hreply : ∀ s ∈ supplied, replies s ≠ .never)
    (htime : start + d * (supplied.length + answering.length) +
      (supplied.map fun e => wasted (replies e)).sum ≤ deadline) {q : Query} (hq : q ∈ r.first) :
    delayOf (replies q.endpoint) ≤ deadline - q.instant := by
  obtain ⟨ps, qs, hfirst⟩ := List.append_of_mem hq
  have hqueries : r.queries = ps ++ q :: (qs ++ r.second) := by
    rw [Round.queries, hfirst, List.append_assoc, List.cons_append]
  have hsupplied : supplied = (ps ++ [q]).map (·.endpoint) ++ qs.map (·.endpoint) := by
    rw [← h.first, hfirst]
    simp
  have hsub : ((ps ++ [q]).map (·.endpoint)).Sublist supplied := by
    rw [hsupplied]
    exact List.sublist_append_left _ _
  have hwasted := @sum_wasted_le replies _ _ hsub.subperm
  refine h.delay_le htold hqueries (List.append_nil _).symm hsub.length_le List.nodup_nil
    (fun p hp => hreply _ (hsub.subset ?_)) ?_
  · exact List.mem_map_of_mem (List.mem_append_left _ hp)
  · rw [List.append_nil]
    omega

/-- A usable endpoint is selected if nobody who was asked before it stays mute, and the answers and
    the failures before it leave time enough. -/
theorem IsRound.mem_usable_of_split (husable : IsUsable replies cfg supplied e)
    {ps qs : List Query} {q : Query} (hqueries : r.queries = ps ++ q :: qs)
    (hq : q.endpoint = e) {as bs : List Endpoint}
    (hasked : (ps ++ [q]).map (·.endpoint) = as ++ bs)
    (hlength : as.length ≤ supplied.length) (hnodup : bs.Nodup)
    (hreply : ∀ p ∈ ps, replies p.endpoint ≠ .never)
    (htime : start + d * (supplied.length + answering.length) +
      ((ps.map (·.endpoint)).map fun e => wasted (replies e)).sum ≤ deadline) :
    e ∈ r.usable := by
  obtain ⟨info, hinfo, -⟩ := husable.answers
  -- The endpoint itself answers, and wastes no time.
  have hwasted : ((as ++ bs).map fun e => wasted (replies e)).sum =
      ((ps.map (·.endpoint)).map fun e => wasted (replies e)).sum := by
    rw [← hasked]
    simp [hq, wasted_of_told? hinfo]
  exact h.mem_usable_of_query husable (hqueries ▸ List.mem_append_right _ List.mem_cons_self) hq
    (h.delay_le htold hqueries hasked hlength hnodup hreply (hwasted ▸ htime))

/-- A usable endpoint that is supplied is selected if nobody before it stays mute or fails too
    late. -/
theorem IsRound.mem_usable_of_mem (husable : IsUsable replies cfg supplied e) (he : e ∈ supplied)
    (hreply : ∀ f ∈ before replies supplied e, replies f ≠ .never)
    (htime : start + d * (supplied.length + answering.length) +
      ((before replies supplied e).map fun e => wasted (replies e)).sum ≤ deadline) :
    e ∈ r.usable := by
  obtain ⟨after, hsupplied⟩ := @before_of_mem replies _ _ he
  -- It is asked when its turn comes for the first time, so that nobody but those before it counts.
  obtain ⟨ps, rest, hfirst, hps, hrest⟩ := List.map_eq_append_iff.mp (h.first.trans hsupplied)
  obtain ⟨q, qs, rfl, hq, -⟩ := List.map_eq_cons_iff.mp hrest
  have hqueries : r.queries = ps ++ q :: (qs ++ r.second) := by
    rw [Round.queries, hfirst, List.append_assoc, List.cons_append]
  have hlength : (before replies supplied e ++ [e]).length ≤ supplied.length := by
    have hlen := congrArg List.length hsupplied
    simp only [List.length_append, List.length_cons, List.length_nil] at hlen ⊢
    omega
  refine h.mem_usable_of_split htold husable hqueries hq ?_ hlength List.nodup_nil
    (fun p hp => hreply _ (hps ▸ List.mem_map_of_mem hp)) (hps ▸ htime)
  simp [hps, hq]

/-- A usable endpoint that is named is selected if nobody before it stays mute or fails too late. -/
theorem IsRound.mem_usable_of_named (husable : IsUsable replies cfg supplied e)
    (he : e ∈ named replies supplied) (hnot : e ∉ supplied)
    (hreply : ∀ f ∈ before replies supplied e, replies f ≠ .never)
    (htime : start + d * (supplied.length + answering.length) +
      ((before replies supplied e).map fun e => wasted (replies e)).sum ≤ deadline) :
    e ∈ r.usable := by
  rw [before_of_not_mem hnot] at hreply htime
  rw [List.map_append, List.sum_append] at htime
  -- The supplied endpoints are asked first, so that all peers are known.
  have hsecond := h.mem_second_of_named
    (fun q hq _ _ => h.delay_le_of_first htold
      (fun s hs => hreply s (List.mem_append_left _ hs)) (by omega) hq) he hnot
  obtain ⟨as, bs, hasked⟩ := List.append_of_mem hsecond
  have hsubset := h.subset_takeWhile he hasked
  have hnodup : (as ++ [e]).Nodup := by
    refine (Endpoint.nodup_of_pairwise h.second_ascending).sublist ?_
    rw [hasked, List.append_cons as e bs]
    exact List.sublist_append_left _ _
  have hwasted := @sum_wasted_le replies _ _
    (List.subperm_of_subset (List.nodup_append.mp hnodup).1 hsubset)
  obtain ⟨ps, rest, hparts, rfl, hrest⟩ := List.map_eq_append_iff.mp hasked
  obtain ⟨q, qs, rfl, hq, -⟩ := List.map_eq_cons_iff.mp hrest
  have hqueries : r.queries = (r.first ++ ps) ++ q :: qs := by
    rw [Round.queries, hparts, List.append_assoc]
  refine h.mem_usable_of_split htold husable hqueries hq ?_ (Nat.le_refl _) hnodup
    (fun p hp => hreply _ ?_) ?_
  · simp [h.first, hq]
  · rcases List.mem_append.mp hp with hp | hp
    · exact List.mem_append_left _ (h.first ▸ List.mem_map_of_mem hp)
    · exact List.mem_append_right _ (hsubset (List.mem_map_of_mem hp))
  · rw [List.map_append, h.first, List.map_append, List.sum_append]
    omega

end

/-- If whoever answers does so at once, a round selects every usable endpoint, whatever the others
    do. -/
theorem IsRound.mem_usable_of_prompt
    (h : IsRound (steady replies) cfg supplied deadline index start r)
    (hprompt : ∀ e info, told? (replies e) = some info → delayOf (replies e) = 0)
    (husable : IsUsable replies cfg supplied e) : e ∈ r.usable := by
  obtain ⟨info, hinfo, -⟩ := husable.answers
  have hasked : e ∈ r.queries.map (·.endpoint) := by
    rw [Round.queries, List.map_append, List.mem_append, h.first]
    by_cases he : e ∈ supplied
    · exact .inl he
    · refine .inr (h.mem_second_of_named (fun q _ info hinfo => ?_) ?_ he)
      · rw [hprompt _ info hinfo]
        exact Nat.zero_le _
      · exact husable.reachable.resolve_left he
  obtain ⟨q, hq, rfl⟩ := List.mem_map.mp hasked
  refine h.mem_usable_of_query husable hq rfl ?_
  rw [hprompt _ info hinfo]
  exact Nat.zero_le _

end

/-! ### Discovery -/

/-- A search whose first round selects enough is over with it. -/
theorem IsSearch.eq_singleton {net : Network} {cfg : Config} {supplied : List Endpoint}
    {expected deadline index start : Nat} {rounds : List Round}
    (h : IsSearch net cfg supplied expected deadline index start rounds)
    (henough : ∀ r, IsRound net cfg supplied deadline index start r → expected ≤ r.usable.length) :
    ∃ r, rounds = [r] ∧ IsRound net cfg supplied deadline index start r := by
  cases h with
  | last h _ => exact ⟨_, rfl, h⟩
  | again h hfew _ _ => exact absurd hfew (Nat.not_lt.mpr (henough _ h))

/-- A network has enough usable endpoints, `es` among them, and those that answer, which are all in
    `answering`, do so within `d` milliseconds; asking the supplied endpoints and them takes less
    than half of the time for discovery. -/
structure IsAmple (replies : Replies) (cfg : Config) (supplied es answering : List Endpoint)
    (d : Nat) : Prop where
  nodup : es.Nodup
  usable : ∀ e ∈ es, IsUsable replies cfg supplied e
  enough : max 1 cfg.expectPeers.toNat ≤ es.length
  told : ∀ e info, told? (replies e) = some info → e ∈ answering ∧ delayOf (replies e) ≤ d
  time : 2 * d * (supplied.length + answering.length) <
    Clock.seconds cfg.peerConnectTimeout.toNat

/-- **Networks that do not change.** Discovery succeeds in a network with enough usable endpoints,
    and finds them, if whoever answers does so at once, or if of the endpoints that are asked before
    them nobody stays mute and the failures take no more than half of the time. -/
theorem pool_of_isAmple {replies : Replies} {cfg : Config} {supplied es answering : List Endpoint}
    {d now : Nat} (hmethod : cfg.selectMethod ≠ .supplied) (hbound : cfg.maxEndpoints = 0)
    (hsupplied : cfg.endpoints.mapM Endpoint.parse = .ok supplied)
    (hample : IsAmple replies cfg supplied es answering d)
    (hothers : d = 0 ∨ ∀ e ∈ es, (∀ f ∈ before replies supplied e, replies f ≠ .never) ∧
      2 * ((before replies supplied e).map fun f => wasted (replies f)).sum ≤
        Clock.seconds cfg.peerConnectTimeout.toNat) :
    ∃ pool, (resolve (steady replies) cfg now).pool = .ok pool ∧ (∀ e ∈ es, e ∈ pool.endpoints) ∧
      ∀ e ∈ pool.endpoints, IsUsable replies cfg supplied e := by
  -- A round that begins at once finds all of `es`.
  have hfinds : ∀ r, IsRound (steady replies) cfg supplied
      (now + Clock.seconds cfg.peerConnectTimeout.toNat) 0 now r → es ⊆ r.usable := by
    intro r hround e he
    have husable := hample.usable e he
    rcases hothers with rfl | hothers
    · exact hround.mem_usable_of_prompt
        (fun e info htold => Nat.le_zero.mp (hample.told e info htold).2) husable
    · obtain ⟨hreply, hwasted⟩ := hothers e he
      have htime : now + d * (supplied.length + answering.length) +
          ((before replies supplied e).map fun e => wasted (replies e)).sum ≤
            now + Clock.seconds cfg.peerConnectTimeout.toNat := by
        have hhalf := hample.time
        rw [Nat.mul_assoc] at hhalf
        omega
      by_cases hmem : e ∈ supplied
      · exact hround.mem_usable_of_mem hample.told husable hmem hreply htime
      · exact hround.mem_usable_of_named hample.told husable
          (husable.reachable.resolve_left hmem) hmem hreply htime
  -- So the search is over with the first round.
  obtain ⟨rounds, last, hsearch, hresolve⟩ := exists_search (steady replies) hmethod hsupplied now
  rw [expected_eq hmethod] at hsearch
  obtain ⟨r, hr, hround⟩ := hsearch.eq_singleton fun r hround =>
    hample.enough.trans (List.subperm_of_subset hample.nodup (hfinds r hround)).length_le
  obtain rfl : last = r := by
    have hlast := congrArg List.getLast? hr
    simpa using hlast
  have henough : expected cfg ≤ last.usable.length := by
    rw [expected_eq hmethod]
    exact hample.enough.trans (List.subperm_of_subset hample.nodup (hfinds _ hround)).length_le
  have hcapped : capped cfg last.usable = last.usable := if_pos hbound
  have hne : last.usable ≠ [] := List.ne_nil_of_length_pos ((expected_pos cfg).trans_le henough)
  rw [hresolve]
  refine ⟨⟨last.usable, hne⟩, poolOf_eq_ok_iff.mpr ⟨hcapped.symm, henough⟩, hfinds _ hround,
    fun e he => hround.isUsable he⟩

/-- Any endpoint will do, among two that are supplied. -/
def anyOf (first second : String) : Config where
  endpoints := [first, second]
  selectMethod := .any
  peerConnectTimeout := 5

/-- The seed answers after a millisecond, and nobody else ever does. -/
def lonely : Replies := fun e => if e = ⟨"seed", 1⟩ then .after 1 (.ok ⟨0, []⟩) else .never

theorem eq_of_told?_lonely {e : Endpoint} {info : NetInfo} (h : told? (lonely e) = some info) :
    e = ⟨"seed", 1⟩ ∧ delayOf (lonely e) ≤ 1 := by
  by_cases he : e = ⟨"seed", 1⟩
  · subst he
    exact ⟨rfl, Nat.le_refl 1⟩
  · rw [lonely, if_neg he] at h
    cases h

theorem isAmple_lonely {cfg : Config} {supplied : List Endpoint}
    (hmethod : cfg.selectMethod = .any) (hmem : ⟨"seed", 1⟩ ∈ supplied)
    (henough : cfg.expectPeers = 0) (hsize : cfg.minConnectivity = 0)
    (htime : 2 * 1 * (supplied.length + 1) < Clock.seconds cfg.peerConnectTimeout.toNat) :
    IsAmple lonely cfg supplied [⟨"seed", 1⟩] [⟨"seed", 1⟩] 1 where
  nodup := by simp
  usable e he := by
    obtain rfl := List.mem_singleton.mp he
    exact ⟨⟨⟨0, []⟩, rfl, by simp [hsize]⟩, .inl hmem, .inl hmethod⟩
  enough := by simp [henough]
  told e info h := by
    obtain ⟨rfl, hdelay⟩ := eq_of_told?_lonely h
    exact ⟨List.mem_singleton_self _, hdelay⟩
  time := htime

/-- An endpoint that stays mute does no harm if it is asked last. -/
theorem pool_of_isAmple_lonely :
    (anyOf "seed:1" "mute:1").selectMethod ≠ .supplied ∧
      (anyOf "seed:1" "mute:1").maxEndpoints = 0 ∧
      (anyOf "seed:1" "mute:1").endpoints.mapM Endpoint.parse =
        .ok [⟨"seed", 1⟩, ⟨"mute", 1⟩] ∧
      IsAmple lonely (anyOf "seed:1" "mute:1") [⟨"seed", 1⟩, ⟨"mute", 1⟩] [⟨"seed", 1⟩]
        [⟨"seed", 1⟩] 1 ∧
      before lonely [⟨"seed", 1⟩, ⟨"mute", 1⟩] ⟨"seed", 1⟩ = [] ∧
      ∃ pool, (resolve (steady lonely) (anyOf "seed:1" "mute:1") 0).pool = .ok pool ∧
        ⟨"seed", 1⟩ ∈ pool.endpoints := by
  have hmethod : (anyOf "seed:1" "mute:1").selectMethod ≠ .supplied := by decide
  have hsupplied : (anyOf "seed:1" "mute:1").endpoints.mapM Endpoint.parse =
      .ok [⟨"seed", 1⟩, ⟨"mute", 1⟩] := rfl
  have hample : IsAmple lonely (anyOf "seed:1" "mute:1") [⟨"seed", 1⟩, ⟨"mute", 1⟩]
      [⟨"seed", 1⟩] [⟨"seed", 1⟩] 1 :=
    isAmple_lonely rfl List.mem_cons_self rfl rfl (by decide)
  have hbefore : before lonely [⟨"seed", 1⟩, ⟨"mute", 1⟩] ⟨"seed", 1⟩ = [] := rfl
  obtain ⟨pool, hpool, hmem, -⟩ := @pool_of_isAmple lonely _ _ _ _ 1 0 hmethod rfl hsupplied hample
    (.inr fun e he => by
      obtain rfl := List.mem_singleton.mp he
      rw [hbefore]
      exact ⟨by simp, by simp⟩)
  exact ⟨hmethod, rfl, hsupplied, hample, hbefore, pool, hpool, hmem _ List.mem_cons_self⟩

/-- One that is asked first uses up all the time, and what is left is not enough for the seed. -/
theorem pool_lonely_of_mute_first :
    (anyOf "mute:1" "seed:1").selectMethod ≠ .supplied ∧
      (anyOf "mute:1" "seed:1").maxEndpoints = 0 ∧
      (anyOf "mute:1" "seed:1").endpoints.mapM Endpoint.parse =
        .ok [⟨"mute", 1⟩, ⟨"seed", 1⟩] ∧
      IsAmple lonely (anyOf "mute:1" "seed:1") [⟨"mute", 1⟩, ⟨"seed", 1⟩] [⟨"seed", 1⟩]
        [⟨"seed", 1⟩] 1 ∧
      (resolve (steady lonely) (anyOf "mute:1" "seed:1") 0).pool =
        .error (.connectivity (.insufficientEndpoints 0 1)) :=
  ⟨by decide, rfl, rfl, isAmple_lonely rfl (by decide) rfl rfl (by decide), by rfl⟩

end TxLoad.Discovery
