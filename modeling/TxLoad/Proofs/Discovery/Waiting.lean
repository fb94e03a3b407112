import TxLoad.Proofs.Discovery.Rounds

namespace TxLoad.Discovery

/-!
# How long endpoints are waited for

However endpoints answer, and whether they answer at all, no query, round or search goes on beyond
the deadline.

* `waitMs` is the time that resolving endpoints may take: none if they are supplied.
* `isWithin_crawl`: a round that begins before the deadline ends by it.
* `finished_resolve`: the endpoints of a configuration are resolved within this time.
-/

/-- How long resolving the endpoints of a configuration may take. -/
def waitMs (cfg : Config) : Nat :=
  match cfg.selectMethod with
  | .supplied => 0
  | _ => Clock.seconds cfg.peerConnectTimeout.toNat

/-- Whoever discovers peers may take the time that is set for it. -/
theorem waitMs_eq {cfg : Config} (hmethod : cfg.selectMethod ≠ .supplied) :
    waitMs cfg = Clock.seconds cfg.peerConnectTimeout.toNat := by
  unfold waitMs
  split
  · rename_i hselect
    exact absurd hselect hmethod
  · rfl

variable (net : Network) {start deadline : Nat}

/-! ### A round -/

/-- A round is between its start and the deadline. -/
structure IsWithin (start deadline : Nat) (c : Crawl) : Prop where
  start_le : start ≤ c.now
  le_deadline : c.now ≤ deadline

/-- Asking an endpoint takes no longer than up to the deadline. -/
theorem IsWithin.ask {c : Crawl} (h : IsWithin start deadline c) (keepPeers : Bool) (e : Endpoint) :
    IsWithin start deadline (c.ask net deadline keepPeers e) := by
  have hwait := Awaited.within_fst_le (deadline - c.now) (net ⟨c.queries.length, c.now, e⟩)
  have hnow : (c.ask net deadline keepPeers e).now =
      c.now + ((net ⟨c.queries.length, c.now, e⟩).within (deadline - c.now)).1 := by
    rw [Crawl.ask_eq]
    rfl
  have hstart := h.start_le
  have hdeadline := h.le_deadline
  exact ⟨by omega, by omega⟩

theorem IsWithin.askPeer {c : Crawl} (h : IsWithin start deadline c) (e : Endpoint) :
    IsWithin start deadline (c.askPeer net deadline e) := by
  unfold Crawl.askPeer
  split
  · exact h
  · exact h.ask net false e

/-- A round that begins before the deadline ends by it. -/
theorem isWithin_crawl {now : Nat} (h : now ≤ deadline) (supplied : List Endpoint)
    (queries : List Query) : IsWithin now deadline (crawl net supplied deadline now queries) := by
  have hstart : IsWithin now deadline ⟨now, queries, [], []⟩ := ⟨Nat.le_refl _, h⟩
  have hfirst := List.foldlRecOn supplied (Crawl.ask net deadline true) hstart
    fun _ hc e _ => hc.ask net true e
  exact List.foldlRecOn _ (Crawl.askPeer net deadline) hfirst fun _ hc e _ => hc.askPeer net e

/-! ### The search -/

/-- A search that begins before the deadline ends by it. -/
theorem finished_searchFor (cfg : Config) (supplied : List Endpoint) (expected fuel : Nat) {now : Nat}
    (h : now ≤ deadline) (queries : List Query) :
    now ≤ (searchFor net cfg supplied expected deadline fuel now queries).finished ∧
      (searchFor net cfg supplied expected deadline fuel now queries).finished ≤ deadline := by
  induction fuel generalizing now queries with
  | zero => exact ⟨Nat.le_refl _, h⟩
  | succ fuel ih =>
    have hround := isWithin_crawl net h supplied queries
    simp only [searchFor]
    split
    · exact ⟨hround.start_le, hround.le_deadline⟩
    · obtain ⟨hle, hdeadline⟩ := ih (Nat.min_le_left deadline
        ((crawl net supplied deadline now queries).now + intervalMs))
        (crawl net supplied deadline now queries).queries
      have hstart := hround.start_le
      exact ⟨by omega, hdeadline⟩

/-- **In time.** The endpoints of a configuration are resolved within the time that this may
    take. -/
theorem finished_resolve (cfg : Config) (now : Nat) :
    now ≤ (resolve net cfg now).finished ∧ (resolve net cfg now).finished ≤ now + waitMs cfg := by
  unfold resolve
  split
  · exact ⟨Nat.le_refl _, Nat.le_add_right _ _⟩
  · rename_i supplied _
    have hsearch := finished_searchFor net cfg supplied (expected cfg)
      (now + Clock.seconds cfg.peerConnectTimeout.toNat - now + 1)
      (Nat.le_add_right now (Clock.seconds cfg.peerConnectTimeout.toNat)) []
    cases hmethod : cfg.selectMethod with
    | supplied => exact ⟨Nat.le_refl _, Nat.le_add_right _ _⟩
    | discovered | any => simpa only [waitMs, hmethod, search] using hsearch

end TxLoad.Discovery
