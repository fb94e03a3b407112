import TxLoad.Proofs.Discovery.Selecting

namespace TxLoad.Discovery

/-!
# Too few endpoints

A search asks for a number of usable endpoints, and a bound says how many of those it finds are
used. The bound is applied first, so that what is compared with the number asked for is not what
was found but what is left of it.

* `ReportsShortage`: a resolution fails exactly if there are too few endpoints, and says how many.
* `reportsShortage_poolOf`: the endpoints that count are those within the bound.
* `ReportsShortage.iff`: which other number of endpoints a resolution could be taken to count.
* `shortage_of_resolve`: when a resolution fails for want of endpoints; it goes by what was found
  unless the bound is below the number asked for and cuts something off.
-/

variable {cfg : Config} {es : List Endpoint} {pool : Except Error Pool} {least found : Nat}

/-- A resolution fails for want of endpoints exactly if fewer than `least` are found, and says how
    many that are. -/
def ReportsShortage (least found : Nat) (pool : Except Error Pool) : Prop :=
  ∀ got expected, pool = .error (.connectivity (.insufficientEndpoints got expected)) ↔
    got = found ∧ expected = least ∧ found < least

/-- How many endpoints are left within the bound. -/
theorem length_capped : (capped cfg es).length =
    if cfg.maxEndpoints = 0 then es.length else min cfg.maxEndpoints.toNat es.length := by
  unfold capped
  split
  · rfl
  · exact List.length_take

/-- The endpoints that count are those within the bound. -/
theorem reportsShortage_poolOf :
    ReportsShortage (expected cfg) (capped cfg es).length (poolOf cfg es) := by
  intro got least
  rcases Nat.lt_or_ge (capped cfg es).length (expected cfg) with hfew | henough
  · have hpool : poolOf cfg es = .error (.connectivity
        (.insufficientEndpoints (capped cfg es).length (expected cfg))) := if_pos hfew
    rw [hpool]
    simp only [Except.error.injEq, Error.connectivity.injEq,
      ConnectivityError.insufficientEndpoints.injEq]
    constructor
    · rintro ⟨rfl, rfl⟩
      exact ⟨rfl, rfl, hfew⟩
    · rintro ⟨rfl, rfl, -⟩
      exact ⟨rfl, rfl⟩
  · -- One endpoint is expected in any case, so that a pool can be made of them.
    have hpos := expected_pos cfg
    have hne : capped cfg es ≠ [] := List.ne_nil_of_length_pos (by omega)
    have hpool : poolOf cfg es = .ok ⟨_, hne⟩ := poolOf_eq_ok_iff.mpr ⟨rfl, henough⟩
    rw [hpool]
    simp only [reduceCtorEq, false_iff]
    omega

/-- A resolution could count another number of endpoints only if neither is too small. -/
theorem ReportsShortage.iff (h : ReportsShortage least found pool) {other : Nat} :
    ReportsShortage least other pool ↔ other = found ∨ least ≤ other ∧ least ≤ found := by
  constructor
  · intro hother
    rcases Nat.lt_or_ge found least with hfew | henough
    · have hreport := (h found least).mpr ⟨rfl, rfl, hfew⟩
      exact .inl ((hother found least).mp hreport).1.symm
    · refine .inr ⟨Nat.le_of_not_lt fun hfew => ?_, henough⟩
      have hreport := (hother other least).mpr ⟨rfl, rfl, hfew⟩
      have hcount := (h other least).mp hreport
      omega
  · rintro (rfl | ⟨hother, hfound⟩) got expected
    · exact h got expected
    · rw [h got expected]
      omega

/-- **Too few endpoints.** A resolution fails for want of endpoints exactly if those that are left
    of the ones found in the last round, once the bound is applied, are fewer than expected, and it
    reports their number; otherwise they are its pool. It goes by the number of those found exactly
    if there is no bound, the bound is at least the number expected, or it cuts nothing off. -/
theorem shortage_of_resolve {net : Network} {cfg : Config} {supplied : List Endpoint} {now : Nat}
    (hmethod : cfg.selectMethod ≠ .supplied)
    (hsupplied : cfg.endpoints.mapM Endpoint.parse = .ok supplied) :
    let least := max 1 cfg.expectPeers.toNat
    ∃ rounds last used,
      IsSearch net cfg supplied least (now + Clock.seconds cfg.peerConnectTimeout.toNat) 0 now
        (rounds ++ [last]) ∧
      (resolve net cfg now).queries = (rounds ++ [last]).flatMap Round.queries ∧
      used = (if cfg.maxEndpoints = 0 then last.usable
        else last.usable.take cfg.maxEndpoints.toNat) ∧
      ReportsShortage least used.length (resolve net cfg now).pool ∧
      (least ≤ used.length → ∃ pool, (resolve net cfg now).pool = .ok pool ∧
        pool.endpoints = used) ∧
      (ReportsShortage least last.usable.length (resolve net cfg now).pool ↔
        cfg.maxEndpoints = 0 ∨ least ≤ cfg.maxEndpoints.toNat ∨
          last.usable.length ≤ cfg.maxEndpoints.toNat) := by
  intro least
  obtain ⟨rounds, last, hsearch, hresolve⟩ := exists_search net hmethod hsupplied now
  have hreports := @reportsShortage_poolOf cfg last.usable
  rw [expected_eq hmethod] at hsearch hreports
  rw [hresolve]
  refine ⟨rounds, last, capped cfg last.usable, hsearch, rfl, rfl, hreports, fun henough => ?_, ?_⟩
  · have hne : capped cfg last.usable ≠ [] := List.ne_nil_of_length_pos (by omega)
    exact ⟨⟨_, hne⟩, poolOf_eq_ok_iff.mpr ⟨rfl, expected_eq hmethod ▸ henough⟩, rfl⟩
  · rw [hreports.iff, length_capped]
    by_cases hbound : cfg.maxEndpoints = 0
    · simp [hbound]
    · simp only [hbound, if_false, false_or]
      omega

/-- With nobody to answer, no endpoint is found in the last round, and that is what is reported. -/
theorem shortage_of_resolve_silent :
    twoPeers.selectMethod ≠ .supplied ∧
      twoPeers.endpoints.mapM Endpoint.parse = .ok [⟨"seed", 1⟩] ∧
      ∃ rounds last, IsSearch silent twoPeers [⟨"seed", 1⟩] 2 5000 0 0 (rounds ++ [last]) ∧
        (resolve silent twoPeers 0).pool = .error (.connectivity (.insufficientEndpoints 0 2)) ∧
        last.usable.length = 0 := by
  have hmethod : twoPeers.selectMethod ≠ .supplied := by decide
  have hsupplied : twoPeers.endpoints.mapM Endpoint.parse = .ok [⟨"seed", 1⟩] := rfl
  have hpool : (resolve silent twoPeers 0).pool =
      .error (.connectivity (.insufficientEndpoints 0 2)) := rfl
  obtain ⟨rounds, last, -, hsearch, -, -, -, -, hbound⟩ :=
    @shortage_of_resolve silent twoPeers _ 0 hmethod hsupplied
  have hreports := hbound.mpr (.inl rfl)
  exact ⟨hmethod, hsupplied, rounds, last, hsearch, hpool, ((hreports 0 2).mp hpool).1.symm⟩

/-- Two endpoints are expected, and one of them may be used. -/
def oneOfTwo : Config where
  endpoints := ["seed:1"]
  selectMethod := .any
  expectPeers := 2
  maxEndpoints := 1
  peerConnectTimeout := 5

/-- A network in which everybody answers at once and names the peer `a`. -/
def couple : Network := fun _ => .now (.ok ⟨1, [⟨"a", 1⟩]⟩)

/-- A bound below the number expected makes a search fail that has found enough, and hides how many
    it has found. -/
theorem not_reportsShortage_couple :
    oneOfTwo.selectMethod ≠ .supplied ∧
      oneOfTwo.endpoints.mapM Endpoint.parse = .ok [⟨"seed", 1⟩] ∧
      ∃ rounds last, IsSearch couple oneOfTwo [⟨"seed", 1⟩] 2 5000 0 0 (rounds ++ [last]) ∧
        last.usable = [⟨"a", 1⟩, ⟨"seed", 1⟩] ∧
        (resolve couple oneOfTwo 0).pool =
          .error (.connectivity (.insufficientEndpoints 1 2)) ∧
        ¬ ReportsShortage 2 last.usable.length (resolve couple oneOfTwo 0).pool := by
  obtain ⟨rounds, last, hsearch, houtcome⟩ :=
    @exists_isSearch couple oneOfTwo [⟨"seed", 1⟩] 2 5000 _ 0 (Nat.lt_succ_self _) []
  have husable : last.usable = [⟨"a", 1⟩, ⟨"seed", 1⟩] :=
    (congrArg Outcome.endpoints houtcome).symm
  have hpool : (resolve couple oneOfTwo 0).pool =
      .error (.connectivity (.insufficientEndpoints 1 2)) := rfl
  refine ⟨by decide, rfl, rounds, last, hsearch, husable, hpool, fun hreports => ?_⟩
  have hcount := ((hreports 1 2).mp hpool).1
  rw [husable] at hcount
  cases hcount

end TxLoad.Discovery
