import TxLoad.Client.KeyValue
import Mathlib.Algebra.GroupWithZero.Nat
import Mathlib.Tactic.Common

namespace TxLoad

/-!
# The room for keys

The width of the suffixes is searched for the number of transactions that one connection may send.
A client of the built-in factory can therefore tell apart as many transactions as its connection
may ever ask for.

* `KeyValue.suffixSearch_spec`: the width found has more suffixes than there are transactions,
  unless it has more than words can count.
* `KeyValue.maxTransactions_le_capacity`: the bound of a connection is within the capacity.
* `KeyValue.client_eq_ok`: below that bound no call of the client fails.
* `KeyValue.length_payload`: all transactions have the configured size.
-/

namespace KeyValue

/-- The width that the search returns has a suffix for each transaction, as far as words count,
    and one symbol more. -/
theorem suffixSearch_spec {symbols count fuel length width : Nat}
    (h : suffixSearch symbols count fuel length (symbols ^ (length - 1)) = some width)
    (hlength : 0 < length) :
    ∃ w, width = w + 1 ∧ (Text.wordMax < symbols ^ w ∨ count < symbols ^ w) := by
  induction fuel generalizing length with
  | zero => simp [suffixSearch] at h
  | succ fuel ih =>
    have hpow : symbols ^ (length - 1) * symbols = symbols ^ length := by
      rw [← Nat.pow_add_one, Nat.sub_add_cancel hlength]
    simp only [suffixSearch, hpow] at h
    split at h
    · rename_i henough
      cases h
      exact ⟨length, rfl, henough⟩
    · exact ih (by simpa using h) (Nat.succ_pos length)

/-- A width that the factory uses for a configuration comes out of the search. -/
theorem suffixLengthFor_spec {cfg : Config} {width : Nat} (h : suffixLengthFor cfg = .ok width) :
    ∃ w, width = w + 1 ∧ (Text.wordMax < base ^ w ∨ cfg.maxTransactions < base ^ w) := by
  have hcount : (UInt64.ofNat cfg.maxTransactions).toNat = cfg.maxTransactions := by
    have hle := cfg.maxTransactions_le
    exact UInt64.toNat_ofNat_of_lt' (Nat.lt_of_le_of_lt hle (by decide))
  unfold suffixLengthFor suffixLength at h
  split at h
  · cases h
  · split at h
    · cases h
    · split at h
      · rename_i width' hsearch
        cases h
        rw [hcount] at hsearch
        exact suffixSearch_spec hsearch Nat.one_pos
      · cases h

/-- A configuration that allows no transaction has no width. -/
theorem maxTransactions_pos {cfg : Config} {width : Nat} (h : suffixLengthFor cfg = .ok width) :
    0 < cfg.maxTransactions := by
  apply Nat.pos_of_ne_zero
  intro hzero
  rw [suffixLengthFor, hzero] at h
  cases h

/-- **Room for every transaction.** What a connection may send is within the capacity of its
    generator. -/
theorem maxTransactions_le_capacity {cfg : Config} {width : Nat}
    (h : suffixLengthFor cfg = .ok width) (noise : Noise) :
    cfg.maxTransactions ≤ (generator cfg width noise).capacity := by
  obtain ⟨w, rfl, hroom⟩ := suffixLengthFor_spec h
  have hle := cfg.maxTransactions_le
  have hmore : base ^ w ≤ base ^ (w + 1) :=
    Nat.pow_le_pow_right (by decide) (Nat.le_succ w)
  show cfg.maxTransactions ≤ min (base ^ (w + 1)) Text.wordMax
  omega

/-- A configuration that the factory accepts has a width of suffixes that fits into its
    transactions, and the factory makes a generator of that width from any randomness. -/
theorem exists_width {cfg : Config} (h : check cfg = .ok ()) :
    ∃ width, suffixLengthFor cfg = .ok width ∧
      idLength + width + 1 + minValueLength ≤ cfg.size.toNat ∧
      factory.client cfg = fun noise => pure (generator cfg width noise).client := by
  cases hwidth : suffixLengthFor cfg with
  | error error => simp [check, leastSize, hwidth, Except.map, bind, Except.bind] at h
  | ok width =>
    refine ⟨width, rfl, ?_, ?_⟩
    · simp only [check, leastSize, hwidth, Except.map, bind, Except.bind] at h
      split at h
      · cases h
      · omega
    · funext noise
      simp only [factory, h, hwidth]
      rfl

/-- For a configuration that it accepts the factory makes clients, one for each supply of
    randomness. -/
theorem exists_clients {cfg : Config} (h : check cfg = .ok ()) (noises : List Noise) :
    ∃ clients, noises.mapM (factory.client cfg) = .ok clients := by
  obtain ⟨width, -, -, hmake⟩ := exists_width h
  rw [hmake, List.mapM_pure]
  exact ⟨_, rfl⟩

/-- A registry that knows the factory makes one client for each connection, from its randomness. -/
theorem newClients_eq {registry : Registry} {cfg : Config} {width : Nat}
    (hfactory : registry.lookup cfg.clientFactory = .ok factory) (h : check cfg = .ok ())
    (hmake : factory.client cfg = fun noise => pure (generator cfg width noise).client)
    (noise : Nat → Noise) :
    registry.newClients cfg noise = .ok ((List.range cfg.connections.toNat).map
      fun i => (generator cfg width (noise i)).client) := by
  have hcheck : factory.check cfg = .ok () := h
  simp only [Registry.newClients, hfactory, hcheck, hmake, List.mapM_pure, bind, Except.bind]
  rfl

/-- It makes none for a configuration that the factory refuses. -/
theorem check_of_newClients {registry : Registry} {cfg : Config} {noise : Nat → Noise}
    {clients : List Client} (hfactory : registry.lookup cfg.clientFactory = .ok factory)
    (h : registry.newClients cfg noise = .ok clients) : check cfg = .ok () := by
  have hcheck : factory.check cfg = check cfg := rfl
  simp only [Registry.newClients, hfactory, hcheck, bind, Except.bind] at h
  cases hc : check cfg with
  | error error => simp [hc] at h
  | ok u => rfl

/-- Clients that were made together are clients of the factory. -/
theorem exists_noise {cfg : Config} {noises : List Noise} {clients : List Client}
    (h : noises.mapM (factory.client cfg) = .ok clients) :
    ∀ client ∈ clients, ∃ noise, factory.client cfg noise = .ok client := by
  induction noises generalizing clients with
  | nil =>
    cases h
    simp
  | cons noise noises ih =>
    rw [List.mapM_cons] at h
    cases hclient : factory.client cfg noise with
    | error error => simp [hclient, bind, Except.bind] at h
    | ok first =>
      cases hrest : noises.mapM (factory.client cfg) with
      | error error => simp [hclient, hrest, bind, Except.bind] at h
      | ok rest =>
        simp only [hclient, hrest, bind, Except.bind, pure, Except.pure, Except.ok.injEq] at h
        subst h
        intro client hmem
        rcases List.mem_cons.mp hmem with rfl | hmem
        · exact ⟨noise, hclient⟩
        · exact ih hrest client hmem

/-- A client of the factory is a generator whose width suits the configuration. -/
theorem exists_generator {cfg : Config} {noise : Noise} {client : Client}
    (h : factory.client cfg noise = .ok client) :
    ∃ width, suffixLengthFor cfg = .ok width ∧ client = (generator cfg width noise).client := by
  simp only [factory] at h
  cases hcheck : check cfg with
  | error error => simp [hcheck, bind, Except.bind] at h
  | ok u =>
    cases hwidth : suffixLengthFor cfg with
    | error error => simp [hcheck, hwidth, bind, Except.bind] at h
    | ok width =>
      simp only [hcheck, hwidth, bind, Except.bind, pure, Except.pure, Except.ok.injEq] at h
      exact ⟨width, rfl, h.symm⟩

/-- No call of a client fails whose number is below the bound of the connection. -/
theorem client_eq_ok {cfg : Config} {noise : Noise} {client : Client}
    (h : factory.client cfg noise = .ok client) {n : Nat} (hn : n < cfg.maxTransactions) :
    ∃ payload, client n = .ok payload := by
  obtain ⟨width, hwidth, rfl⟩ := exists_generator h
  have hcapacity := maxTransactions_le_capacity hwidth noise
  refine ⟨_, if_pos ?_⟩
  omega

/-- The transactions of a generator whose width fits have the configured size. -/
theorem length_payload {cfg : Config} {width : Nat} {noise : Noise} {n : Nat} {payload : Payload}
    (hfits : idLength + width + 1 + minValueLength ≤ cfg.size.toNat)
    (h : (generator cfg width noise).client n = .ok payload) :
    payload.length = cfg.size.toNat := by
  unfold Generator.client at h
  split at h
  · cases h
    rw [Generator.bytes, List.length_map, Generator.length_transaction]
    show idLength + width + 1 + (cfg.size.toNat - idLength - width - 1) = cfg.size.toNat
    omega
  · cases h

end KeyValue

end TxLoad
