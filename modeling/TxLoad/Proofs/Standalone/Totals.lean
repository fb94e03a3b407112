import TxLoad.Proofs.Engine.Isolation
import TxLoad.Proofs.Engine.Unhindered
import TxLoad.Proofs.Stats.Keeping

namespace TxLoad

/-!
# The totals of a standalone run

A standalone run whose far sides accept everything at once has exact totals. Each connection makes
the transactions that are due before its time is over, as far as the configured count allows them,
and all connections start and stop at the same instants.

* `Config.dueCount`, `Config.idealCount`, `Config.idealMs`: the transactions that are due on a
  connection, those of them that it makes, and how long this takes.
* `Group.achieves_drive`: what each engine of the group comes to.
* `Summary.IsIdeal`: the summary of connections that all came to this, and
  `Group.isIdeal_of_achieves`: it is that of the group.
* `Standalone.exists_clients`, `Standalone.exists_pool`: nothing before the group fails.
* `Standalone.totals_run`: the whole run ends with this summary.
-/

/-! ### What a configuration promises -/

namespace Config

variable (cfg : Config)

/-- The transactions of a connection that are due before its time is over. -/
def dueCount : Nat := (1000 * cfg.time.toNat - 1) * cfg.rate.toNat / 1000 + 1

/-- The transactions of a connection that nothing hinders. -/
def idealCount : Nat :=
  match cfg.count with
  | some count => min count.toNat cfg.dueCount
  | none => cfg.dueCount

/-- How long such a connection takes, in milliseconds: until its last transaction is due, if it
    makes all that its count allows, and its whole time otherwise. -/
def idealMs : Nat :=
  match cfg.count with
  | some count =>
    if count.toNat ≤ cfg.dueCount then (1000 * (cfg.idealCount - 1)) ⌈/⌉ cfg.rate.toNat
    else 1000 * cfg.time.toNat
  | none => 1000 * cfg.time.toNat

end Config

/-! ### Summaries -/

namespace Summary

/-- The span of connections that all started and all finished at the same instant. -/
theorem span_of_forall {stats : List ConnectionStat} {started finished : Nat} (hne : stats ≠ [])
    (hstarted : ∀ s ∈ stats, s.started = some started)
    (hfinished : ∀ s ∈ stats, s.finished = some finished) :
    span stats = finished - started := by
  obtain ⟨s, hs⟩ := List.exists_mem_of_ne_nil stats hne
  have hearliest : earliest (stats.filterMap (·.started)) = some started := by
    rw [earliest, List.min?_eq_some_iff]
    refine ⟨List.mem_filterMap.mpr ⟨s, hs, hstarted s hs⟩, ?_⟩
    intro t ht
    obtain ⟨s', hs', ht⟩ := List.mem_filterMap.mp ht
    rw [hstarted s' hs', Option.some.injEq] at ht
    exact Nat.le_of_eq ht
  have hlatest : latest (stats.filterMap (·.finished)) = some finished := by
    rw [latest, List.max?_eq_some_iff]
    refine ⟨List.mem_filterMap.mpr ⟨s, hs, hfinished s hs⟩, ?_⟩
    intro t ht
    obtain ⟨s', hs', ht⟩ := List.mem_filterMap.mp ht
    rw [hfinished s' hs', Option.some.injEq] at ht
    exact Nat.le_of_eq ht.symm
  rw [span, hearliest, hlatest]

/-- The summary of counters that stand for true numbers. -/
theorem ofStats_eq {g : Group} (h : g.Counted) :
    ofStats g.stats = of (UInt64.ofNat g.tally.requests) (UInt64.ofNat g.tally.bytes)
      (span g.stats) := by
  have hreport : Report.ofStats g.stats true = g.tally.report true := Group.report_eq h true
  rw [ofStats, hreport]
  rfl

/-- The summary of a run whose far sides accept everything at once. -/
structure IsIdeal (cfg : Config) (s : Summary) : Prop where
  transactions : s.transactions.toNat = cfg.connections.toNat * cfg.idealCount
  bytes : s.bytes.toNat = s.transactions.toNat * cfg.size.toNat
  /-- The rates are those over the time that a connection takes. -/
  eq_of : s = of s.transactions s.bytes (Clock.nanos cfg.idealMs)

end Summary

namespace Group

variable {cfg : Config} {pool : Pool} {target : Nat → Endpoint → Target} {clients : List Client}
  {now : Nat}

/-! ### One connection -/

section

variable (cfg pool target now) (i : Nat) (client : Client)

@[simp] theorem rate_lone : (lone cfg pool target now i client).setup.rate = cfg.rate.toNat := rfl

@[simp] theorem limit_lone :
    (lone cfg pool target now i client).setup.limit = cfg.count.map UInt64.toNat := rfl

@[simp] theorem deadline_lone :
    (lone cfg pool target now i client).setup.deadline = now + 1000 * cfg.time.toNat := by
  rw [Nat.mul_comm]
  rfl

theorem dueWithin_lone : Pacer.dueWithin (lone cfg pool target now i client).setup.rate
    ((lone cfg pool target now i client).setup.deadline - now) = cfg.dueCount := by
  rw [deadline_lone, Nat.add_sub_cancel_left]
  rfl

theorem quota_lone :
    Schedule.quota (lone cfg pool target now i client).setup now = cfg.idealCount := by
  unfold Schedule.quota Config.idealCount
  rw [dueWithin_lone, limit_lone]
  cases cfg.count <;> rfl

theorem finishMs_lone (hrate : 0 < cfg.rate.toNat) :
    Schedule.finishMs (lone cfg pool target now i client).setup now = now + cfg.idealMs := by
  unfold Schedule.finishMs Config.idealMs
  rw [dueWithin_lone, quota_lone, limit_lone, rate_lone, deadline_lone, Pacer.dueMs_eq hrate]
  cases cfg.count with
  | none => rfl
  | some count =>
    by_cases hle : count.toNat ≤ cfg.dueCount
    · simp only [Option.map_some, if_pos hle]
    · simp only [Option.map_some, if_neg hle]

end

/-- Nothing hinders a connection of a configuration that is accepted, if its far side accepts
    everything at once. -/
theorem isOpen_lone (hvalid : cfg.IsValid) (hcheck : KeyValue.check cfg = .ok ()) {i : Nat}
    (hideal : target i (pool.select i) = .ideal) (client : Client) :
    Schedule.IsOpen (lone cfg pool target now i client).setup now where
  target := hideal
  rate_pos := hvalid.rate_pos
  deadline := by
    have htime := hvalid.time_pos
    rw [deadline_lone]
    omega
  limit := by
    obtain ⟨width, hwidth, -⟩ := KeyValue.exists_width hcheck
    have hpos := KeyValue.maxTransactions_pos hwidth
    unfold Config.maxTransactions at hpos
    rw [limit_lone]
    cases hcount : cfg.count with
    | none => simp
    | some count =>
      simp only [hcount] at hpos
      simp only [Option.map_some, ne_eq, Option.some.injEq]
      omega

/-- **What a connection comes to.** Each engine of a group achieves what its setup allows. -/
theorem achieves_drive (hvalid : cfg.IsValid) (hcheck : KeyValue.check cfg = .ok ())
    (hwords : cfg.rate.toNat * cfg.time.toNat < Text.wordMax)
    (hideal : ∀ i e, target i e = .ideal)
    (hclients : ∀ client ∈ clients, ∃ noise, KeyValue.factory.client cfg noise = .ok client)
    {e : Engine} (he : e ∈ (Standalone.drive (spawn cfg pool target clients now) none).engines) :
    ∃ i client, Engine.Achieves (lone cfg pool target now i client).setup now cfg.size.toNat e := by
  have hpaced := isPaced_spawn hvalid hwords pool target clients now
  rw [engines_drive hpaced (endsBy_spawn cfg pool target clients now), List.mem_map] at he
  obtain ⟨e, hmem, rfl⟩ := he
  have he := hpaced e hmem
  obtain ⟨⟨client, i⟩, hzip, rfl⟩ := List.mem_map.mp hmem
  obtain ⟨noise, hclient⟩ := hclients client (List.fst_mem_of_mem_zipIdx hzip)
  refine ⟨i, client, ?_⟩
  refine Engine.achieves_run (isOpen_lone hvalid hcheck (hideal _ _) client) he
    (keepsWithin_setup hvalid pool target now i hclient) ?_
  intro n hn
  obtain ⟨width, -, hfits, hmake⟩ := KeyValue.exists_width hcheck
  obtain ⟨payload, hpayload⟩ := KeyValue.client_eq_ok hclient hn
  rw [hmake] at hclient
  cases hclient
  exact ⟨payload, hpayload, KeyValue.length_payload hfits hpayload⟩

/-! ### All connections -/

theorem length_drive (pool : Pool) (target : Nat → Endpoint → Target) (clients : List Client)
    (now : Nat) (hvalid : cfg.IsValid)
    (hwords : cfg.rate.toNat * cfg.time.toNat < Text.wordMax) :
    (Standalone.drive (spawn cfg pool target clients now) none).engines.length =
      clients.length := by
  have hpaced := isPaced_spawn hvalid hwords pool target clients now
  rw [engines_drive hpaced (endsBy_spawn cfg pool target clients now), List.length_map,
    length_spawn]

/-- The numbers of a group whose engines have all done the same. -/
theorem tally_of_forall {g : Group} {count size : Nat}
    (h : ∀ e ∈ g.engines, e.tally.requests = count ∧ e.tally.bytes = count * size) :
    g.tally.requests = g.engines.length * count ∧
      g.tally.bytes = g.engines.length * count * size := by
  have hsum : ∀ (f : Engine → Nat) (n : Nat), (∀ e ∈ g.engines, f e = n) →
      (g.engines.map f).sum = g.engines.length * n := by
    intro f n hf
    have hall : ∀ k ∈ g.engines.map f, k = n := by
      intro k hk
      obtain ⟨e, he, rfl⟩ := List.mem_map.mp hk
      exact hf e he
    rw [List.sum_eq_card_nsmul _ _ hall, List.length_map, smul_eq_mul]
  rw [tally, Tally.requests_sum, Tally.bytes_sum, List.map_map, List.map_map, Nat.mul_assoc]
  exact ⟨hsum _ _ fun e he => (h e he).1, hsum _ _ fun e he => (h e he).2⟩

/-- The connections of a group that nothing has hindered start and stop together. -/
theorem span_of_achieves {g : Group} {size : Nat} (hvalid : cfg.IsValid)
    (hlength : g.engines.length = cfg.connections.toNat)
    (hachieves : ∀ e ∈ g.engines, ∃ i client,
      Engine.Achieves (lone cfg pool target now i client).setup now size e) :
    Summary.span g.stats = Clock.nanos cfg.idealMs := by
  choose i client h using hachieves
  have hstarted : ∀ s ∈ g.stats, s.started = some (Clock.nanos now) := by
    intro s hs
    obtain ⟨e, he, rfl⟩ := List.mem_map.mp hs
    exact (h e he).started
  have hfinished : ∀ s ∈ g.stats, s.finished = some (Clock.nanos (now + cfg.idealMs)) := by
    intro s hs
    obtain ⟨e, he, rfl⟩ := List.mem_map.mp hs
    rw [(h e he).finished, finishMs_lone]
    exact hvalid.rate_pos
  -- There is a connection, so that the summary has a span.
  have hne : g.stats ≠ [] := by
    apply List.ne_nil_of_length_pos
    rw [stats, List.length_map, hlength]
    exact hvalid.connections_pos
  rw [Summary.span_of_forall hne hstarted hfinished]
  unfold Clock.nanos
  omega

/-- **Sums.** The connections of a group that nothing has hindered add up. -/
theorem isIdeal_of_achieves {g : Group} (hvalid : cfg.IsValid)
    (hlength : g.engines.length = cfg.connections.toNat) (hsize : 0 < cfg.size.toNat)
    (hfits : cfg.connections.toNat * cfg.idealCount * cfg.size.toNat < 2 ^ 64)
    (hachieves : ∀ e ∈ g.engines, ∃ i client,
      Engine.Achieves (lone cfg pool target now i client).setup now cfg.size.toNat e) :
    (Summary.ofStats g.stats).IsIdeal cfg := by
  have hspan := span_of_achieves hvalid hlength hachieves
  choose i client h using hachieves
  have hcounted : g.Counted := fun e he => (h e he).counted
  have heach : ∀ e ∈ g.engines, e.tally.requests = cfg.idealCount ∧
      e.tally.bytes = cfg.idealCount * cfg.size.toNat := by
    intro e he
    rw [(h e he).requests, (h e he).bytes, quota_lone]
    exact ⟨rfl, rfl⟩
  obtain ⟨hrequests, hbytes⟩ := tally_of_forall heach
  have hcount : cfg.connections.toNat * cfg.idealCount < 2 ^ 64 :=
    Nat.lt_of_le_of_lt (Nat.le_mul_of_pos_right _ hsize) hfits
  rw [Summary.ofStats_eq hcounted, hspan, hrequests, hbytes, hlength]
  constructor
  · rw [Summary.transactions_of, UInt64.toNat_ofNat_of_lt' hcount]
  · rw [Summary.transactions_of, Summary.bytes_of, UInt64.toNat_ofNat_of_lt' hcount,
      UInt64.toNat_ofNat_of_lt' hfits]
  · rw [Summary.transactions_of, Summary.bytes_of]

end Group

namespace Standalone

/-! ### Before the group -/

variable {cfg : Config}

/-- A registry with the factory of the configuration makes one client for each connection. -/
theorem exists_clients {registry : Registry}
    (hfactory : registry.lookup cfg.clientFactory = .ok KeyValue.factory)
    (hcheck : KeyValue.check cfg = .ok ()) (noise : Nat → Noise) :
    ∃ clients, registry.newClients cfg noise = .ok clients ∧
      clients.length = cfg.connections.toNat ∧
      ∀ client ∈ clients, ∃ noise, KeyValue.factory.client cfg noise = .ok client := by
  obtain ⟨width, -, -, hmake⟩ := KeyValue.exists_width hcheck
  refine ⟨_, KeyValue.newClients_eq hfactory hcheck hmake noise, by simp, ?_⟩
  intro client hclient
  obtain ⟨i, -, rfl⟩ := List.mem_map.mp hclient
  exact ⟨noise i, by rw [hmake]; rfl⟩

/-- Texts that can all be read are read together, one endpoint for each. -/
theorem exists_parsed {texts : List String} (h : ∀ text ∈ texts, ∃ e, Endpoint.parse text = .ok e) :
    ∃ es, texts.mapM Endpoint.parse = .ok es ∧ es.length = texts.length := by
  induction texts with
  | nil => exact ⟨[], rfl, rfl⟩
  | cons text texts ih =>
    obtain ⟨e, he⟩ := h text List.mem_cons_self
    obtain ⟨es, hes, hlength⟩ := ih fun text htext => h text (List.mem_cons_of_mem _ htext)
    refine ⟨e :: es, ?_, by simp [hlength]⟩
    simp [List.mapM_cons, he, hes, bind, Except.bind, pure, Except.pure]

/-- Endpoints that are supplied are known at once. -/
theorem exists_pool (hvalid : cfg.IsValid) (hmethod : cfg.selectMethod = .supplied)
    (hendpoints : ∀ text ∈ cfg.endpoints, ∃ e, Endpoint.parse text = .ok e) (network : Network) :
    ∃ pool, Discovery.resolve network cfg 0 = ⟨.ok pool, 0, []⟩ := by
  obtain ⟨es, hes, hlength⟩ := exists_parsed hendpoints
  have hsome : 0 < es.length := by
    rw [hlength]
    exact List.length_pos_iff.mpr hvalid.endpoints_ne_nil
  -- A bound of zero on the endpoints stands for none, any other one leaves an endpoint.
  have hcapped : 0 < (Discovery.capped cfg es).length := by
    unfold Discovery.capped
    split
    · exact hsome
    · rename_i hmax
      have hpos : cfg.maxEndpoints.toNat ≠ 0 := by
        rw [← UInt64.toNat_inj] at hmax
        exact hmax
      rw [List.length_take]
      omega
  have hexpected : Discovery.expected cfg = 1 := by rw [Discovery.expected, hmethod]
  have hne : Discovery.capped cfg es ≠ [] := List.length_pos_iff.mp hcapped
  have hpool : Discovery.poolOf cfg es = .ok ⟨Discovery.capped cfg es, hne⟩ := by
    simp only [Discovery.poolOf, hexpected, if_neg (Nat.not_lt.mpr hcapped), Pool.ofList,
      dif_neg hne]
    rfl
  refine ⟨⟨Discovery.capped cfg es, hne⟩, ?_⟩
  simp only [Discovery.resolve, hes, hmethod, hpool]

/-! ### The whole run -/

/-- **Totals.** Let a configuration be accepted, with the built-in factory and supplied endpoints
    that can be read, let its transactions and their bytes be countable, and let every far side
    accept everything at once. Then the run, left alone, ends with the summary in which each
    connection has made the transactions that are due before its time is over, as far as the count
    allows them; and only a file that cannot be written keeps this summary from being the result.
    Its time is the span that the connections took. -/
theorem totals_run (world : Surroundings) (storage : Storage) (registry : Registry) (cfg : Config)
    (hvalid : cfg.check = .ok ())
    (hfactory : registry.lookup cfg.clientFactory = .ok KeyValue.factory)
    (hcheck : KeyValue.check cfg = .ok ()) (hmethod : cfg.selectMethod = .supplied)
    (hendpoints : ∀ text ∈ cfg.endpoints, ∃ e, Endpoint.parse text = .ok e)
    (hwords : cfg.rate.toNat * cfg.time.toNat < Text.wordMax)
    (hfits : cfg.connections.toNat * cfg.idealCount * cfg.size.toNat < 2 ^ 64)
    (hideal : ∀ i e, world.target i e = .ideal) :
    ∃ s : Summary, s.IsIdeal cfg ∧
      storage.Keeps cfg s (run world storage registry cfg none).result
        (run world storage registry cfg none).file.toList ∧
      ((∀ path, cfg.statsOutput = some path → storage path = .ok ()) →
        (run world storage registry cfg none).result = .ok s) ∧
      Summary.span (run world storage registry cfg none).group.stats =
        Clock.nanos cfg.idealMs := by
  have hv := Config.check_eq_ok_iff.mp hvalid
  obtain ⟨clients, hclients, hlength, hmade⟩ := exists_clients hfactory hcheck world.noise
  obtain ⟨pool, hpool⟩ := exists_pool hv hmethod hendpoints world.network
  obtain ⟨width, -, hroom, -⟩ := KeyValue.exists_width hcheck
  have hachieves := fun e => @Group.achieves_drive cfg pool world.target clients 0 hv hcheck hwords
    hideal hmade e
  have hall := (Group.length_drive pool world.target clients 0 hv hwords).trans hlength
  generalize hg : drive (Group.spawn cfg pool world.target clients 0) none = g at hachieves hall
  have hspan := Group.span_of_achieves hv hall hachieves
  have hsummary := Group.isIdeal_of_achieves hv hall (Nat.zero_lt_of_lt hroom) hfits hachieves
  have hrun : run world storage registry cfg none =
      { result := (storage.conclude cfg (Summary.ofStats g.stats)).1
        group := g
        file := (storage.conclude cfg (Summary.ofStats g.stats)).2 } := by
    simp only [run, hvalid, Except.bind, hclients, hpool, ite_self, hg]
  have hkeeps := storage.keeps_conclude cfg (Summary.ofStats g.stats)
  rw [hrun]
  exact ⟨_, hsummary, hkeeps, hkeeps.eq_ok, hspan⟩

/-- A configuration of two connections whose count is just that of the transactions that are due. -/
def justEnough : Config :=
  { Group.twoRequests with
    connections := 2, rate := 3, count := some 3, statsOutput := some "stats.csv" }

/-- The last transaction is due 667 ms after the first one, before the second is over. -/
theorem totals_run_justEnough :
    ∃ s : Summary, s.transactions.toNat = 6 ∧ s.bytes.toNat = 240 ∧
      s = Summary.of s.transactions s.bytes (Clock.nanos 667) ∧
      (run ⟨Discovery.silent, fun _ _ => .ideal, fun _ _ => 0⟩ .unlimited .builtin justEnough
        none).result = .ok s := by
  have hendpoints : ∀ text ∈ justEnough.endpoints, ∃ e, Endpoint.parse text = .ok e := by
    intro text htext
    obtain rfl : text = "localhost" := List.mem_singleton.mp htext
    exact ⟨⟨"localhost", 26657⟩, by decide +kernel⟩
  obtain ⟨s, hs, -, hresult, -⟩ := totals_run ⟨Discovery.silent, fun _ _ => .ideal, fun _ _ => 0⟩
    .unlimited .builtin justEnough (by decide) rfl (by decide) rfl hendpoints (by decide)
    (by decide) fun _ _ => rfl
  have hcount : justEnough.idealCount = 3 := by decide
  have hms : justEnough.idealMs = 667 := by decide
  have htransactions : s.transactions.toNat = 6 := by
    rw [hs.transactions, hcount]
    rfl
  refine ⟨s, htransactions, ?_, ?_, hresult fun _ _ => rfl⟩
  · rw [hs.bytes, htransactions]
    rfl
  · rw [← hms]
    exact hs.eq_of

end Standalone

end TxLoad
