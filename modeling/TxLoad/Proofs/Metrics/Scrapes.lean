import TxLoad.Metrics
import TxLoad.Proofs.Stats.Keeping
import TxLoad.Proofs.Stats.Sums

namespace TxLoad

/-!
# Scrapes of a run

The totals of a run pass through three records on their way to a reader: the entries of the workers,
the live counters of the collector, and the counters of the metrics, which take a reading with each
scrape.

* `Metrics.counters_foldl_update`: whatever the readings are, a counter is the greatest of them.
* `Monitor` is a collector together with the metrics that watch it, `Monitor.step` what an event
  makes of the two.
* `Monitor.Inv`: the three records agree as long as the sums are words. Every event keeps it
  (`Monitor.Inv.step`), and so does every history (`Monitor.Inv.run`).
* `Monitor.tracks_run`: the scrapes of a history follow the totals.
* `Monitor.untracked_of_overflow`: they cannot once the totals overflow.
-/

/-! ### Readings -/

namespace Metrics

/-- The counters. -/
def counters (m : Metrics) : Totals := ⟨m.requests, m.bytes⟩

/-- The metrics of a run that show the given totals. -/
def showing (run : String) (t : Totals) : Metrics := ⟨run, t.requests, t.bytes⟩

@[simp] theorem counters_showing (run : String) (t : Totals) : (showing run t).counters = t := rfl

theorem advance_eq_max (counter reading : UInt64) :
    advance counter reading = max counter reading := by
  apply UInt64.toNat_inj.mp
  rw [toNat_advance, UInt64.toNat_max]

/-- A reading does not move the counters back. -/
theorem counters_le_update (m : Metrics) (t : Totals) : m.counters ≤ (m.update t).counters := by
  constructor
  · show m.requests ≤ (m.update t).requests
    rw [UInt64.le_iff_toNat_le, requests_update]
    exact Nat.le_max_left ..
  · show m.bytes ≤ (m.update t).bytes
    rw [UInt64.le_iff_toNat_le, bytes_update]
    exact Nat.le_max_left ..

/-- A reading that is nowhere behind the counters is what they show next. -/
theorem update_of_le {m : Metrics} {t : Totals} (h : m.counters ≤ t) :
    m.update t = showing m.run t := by
  have hrequests : m.requests.toNat ≤ t.requests.toNat := UInt64.le_iff_toNat_le.mp h.1
  have hbytes : m.bytes.toNat ≤ t.bytes.toNat := UInt64.le_iff_toNat_le.mp h.2
  have h₁ : (m.update t).requests = t.requests :=
    UInt64.toNat_inj.mp (by rw [requests_update]; omega)
  have h₂ : (m.update t).bytes = t.bytes := UInt64.toNat_inj.mp (by rw [bytes_update]; omega)
  calc m.update t = ⟨m.run, (m.update t).requests, (m.update t).bytes⟩ := rfl
    _ = showing m.run t := by rw [h₁, h₂, showing]

/-- **Running maximum.** After any readings, in whatever order, each counter is the greatest of them
    and of what it showed before. -/
theorem counters_foldl_update (readings : List Totals) (m : Metrics) :
    (readings.foldl update m).counters =
      ⟨(readings.map (·.requests)).foldl max m.requests,
        (readings.map (·.bytes)).foldl max m.bytes⟩ := by
  induction readings generalizing m with
  | nil => rfl
  | cons t readings ih =>
    have h₁ : (m.update t).requests = max m.requests t.requests := advance_eq_max ..
    have h₂ : (m.update t).bytes = max m.bytes t.bytes := advance_eq_max ..
    rw [List.foldl_cons, ih, h₁, h₂]
    rfl

theorem pathOf_path : pathOf path = path := by decide

/-- What a scrape is answered: the text of the counters after a reading. -/
theorem respond_get (m : Metrics) (t : Totals) :
    m.respond t "GET" path = (m.update t, ⟨200, some contentType, (m.update t).text⟩) := by
  unfold respond
  rw [if_neg (fun h => h pathOf_path), if_pos rfl]

end Metrics

/-! ### Histories -/

/-- What happens to a collector and to those who watch it. -/
inductive MonitorEvent where
  | register (id : Nat)
  | merge (id : Nat) (report : Report) (now : Nat)
  | fail (id : Nat)
  | lose (id : Nat)
  /-- The counters are asked for. -/
  | scrape

/-- The worker that an event registers. -/
def MonitorEvent.registers? : MonitorEvent → Option Nat
  | register id => some id
  | _ => none

/-- What a scrape got: the counters, and the answer in which they were. -/
structure Scrape where
  counters : Totals
  answer : Metrics.Response
  deriving DecidableEq

/-- A scrape that shows the given totals, in the text that says so. -/
def Scrape.showing (run : String) (t : Totals) : Scrape :=
  ⟨t, 200, some Metrics.contentType, (Metrics.showing run t).text⟩

/-- A collector, the metrics that watch it, and what there was so far of reports that were accepted
    and of scrapes, each in order. -/
structure Monitor where
  collector : Collector := {}
  metrics : Metrics
  accepted : List (Nat × Report) := []
  scrapes : List Scrape := []

namespace Monitor

/-- Nobody is registered and nothing was asked for. -/
def start (name : String) : Monitor := { metrics := { run := name } }

/-- A scrape of the present state. -/
def scrape (m : Monitor) : Monitor :=
  let (metrics, answer) := m.metrics.respond m.collector.live "GET" Metrics.path
  { m with metrics, scrapes := m.scrapes ++ [⟨metrics.counters, answer⟩] }

def step (m : Monitor) : MonitorEvent → Monitor
  | .register id => { m with collector := m.collector.register id }
  | .merge id report now =>
    match m.collector.merge id report now with
    | .ok (collector, _) => { m with collector, accepted := m.accepted ++ [(id, report)] }
    | .error _ => m
  | .fail id => { m with collector := m.collector.fail id }
  | .lose id => { m with collector := m.collector.lose id }
  | .scrape => m.scrape

def run (m : Monitor) (es : List MonitorEvent) : Monitor := es.foldl step m

/-- The workers that a history registers, in order. -/
def registrations (es : List MonitorEvent) : List Nat := es.filterMap MonitorEvent.registers?

variable {m : Monitor} {name : String} {es : List MonitorEvent}

theorem run_append (m : Monitor) (es es' : List MonitorEvent) :
    m.run (es ++ es') = (m.run es).run es' :=
  List.foldl_append

/-- What an event can do. -/
inductive Reacts (m : Monitor) : MonitorEvent → Monitor → Prop
  | register (id : Nat) :
    m.Reacts (.register id) { m with collector := m.collector.register id }
  | accept (id : Nat) (r : Report) (now : Nat) (haccepted : m.collector.refusal? id r = none) :
    m.Reacts (.merge id r now)
      { m with
        collector := m.collector.accept id r now
        accepted := m.accepted ++ [(id, r)] }
  | refuse (id : Nat) (r : Report) (now : Nat) : m.Reacts (.merge id r now) m
  /-- A worker is given up. -/
  | mark {e : MonitorEvent} {id : Nat} (he : e = .fail id ∨ e = .lose id) (s : WorkerStatus)
    (admits : WorkerStatus → Bool) :
    m.Reacts e { m with collector := m.collector.mark id s admits }
  | scrape :
    m.Reacts .scrape
      { m with
        metrics := m.metrics.update m.collector.live
        scrapes := m.scrapes ++
          [.showing m.metrics.run (m.metrics.update m.collector.live).counters] }

theorem reacts_step (m : Monitor) (e : MonitorEvent) : m.Reacts e (m.step e) := by
  cases e with
  | register id => exact .register id
  | merge id r now =>
    cases h : m.collector.refusal? id r with
    | none =>
      have hstep : m.step (.merge id r now) =
          { m with
            collector := m.collector.accept id r now
            accepted := m.accepted ++ [(id, r)] } := by
        simp only [step, Collector.merge, h]
      exact hstep ▸ .accept id r now h
    | some err =>
      have hstep : m.step (.merge id r now) = m := by simp only [step, Collector.merge, h]
      exact hstep.symm ▸ .refuse id r now
  | fail id => exact .mark (.inl rfl) .failed _
  | lose id => exact .mark (.inr rfl) .lost _
  | scrape =>
    have hstep : m.step .scrape = m.scrape := rfl
    rw [hstep, scrape, Metrics.respond_get]
    exact .scrape

/-! ### Sums along a history -/

/-- Every id is registered at most once, counting those that are still to come. -/
def IsFresh (m : Monitor) (es : List MonitorEvent) : Prop :=
  (m.collector.ids ++ registrations es).Nodup

theorem IsFresh.nodup (h : m.IsFresh es) : m.collector.ids.Nodup := (List.nodup_append.mp h).1

theorem IsFresh.not_mem {id : Nat} (h : m.IsFresh (.register id :: es)) :
    id ∉ m.collector.ids := by
  have hdisjoint := (List.nodup_append.mp h).2.2
  intro hmem
  exact hdisjoint id hmem id List.mem_cons_self rfl

theorem IsFresh.step {e : MonitorEvent} (h : m.IsFresh (e :: es)) : (m.step e).IsFresh es := by
  -- What an event registers moves from the future into the collector.
  have same : ∀ m' : Monitor, e.registers? = none → m'.collector.ids = m.collector.ids →
      m'.IsFresh es := by
    intro m' he hids
    rw [IsFresh, registrations, List.filterMap_cons_none he] at h
    rwa [IsFresh, hids]
  have hreacts := m.reacts_step e
  generalize m.step e = m' at hreacts ⊢
  cases hreacts with
  | register id =>
    have hperm := (Collector.perm_ids_register h.not_mem).symm.append_right (registrations es)
    exact (List.perm_middle.trans hperm).nodup h
  | accept id r now _ => exact same _ rfl (Collector.ids_accept ..)
  | refuse => exact same _ rfl rfl
  | mark he s admits => exact same _ (by rcases he with rfl | rfl <;> rfl) (Collector.ids_mark ..)
  | scrape => exact same _ rfl rfl

/-- What an event makes of the collector. -/
theorem advances_step {e : MonitorEvent} (h : m.IsFresh (e :: es)) :
    m.collector.Advances (m.step e).collector := by
  have hreacts := m.reacts_step e
  generalize m.step e = m' at hreacts ⊢
  cases hreacts with
  | register id => exact .idle (.of_new h.not_mem)
  | accept id r now haccepted => exact .accept haccepted now
  | mark _ s admits => exact .idle (.mark ..)
  | refuse | scrape => exact .idle .same

theorem IsFresh.run {future : List MonitorEvent} (h : m.IsFresh (es ++ future)) :
    (m.run es).IsFresh future := by
  induction es generalizing m with
  | nil => exact h
  | cons e es ih => exact ih h.step

/-- Sums that are words in the end were words before. -/
theorem fits_of_run (h : m.IsFresh es) (hfits : (m.run es).collector.Fits) :
    m.collector.Fits := by
  induction es generalizing m with
  | nil => exact hfits
  | cons e es ih => exact (advances_step h).fits h.nodup (ih h.step hfits)

/-! ### The order of scrapes -/

/-- Nothing that was shown is ahead of the counters of the metrics, or of what was shown later. -/
structure IsOrdered (m : Monitor) : Prop where
  reached : ∀ s ∈ m.scrapes, s.counters ≤ m.metrics.counters
  ordered : m.scrapes.Pairwise fun s s' => s.counters ≤ s'.counters

theorem IsOrdered.step (h : m.IsOrdered) (e : MonitorEvent) : (m.step e).IsOrdered := by
  have hreacts := m.reacts_step e
  generalize m.step e = m' at hreacts ⊢
  cases hreacts with
  | scrape =>
    have hle := m.metrics.counters_le_update m.collector.live
    constructor
    · intro s hs
      rcases List.mem_append.mp hs with hs | hs
      · exact Totals.le_trans (h.reached s hs) hle
      · obtain rfl := List.mem_singleton.mp hs
        exact Totals.le_refl _
    · refine List.pairwise_append.mpr ⟨h.ordered, List.pairwise_singleton .., ?_⟩
      intro s hs s' hs'
      obtain rfl := List.mem_singleton.mp hs'
      exact Totals.le_trans (h.reached s hs) hle
  | register | accept | refuse | mark => exact ⟨h.reached, h.ordered⟩

theorem isOrdered_run (name : String) (es : List MonitorEvent) :
    ((start name).run es).IsOrdered := by
  refine List.foldlRecOn (motive := IsOrdered) es Monitor.step ⟨by simp [start], .nil⟩ ?_
  intro m hm e _
  exact hm.step e

theorem name_step (m : Monitor) (e : MonitorEvent) : (m.step e).metrics.run = m.metrics.run := by
  have hreacts := m.reacts_step e
  generalize m.step e = m' at hreacts ⊢
  cases hreacts <;> rfl

/-- The run keeps its name. -/
theorem name_run (m : Monitor) (es : List MonitorEvent) :
    (m.run es).metrics.run = m.metrics.run := by
  induction es generalizing m with
  | nil => rfl
  | cons e es ih => exact (ih (m.step e)).trans (name_step m e)

/-! ### The three records -/

/-- The three records agree: the live counters are the totals, and the counters of the metrics are
    nowhere ahead of them. -/
structure Inv (m : Monitor) : Prop where
  published : m.collector.IsPublished
  behind : m.metrics.counters ≤ m.collector.totals

/-- **Step.** The records go on to agree as long as the sums are words. -/
theorem Inv.step {e : MonitorEvent} (h : m.Inv) (hfresh : m.IsFresh (e :: es))
    (hfits : (m.step e).collector.Fits) : (m.step e).Inv := by
  have hadvances := advances_step hfresh
  refine ⟨hadvances.isPublished hfresh.nodup h.published, ?_⟩
  have htotals := hadvances.totals_le hfresh.nodup hfits
  have hreacts := m.reacts_step e
  generalize m.step e = m' at hreacts htotals ⊢
  cases hreacts with
  | scrape =>
    -- The counters catch up with the totals: this is the only event that moves them.
    show (m.metrics.update m.collector.live).counters ≤ m.collector.totals
    rw [h.published, Metrics.update_of_le h.behind]
    exact Totals.le_refl _
  | register | accept | refuse | mark => exact Totals.le_trans h.behind htotals

theorem Inv.run (h : m.Inv) (hfresh : m.IsFresh es) (hfits : (m.run es).collector.Fits) :
    (m.run es).Inv := by
  induction es generalizing m with
  | nil => exact h
  | cons e es ih => exact ih (h.step hfresh (fits_of_run hfresh.step hfits)) hfresh.step hfits

theorem inv_start (name : String) : (start name).Inv := ⟨rfl, Totals.le_refl _⟩

/-- A scrape shows the totals of its moment. -/
theorem Inv.scrapes_step (h : m.Inv) :
    (m.step .scrape).scrapes =
      m.scrapes ++ [.showing m.metrics.run m.collector.totals] := by
  have hreacts := m.reacts_step .scrape
  generalize m.step .scrape = m' at hreacts ⊢
  cases hreacts with
  | scrape => rw [h.published, Metrics.update_of_le h.behind, Metrics.counters_showing]
  | mark he => rcases he with he | he <;> cases he

/-! ### The last accepted report -/

theorem accepted_prefix_step (m : Monitor) (e : MonitorEvent) :
    m.accepted <+: (m.step e).accepted := by
  have hreacts := m.reacts_step e
  generalize m.step e = m' at hreacts ⊢
  cases hreacts with
  | accept => exact List.prefix_append ..
  | register | refuse | mark | scrape => exact List.prefix_rfl

theorem accepted_prefix_run (m : Monitor) (es : List MonitorEvent) :
    m.accepted <+: (m.run es).accepted := by
  induction es generalizing m with
  | nil => exact List.prefix_rfl
  | cons e es ih => exact (accepted_prefix_step m e).trans (ih _)

/-- What accepts no report does not change the totals. -/
theorem totals_step {e : MonitorEvent} (hfresh : m.IsFresh (e :: es))
    (h : (m.step e).accepted = m.accepted) :
    (m.step e).collector.totals = m.collector.totals := by
  have hidles : m.collector.Idles (m.step e).collector := by
    have hreacts := m.reacts_step e
    generalize m.step e = m' at hreacts h ⊢
    cases hreacts with
    | register id => exact .of_new hfresh.not_mem
    | accept => exact absurd h (by simp)
    | mark _ s admits => exact .mark ..
    | refuse | scrape => exact .same
  exact hidles.totals_eq hfresh.nodup

theorem totals_eq_of_accepted (hfresh : m.IsFresh es) (h : (m.run es).accepted = m.accepted) :
    (m.run es).collector.totals = m.collector.totals := by
  induction es generalizing m with
  | nil => rfl
  | cons e es ih =>
    have h' : (m.run (e :: es)).accepted = m.accepted := h
    have hstep : (m.step e).accepted = m.accepted := by
      have hlater : (m.step e).accepted <+: m.accepted := h' ▸ accepted_prefix_run (m.step e) es
      exact (hlater.eq_of_length_le (accepted_prefix_step m e).length_le)
    exact (ih hfresh.step (h'.trans hstep.symm)).trans (totals_step hfresh hstep)

end Monitor

/-! ### Tracking -/

/-- The totals in a summary. -/
def Summary.totals (s : Summary) : Totals := ⟨s.transactions, s.bytes⟩

@[simp] theorem Collector.totals_finalize (c : Collector) (now : Nat) :
    (c.finalize now).totals = c.totals := by
  simp [Summary.totals, Collector.finalize]

namespace Monitor

/-- The scrapes of a history follow the totals of its collector. Sums that are no words overflow the
    totals; what compares a scrape with totals is said of the history before that. -/
structure Tracks (name : String) (es : List MonitorEvent) : Prop where
  /-- No scrape falls behind an earlier one, whatever becomes of the sums. -/
  ordered : ((start name).run es).scrapes.Pairwise fun s s' => s.counters ≤ s'.counters
  /-- A scrape shows the totals of its moment. -/
  exact : ∀ past future, es = past ++ .scrape :: future →
    ((start name).run past).collector.Fits →
    ((start name).run (past ++ [.scrape])).scrapes =
      ((start name).run past).scrapes ++ [.showing name ((start name).run past).collector.totals]
  /-- No scrape is ahead of the summary that is made in the end. -/
  bounded : ((start name).run es).collector.Fits → ∀ s ∈ ((start name).run es).scrapes, ∀ now,
    s.counters ≤ (((start name).run es).collector.finalize now).totals
  /-- A scrape behind the last report that was accepted shows what is in that summary. -/
  final : ∀ past future, es = past ++ .scrape :: future →
    ((start name).run past).collector.Fits →
    ((start name).run past).accepted = ((start name).run es).accepted → ∀ now,
    ((start name).run (past ++ [.scrape])).scrapes =
      ((start name).run past).scrapes ++
        [.showing name (((start name).run es).collector.finalize now).totals]

/-- **Tracking.** Whatever happens to a collector with which each worker is registered once, and
    however it is scraped meanwhile: no scrape falls behind another, and as long as the sums of the
    reports are words, every scrape shows the totals of its moment, none is ahead of the summary,
    and a scrape behind the last accepted report shows the totals of the summary. Counters that take
    any other readings show the greatest so far. -/
theorem tracks_run (name : String) (es : List MonitorEvent) (honce : (registrations es).Nodup) :
    Tracks name es ∧ ∀ readings : List Totals,
      (readings.foldl Metrics.update { run := name }).counters =
        ⟨(readings.map (·.requests)).foldl max 0, (readings.map (·.bytes)).foldl max 0⟩ := by
  have hfresh : (start name).IsFresh es := honce
  have hinv : ∀ past future, es = past ++ future → ((start name).run past).collector.Fits →
      ((start name).run past).Inv := by
    rintro past future rfl hfits
    have hpast : (start name).IsFresh past :=
      List.Nodup.sublist ((List.sublist_append_left past future).filterMap _) hfresh
    exact (inv_start name).run hpast hfits
  have hexact : ∀ past future, es = past ++ .scrape :: future →
      ((start name).run past).collector.Fits →
      ((start name).run (past ++ [.scrape])).scrapes = ((start name).run past).scrapes ++
        [.showing name ((start name).run past).collector.totals] := by
    intro past future hes hfits
    have hname : ((start name).run past).metrics.run = name := name_run (start name) past
    rw [run_append]
    refine (hinv past _ hes hfits).scrapes_step.trans ?_
    rw [hname]
  refine ⟨⟨(isOrdered_run name es).ordered, hexact, ?_, ?_⟩, ?_⟩
  · intro hfits s hs now
    rw [Collector.totals_finalize]
    exact Totals.le_trans ((isOrdered_run name es).reached s hs)
      (hinv es [] es.append_nil.symm hfits).behind
  · rintro past future rfl hfits haccepted now
    have hfuture : ((start name).run past).IsFresh (.scrape :: future) := hfresh.run
    rw [run_append] at haccepted
    rw [hexact past future rfl hfits, Collector.totals_finalize, run_append,
      totals_eq_of_accepted hfuture haccepted.symm]
  · intro readings
    exact Metrics.counters_foldl_update readings { run := name }

/-- Two workers, one of which falls behind itself and is given up, the other of which is lost. -/
def troubled : List MonitorEvent :=
  [.scrape, .register 0, .register 1, .merge 0 { requests := 5, bytes := 500 } 10, .scrape,
   .merge 1 { requests := 7, bytes := 700 } 20, .merge 0 { requests := 4, bytes := 600 } 30,
   .fail 0, .scrape, .merge 1 { requests := 9, bytes := 900 } 40, .lose 1,
   .merge 1 { requests := 10, bytes := 950 } 50, .scrape]

/-- Neither the report that falls behind nor the one that comes after the loss is shown. -/
theorem tracks_run_troubled :
    (registrations troubled).Nodup ∧ ((start "night").run troubled).collector.Fits ∧
      Tracks "night" troubled ∧
      ((start "night").run troubled).scrapes.map (·.counters) =
        [⟨0, 0⟩, ⟨5, 500⟩, ⟨12, 1200⟩, ⟨14, 1400⟩] := by
  have honce : (registrations troubled).Nodup := by decide
  have hfits : ((start "night").run troubled).collector.Fits := by decide
  exact ⟨honce, hfits, (tracks_run "night" troubled honce).1, by decide⟩

/-- The report of a worker that has sent half as many requests as there are words. -/
def halfOfWords (completed : Bool) : Report := { requests := 9223372036854775808, completed }

/-- Two such workers. -/
def overflowing : List MonitorEvent :=
  [.register 0, .register 1, .merge 0 (halfOfWords false) 10, .scrape,
   .merge 1 (halfOfWords true) 20, .scrape]

/-- Both reports are accepted, and the totals overflow to zero. The scrapes cannot follow: the last
    one, behind the last accepted report, shows neither the totals of its moment nor those of the
    summary, but is ahead of both. -/
theorem untracked_of_overflow :
    let m := (start "night").run overflowing
    (registrations overflowing).Nodup ∧
      m.accepted = [(0, halfOfWords false), (1, halfOfWords true)] ∧
      m.scrapes.map (·.counters) = [⟨9223372036854775808, 0⟩, ⟨9223372036854775808, 0⟩] ∧
      m.collector.totals = ⟨0, 0⟩ ∧ ∀ now, (m.collector.finalize now).totals = ⟨0, 0⟩ := by
  intro m
  have htotals : m.collector.totals = ⟨0, 0⟩ := by decide
  refine ⟨by decide, by decide, by decide, htotals, fun now => ?_⟩
  rw [Collector.totals_finalize, htotals]

end Monitor

end TxLoad
