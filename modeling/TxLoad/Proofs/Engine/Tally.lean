import TxLoad.Engine.Group
import TxLoad.Proofs.Stats.Entries
import Mathlib.Algebra.GroupWithZero.Nat
import Mathlib.Tactic.Common

namespace TxLoad

/-!
# What engines count

The counters of a connection are 64-bit words. They stand for true numbers, which are reckoned from
the sends that the engine has made and which never decrease.

* `Tally` holds true numbers, `Tally.report` is the report that stands for them.
* `Engine.Counted`: the counters of an engine stand for its tally; every step keeps this.
* `Engine.tally_le_step`: no step of an engine decreases its tally.
* `Group.report_eq`: the report of a group stands for the sum of the tallies.
* `Report.le_of_tally_le`: reports of growing tallies grow, as long as the numbers fit.
* `Report.toNat_ofStats`: the counters of a report are sums.
-/

/-- True numbers of accepted requests, of bytes sent and of errors. -/
structure Tally where
  requests : Nat := 0
  bytes : Nat := 0
  errors : Nat := 0
  deriving DecidableEq, Repr

namespace Tally

/-- One tally is at most another one in all numbers. -/
def Le (a b : Tally) : Prop :=
  a.requests ≤ b.requests ∧ a.bytes ≤ b.bytes ∧ a.errors ≤ b.errors

instance : LE Tally := ⟨Le⟩

theorem le_refl (a : Tally) : a ≤ a := ⟨Nat.le_refl _, Nat.le_refl _, Nat.le_refl _⟩

theorem le_trans {a b c : Tally} (h₁ : a ≤ b) (h₂ : b ≤ c) : a ≤ c :=
  ⟨Nat.le_trans h₁.1 h₂.1, Nat.le_trans h₁.2.1 h₂.2.1, Nat.le_trans h₁.2.2 h₂.2.2⟩

/-- The sum of two tallies. -/
def add (a b : Tally) : Tally :=
  ⟨a.requests + b.requests, a.bytes + b.bytes, a.errors + b.errors⟩

theorem add_le_add {a b c d : Tally} (h₁ : a ≤ b) (h₂ : c ≤ d) : a.add c ≤ b.add d :=
  ⟨Nat.add_le_add h₁.1 h₂.1, Nat.add_le_add h₁.2.1 h₂.2.1, Nat.add_le_add h₁.2.2 h₂.2.2⟩

/-- The sum of some tallies. -/
def sum (ts : List Tally) : Tally := ts.foldr add {}

theorem requests_sum (ts : List Tally) : (sum ts).requests = (ts.map (·.requests)).sum := by
  induction ts with
  | nil => rfl
  | cons t ts ih =>
    rw [List.map_cons, List.sum_cons, ← ih]
    rfl

theorem bytes_sum (ts : List Tally) : (sum ts).bytes = (ts.map (·.bytes)).sum := by
  induction ts with
  | nil => rfl
  | cons t ts ih =>
    rw [List.map_cons, List.sum_cons, ← ih]
    rfl

/-- The report that stands for a tally. -/
def report (t : Tally) (completed : Bool) : Report :=
  ⟨UInt64.ofNat t.requests, UInt64.ofNat t.bytes, UInt64.ofNat t.errors, completed⟩

/-- All numbers fit into 64 bits. -/
structure Fits (t : Tally) : Prop where
  requests : t.requests < 2 ^ 64
  bytes : t.bytes < 2 ^ 64
  errors : t.errors < 2 ^ 64

theorem Fits.of_le {a b : Tally} (h : b.Fits) (hle : a ≤ b) : a.Fits :=
  ⟨Nat.lt_of_le_of_lt hle.1 h.requests, Nat.lt_of_le_of_lt hle.2.1 h.bytes,
    Nat.lt_of_le_of_lt hle.2.2 h.errors⟩

end Tally

namespace Report

/-- One report is at most another one in all counters. -/
def Le (a b : Report) : Prop :=
  a.requests ≤ b.requests ∧ a.bytes ≤ b.bytes ∧ a.errors ≤ b.errors

instance : LE Report := ⟨Le⟩

/-- Numbers that fit keep their order as words. -/
theorem ofNat_le {a b : Nat} (h : a ≤ b) (hb : b < 2 ^ 64) : UInt64.ofNat a ≤ UInt64.ofNat b := by
  rw [UInt64.le_iff_toNat_le, UInt64.toNat_ofNat_of_lt' (Nat.lt_of_le_of_lt h hb),
    UInt64.toNat_ofNat_of_lt' hb]
  exact h

/-- The reports of growing tallies grow, as long as the numbers fit. -/
theorem le_of_tally_le {a b : Tally} (h : a ≤ b) (hb : b.Fits) (x y : Bool) :
    a.report x ≤ b.report y :=
  ⟨ofNat_le h.1 hb.requests, ofNat_le h.2.1 hb.bytes, ofNat_le h.2.2 hb.errors⟩

/-- The counters of a report are the sums of the counters of its connections. -/
theorem toNat_ofStats (stats : List ConnectionStat) (completed : Bool) :
    (ofStats stats completed).requests.toNat =
        (stats.map (·.requests.toNat)).sum % 2 ^ 64 ∧
      (ofStats stats completed).bytes.toNat = (stats.map (·.bytes.toNat)).sum % 2 ^ 64 ∧
      (ofStats stats completed).errors.toNat = (stats.map (·.errors.toNat)).sum % 2 ^ 64 := by
  have hsum : ∀ {f : Report → UInt64} {g : ConnectionStat → UInt64},
      (∀ r s, f (r.add s) = f r + g s) → f { completed } = 0 →
        (f (ofStats stats completed)).toNat = (stats.map fun s => (g s).toNat).sum % 2 ^ 64 := by
    intro f g hadd hzero
    rw [ofStats, toNat_foldl_add hadd, hzero, UInt64.toNat_zero, Nat.zero_add]
  exact ⟨hsum (f := (·.requests)) (fun _ _ => rfl) rfl, hsum (f := (·.bytes)) (fun _ _ => rfl) rfl,
    hsum (f := (·.errors)) (fun _ _ => rfl) rfl⟩

end Report

namespace Engine

/-- The true numbers of an engine. -/
def tally (e : Engine) : Tally where
  requests := e.acceptedSends.length
  bytes := (e.acceptedSends.map (·.size)).sum
  errors := match e.exit? with
    | some (.failed _) => 1
    | _ => 0

/-- The counters of an engine stand for its true numbers. While it waits for the outcome of a send,
    this send is the last one submitted. -/
structure Counted (e : Engine) : Prop where
  requests : e.stat.requests = UInt64.ofNat e.tally.requests
  bytes : e.stat.bytes = UInt64.ofNat e.tally.bytes
  errors : e.stat.errors = UInt64.ofNat e.tally.errors
  pending : ∀ pacer size outcome, e.phase = .sending pacer size outcome →
    ∃ s rest, e.sent = s :: rest ∧ s.size = size ∧ s.accepted = outcome.isOk

/-- An engine that was just spawned has counted nothing. -/
theorem counted_fresh (setup : EngineSetup) (now : Nat) :
    ({ setup, now } : Engine).Counted := by
  refine ⟨rfl, rfl, rfl, ?_⟩
  intro _ _ _ h
  cases h

@[simp] theorem tally_cancel (e : Engine) : e.cancel.tally = e.tally := rfl

@[simp] theorem isStopped_cancel (e : Engine) : e.cancel.isStopped = e.isStopped := rfl

theorem Counted.cancel {e : Engine} (h : e.Counted) : e.cancel.Counted :=
  ⟨h.requests, h.bytes, h.errors, h.pending⟩

/-- Counters and tally that do not change. -/
theorem Counted.same {e d : Engine} (h : e.Counted) (hrequests : d.stat.requests = e.stat.requests)
    (hbytes : d.stat.bytes = e.stat.bytes) (herrors : d.stat.errors = e.stat.errors)
    (htally : d.tally = e.tally)
    (hpending : ∀ pacer size outcome, d.phase = .sending pacer size outcome →
      ∃ s rest, d.sent = s :: rest ∧ s.size = size ∧ s.accepted = outcome.isOk) :
    d.Counted ∧ e.tally ≤ d.tally := by
  refine ⟨⟨?_, ?_, ?_, hpending⟩, htally ▸ Tally.le_refl _⟩
  · rw [hrequests, htally, h.requests]
  · rw [hbytes, htally, h.bytes]
  · rw [herrors, htally, h.errors]

/-- Stopping counts an error if there is one, and nothing else. What the engine was waiting for must
    not have been accepted. -/
theorem Counted.stop {e : Engine} (h : e.Counted) (hexit : e.exit? = none)
    (hsent : e.sent.filter (·.accepted) = e.settledSends.filter (·.accepted)) (exit : Exit) :
    (e.stop exit).Counted ∧ e.tally ≤ (e.stop exit).tally := by
  have haccepted : (e.stop exit).acceptedSends = e.acceptedSends :=
    congrArg List.reverse hsent
  have herrors : e.tally.errors = 0 := by rw [tally, hexit]
  have hpending : ∀ pacer size outcome, (e.stop exit).phase = .sending pacer size outcome →
      ∃ s rest, (e.stop exit).sent = s :: rest ∧ s.size = size ∧ s.accepted = outcome.isOk := by
    intro _ _ _ hp
    cases hp
  cases exit with
  | failed error =>
    have htally : (e.stop (.failed error)).tally = { e.tally with errors := 1 } := by
      rw [tally, haccepted]
      rfl
    refine ⟨⟨?_, ?_, ?_, hpending⟩, ?_⟩
    · rw [htally]
      exact h.requests
    · rw [htally]
      exact h.bytes
    · have hstat : (e.stop (.failed error)).stat.errors = e.stat.errors + 1 := rfl
      rw [hstat, htally, h.errors, herrors]
      rfl
    · rw [htally]
      exact ⟨Nat.le_refl _, Nat.le_refl _, by omega⟩
  | _ =>
    refine h.same rfl rfl rfl ?_ hpending
    rw [tally, haccepted, tally, hexit]
    rfl

/-- An engine that looks whether to stop, to wait or to send counts nothing unless it fails. -/
theorem Counted.look {e : Engine} {pacer : Pacer} (h : e.Counted) (hp : e.phase = .looping pacer) :
    (e.look pacer).Counted ∧ e.tally ≤ (e.look pacer).tally := by
  have hexit : e.exit? = none := by rw [exit?, hp]
  have hsettled : e.settledSends = e.sent := by rw [settledSends, hp]
  have hstop := h.stop hexit (by rw [hsettled])
  unfold Engine.look
  split
  · exact hstop _
  split
  · exact hstop _
  split
  · exact hstop _
  split
  · refine h.same rfl rfl rfl rfl fun p size outcome hs => ?_
    have hs : e.phase = .sending p size outcome := hs
    rw [hp] at hs
    cases hs
  split
  · exact hstop _
  · -- What is submitted counts only when its outcome is known.
    refine h.same rfl rfl rfl ?_ fun p size outcome hs => ?_
    · rw [tally, tally, acceptedSends, acceptedSends, hsettled, hexit]
      rfl
    · cases hs
      exact ⟨_, _, rfl, rfl, rfl⟩

/-- A send that turns out to be accepted is counted, with its bytes. -/
theorem Counted.accept {e : Engine} {pacer : Pacer} {size : Nat} {u : Unit} (h : e.Counted)
    (hp : e.phase = .sending pacer size (.ok u)) :
    let d : Engine := { e with
      stat := (e.stat.onRequests 1).onSend (UInt64.ofNat size)
      phase := .looping (pacer.consume 1) }
    d.Counted ∧ e.tally ≤ d.tally := by
  intro d
  have hexit : e.exit? = none := by rw [exit?, hp]
  obtain ⟨s, rest, hsent, hsize, haccepted⟩ := h.pending pacer size _ hp
  have haccepted : s.accepted = true := haccepted
  have hbefore : e.acceptedSends = (rest.filter (·.accepted)).reverse := by
    rw [acceptedSends, settledSends, hp, hsent, List.tail_cons]
  have hafter : d.acceptedSends = e.acceptedSends ++ [s] := by
    have hd : d.acceptedSends = (e.sent.filter (·.accepted)).reverse := rfl
    rw [hd, hbefore, hsent, List.filter_cons, haccepted, if_pos rfl, List.reverse_cons]
  have htally : d.tally = ⟨e.tally.requests + 1, e.tally.bytes + size, e.tally.errors⟩ := by
    rw [tally, hafter, tally, hexit, List.length_append, List.map_append, List.sum_append]
    simp [d, exit?, hsize]
  refine ⟨⟨?_, ?_, ?_, fun _ _ _ hs => ?_⟩, ?_⟩
  · rw [htally, UInt64.ofNat_add, ← h.requests]
    rfl
  · rw [htally, UInt64.ofNat_add, ← h.bytes]
    rfl
  · rw [htally, ← h.errors]
    rfl
  · cases hs
  · rw [htally]
    exact ⟨Nat.le_succ _, Nat.le_add_right _ _, Nat.le_refl _⟩

/-- **Counting.** Every step of an engine keeps its counters true. -/
theorem Counted.step {e : Engine} (h : e.Counted) : e.step.Counted ∧ e.tally ≤ e.step.tally := by
  cases hp : e.phase with
  | connecting =>
    have hsettled : e.settledSends = e.sent := by rw [settledSends, hp]
    have hexit : e.exit? = none := by rw [exit?, hp]
    rw [Engine.step, hp]
    refine h.same rfl rfl rfl ?_ fun _ _ _ hs => by cases hs
    rw [tally, tally, acceptedSends, acceptedSends, hsettled, hexit]
    rfl
  | opening outcome =>
    have hsettled : e.settledSends = e.sent := by rw [settledSends, hp]
    have hexit : e.exit? = none := by rw [exit?, hp]
    rw [Engine.step, hp]
    cases outcome with
    | error error => exact h.stop hexit (by rw [hsettled]) _
    | ok u =>
      refine h.same rfl rfl rfl ?_ fun _ _ _ hs => by cases hs
      rw [tally, tally, acceptedSends, acceptedSends, hsettled, hexit]
      rfl
  | looping pacer =>
    rw [Engine.step, hp]
    exact h.look hp
  | sending pacer size outcome =>
    have hexit : e.exit? = none := by rw [exit?, hp]
    obtain ⟨s, rest, hsent, hsize, haccepted⟩ := h.pending pacer size outcome hp
    have hsettled : e.settledSends = rest := by rw [settledSends, hp, hsent, List.tail_cons]
    rw [Engine.step, hp]
    cases outcome with
    | error error =>
      refine h.stop hexit ?_ _
      have : s.accepted = false := haccepted
      rw [hsent, hsettled, List.filter_cons, this]
      rfl
    | ok u => exact h.accept hp
  | stopped exit =>
    rw [step_of_isStopped (by rw [isStopped, hp])]
    exact ⟨h, Tally.le_refl _⟩

end Engine

namespace Group

/-- The true numbers of a group. -/
def tally (g : Group) : Tally := Tally.sum (g.engines.map (·.tally))

/-- All counters of a group stand for true numbers. -/
def Counted (g : Group) : Prop := ∀ e ∈ g.engines, e.Counted

private theorem foldl_add (es : List Engine) (h : ∀ e ∈ es, e.Counted) (t : Tally)
    (completed : Bool) : (es.map (·.stat)).foldl Report.add (t.report completed) =
      (t.add (Tally.sum (es.map (·.tally)))).report completed := by
  induction es generalizing t with
  | nil => rfl
  | cons e es ih =>
    have he := h e (by simp)
    have hadd : (t.report completed).add e.stat = (t.add e.tally).report completed := by
      simp only [Report.add, Tally.report, Tally.add, UInt64.ofNat_add, he.requests, he.bytes,
        he.errors]
    rw [List.map_cons, List.foldl_cons, hadd, ih fun d hd => h d (by simp [hd])]
    simp only [List.map_cons, Tally.sum, List.foldr_cons, Tally.add, Nat.add_assoc]

/-- **Reports.** The report of a group stands for its true numbers. -/
theorem report_eq {g : Group} (h : g.Counted) (completed : Bool) :
    g.report completed = g.tally.report completed := by
  have hfold := foldl_add g.engines h {} completed
  rw [report, Report.ofStats, stats]
  refine hfold.trans (congrArg (Tally.report · completed) ?_)
  simp [Tally.add, tally]

theorem Counted.cancel {g : Group} (h : g.Counted) : g.cancel.Counted := by
  intro e he
  rw [engines_cancel] at he
  obtain ⟨e', he', rfl⟩ := List.mem_map.mp he
  exact (h e' he').cancel

@[simp] theorem tally_cancel (g : Group) : g.cancel.tally = g.tally := by
  simp [tally, Function.comp_def]

@[simp] theorem isStopped_cancel (g : Group) : g.cancel.isStopped = g.isStopped := by
  simp [isStopped, Function.comp_def]

private theorem counted_modify {es : List Engine} (h : ∀ e ∈ es, e.Counted) (i : Nat) :
    (∀ e ∈ es.modify i Engine.step, e.Counted) ∧
      Tally.sum (es.map (·.tally)) ≤ Tally.sum ((es.modify i Engine.step).map (·.tally)) := by
  induction es generalizing i with
  | nil => simpa using Tally.le_refl _
  | cons e es ih =>
    have hes : ∀ d ∈ es, d.Counted := fun d hd => h d (by simp [hd])
    cases i with
    | zero =>
      obtain ⟨hstep, hle⟩ := (h e (by simp)).step
      rw [List.modify_zero_cons]
      refine ⟨?_, Tally.add_le_add hle (Tally.le_refl _)⟩
      rintro d (_ | ⟨_, hd⟩)
      · exact hstep
      · exact hes d hd
    | succ i =>
      obtain ⟨hstep, hle⟩ := ih hes i
      rw [List.modify_succ_cons]
      refine ⟨?_, Tally.add_le_add (Tally.le_refl _) hle⟩
      rintro d (_ | ⟨_, hd⟩)
      · exact h e (by simp)
      · exact hstep d hd

/-- A step of one engine keeps the counters true, and no number decreases. -/
theorem Counted.stepEngine {g : Group} (h : g.Counted) (i : Nat) :
    (g.stepEngine i).Counted ∧ g.tally ≤ (g.stepEngine i).tally := counted_modify h i

/-- Engines that were just spawned have counted nothing. -/
theorem counted_spawn (cfg : Config) (pool : Pool) (target : Nat → Endpoint → Target)
    (clients : List Client) (now : Nat) : (spawn cfg pool target clients now).Counted := by
  intro e he
  simp only [spawn, List.mem_map] at he
  obtain ⟨⟨client, i⟩, -, rfl⟩ := he
  exact Engine.counted_fresh _ _

end Group

end TxLoad
