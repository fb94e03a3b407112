import TxLoad.Proofs.Engine.Tally
import TxLoad.Proofs.Worker.Flow

namespace TxLoad

/-!
# What holds of a worker at all times

The invariant says for every phase of a worker what it has told its coordinator and what it has
heard from it.

* `Worker.Idle` holds before the start, `Worker.Launched` from the start on: the reports stand for
  growing tallies of the engines.
* `Worker.Concluded`: the last report was written when all engines had stopped, and sums their
  counters.
* `Worker.Surprised`: a worker fails with a mismatch only after a message that it did not expect.
* `Worker.Inv.step`, `Worker.Inv.run`: the invariant holds in every run.
-/

/-- A fault of the other side's messages, and not of the link or the clock. -/
def ProtocolError.isMismatch : ProtocolError → Bool
  | .unexpected _ _ => true
  | .unregistered _ => true
  | .nonMonotonic _ _ _ _ _ => true
  | _ => false

/-- A failure for a fault of the other side's messages. -/
def Error.isMismatch : Error → Bool
  | .protocol e => e.isMismatch
  | _ => false

namespace Worker

variable {w : Worker}

/-! ### Writing -/

theorem told_write (w : Worker) (m : Message) : (w.write m).told = w.told ++ [m] := by
  simp [told, write]

theorem sent_write (w : Worker) (m : Message) :
    (w.write m).sent = w.sent ++ if w.isWritable then [m] else [] := by
  cases h : w.isWritable <;> simp [sent, write, h]

/-! ### Before the start -/

/-- A worker without engines, what it has told, with success, and what it has heard. -/
structure Idle (w : Worker) (told : List Message) (heard : List Reading) : Prop where
  told_eq : w.told = told
  sent_eq : w.sent = told
  heard_eq : w.heard = heard
  engines : w.group.engines = []

/-- What a worker has heard whose last message was not the one that it expected. -/
inductive Surprised : List Reading → Prop where
  | greeting {m : Message} (hm : ∀ x, m ≠ .hello (some x)) : Surprised [.message m]
  | config {x : UInt64} {m : Message} (hm : ∀ cfg, m ≠ .config cfg) (ha : ∀ r, m ≠ .abort r) :
    Surprised [.message (.hello (some x)), .message m]
  | start {x : UInt64} {cfg : Config} {m : Message} (hm : m ≠ .start) (ha : ∀ r, m ≠ .abort r) :
    Surprised [.message (.hello (some x)), .message (.config cfg), .message m]

/-- What a worker may have told that stops before the start. -/
def IsOverture (told : List Message) : Prop :=
  told <+: [.hello none, .ready] ∨ ∃ reason, told <+: [.hello none, .reject reason]

/-- A worker that has stopped without a run. -/
structure Refused (w : Worker) (e : Error) : Prop where
  told : IsOverture w.told
  sent : w.sent <+: w.told
  engines : w.group.engines = []
  mismatch : e.isMismatch = true → Surprised w.heard

/-! ### From the start on -/

/-- The messages that report some tallies. -/
def reports (ts : List Tally) : List Message := ts.map fun t => .statsReport (t.report false)

/-- A worker with engines, and the tallies that it has reported: they grow up to the present one. -/
structure Launched (w : Worker) (ts : List Tally) : Prop where
  heard : ∃ x cfg rs, w.id = some x ∧ w.heard = .message (.hello (some x)) ::
    .message (.config cfg) :: .message .start :: rs
  counted : w.group.Counted
  ascending : (ts ++ [w.group.tally]).Pairwise (· ≤ ·)

/-- A worker that has not written its last report yet. -/
def IsReporting (w : Worker) (ts : List Tally) : Prop :=
  w.told = .hello none :: .ready :: reports ts

/-- A worker that has written its last report: the sums of the counters of its engines, all of which
    have stopped. -/
structure Concluded (w : Worker) (ts : List Tally) (last : Report) : Prop where
  told : w.told = .hello none :: .ready :: (reports ts ++ [.statsReport last])
  stopped : w.group.isStopped = true
  sums : last = w.group.report true

/-! ### The invariant -/

/-- The invariant of a worker. -/
inductive Inv (w : Worker) : Prop where
  | connecting {deadline : Nat} (hp : w.phase = .connecting deadline) (h : w.Idle [] [])
  | pausing {deadline next : Nat} (hp : w.phase = .pausing deadline next) (h : w.Idle [] [])
  | greeting (hp : w.phase = .greeting) (h : w.Idle [.hello none] [])
  | awaiting {x : UInt64} (hp : w.phase = .awaitingConfig) (hid : w.id = some x)
    (h : w.Idle [.hello none] [.message (.hello (some x))])
  | preparing {x : UInt64} {cfg : Config} {clients : List Client}
    {resolution : Discovery.Resolution} (hp : w.phase = .preparing cfg clients resolution)
    (hid : w.id = some x)
    (h : w.Idle [.hello none] [.message (.hello (some x)), .message (.config cfg)])
    (hr : ∀ e, resolution.pool = .error e → e.isMismatch = false)
  | ready {x : UInt64} {cfg : Config} {clients : List Client} {pool : Pool}
    (hp : w.phase = .ready cfg clients pool) (hid : w.id = some x)
    (h : w.Idle [.hello none, .ready] [.message (.hello (some x)), .message (.config cfg)])
  | running {cfg : Config} {next : Nat} {ts : List Tally} (hp : w.phase = .running cfg next)
    (h : w.Launched ts) (hr : w.IsReporting ts) (hs : w.sent = w.told)
  | abandoning {ts : List Tally} (hp : w.phase = .abandoning) (h : w.Launched ts)
    (hr : w.IsReporting ts) (hs : w.sent <+: w.told)
  | finishing {last : Report} {deadline : Nat} {ts : List Tally}
    (hp : w.phase = .finishing last deadline) (h : w.Launched ts) (hc : w.Concluded ts last)
    (hs : w.sent = w.told)
  | refused {e : Error} (hp : w.phase = .stopped (.error e)) (h : w.Refused e)
  | lost {ts : List Tally} (hp : w.phase = .stopped (.error linkLost)) (h : w.Launched ts)
    (hc : w.IsReporting ts ∨ ∃ last, w.Concluded ts last)
    (hs : w.sent <+: .hello none :: .ready :: reports ts)
  | done {last : Report} {ts : List Tally} (hp : w.phase = .stopped (.ok last))
    (h : w.Launched ts) (hc : w.Concluded ts last) (hs : w.sent = w.told)

theorem inv_start (setup : WorkerSetup) (now : Nat) : (start setup now).Inv :=
  .connecting rfl ⟨rfl, rfl, rfl, rfl⟩

/-- Neither the clock nor what has arrived matters, nor whether writes will succeed. -/
theorem Inv.frame (h : w.Inv) (now : Nat) (inbox : List Reading) (isWritable : Bool) :
    { w with now, inbox, isWritable }.Inv := by
  have hidle : ∀ {told heard}, w.Idle told heard →
      { w with now, inbox, isWritable }.Idle told heard :=
    fun h => ⟨h.told_eq, h.sent_eq, h.heard_eq, h.engines⟩
  have hlaunched : ∀ {ts}, w.Launched ts → { w with now, inbox, isWritable }.Launched ts :=
    fun h => ⟨h.heard, h.counted, h.ascending⟩
  have hconcluded : ∀ {ts last}, w.Concluded ts last →
      { w with now, inbox, isWritable }.Concluded ts last :=
    fun h => ⟨h.told, h.stopped, h.sums⟩
  cases h with
  | connecting hp h => exact .connecting hp (hidle h)
  | pausing hp h => exact .pausing hp (hidle h)
  | greeting hp h => exact .greeting hp (hidle h)
  | awaiting hp hid h => exact .awaiting hp hid (hidle h)
  | preparing hp hid h hr => exact .preparing hp hid (hidle h) hr
  | ready hp hid h => exact .ready hp hid (hidle h)
  | running hp h hr hs => exact .running hp (hlaunched h) hr hs
  | abandoning hp h hr hs => exact .abandoning hp (hlaunched h) hr hs
  | finishing hp h hc hs => exact .finishing hp (hlaunched h) (hconcluded hc) hs
  | refused hp h => exact .refused hp ⟨h.told, h.sent, h.engines, h.mismatch⟩
  | lost hp h hc hs =>
    exact .lost hp (hlaunched h) (hc.imp_right fun ⟨last, hc⟩ => ⟨last, hconcluded hc⟩) hs
  | done hp h hc hs => exact .done hp (hlaunched h) (hconcluded hc) hs

/-! ### Stopping before the start -/

theorem isOverture_nil : IsOverture [] := .inl List.nil_prefix

theorem isOverture_hello : IsOverture [.hello none] := .inl ⟨[.ready], rfl⟩

theorem isOverture_ready : IsOverture [.hello none, .ready] := .inl (List.prefix_refl _)

theorem isOverture_reject (reason : String) : IsOverture [.hello none, .reject reason] :=
  .inr ⟨reason, List.prefix_refl _⟩

theorem Idle.inv_stop {told : List Message} {heard : List Reading} {e : Error}
    (h : w.Idle told heard) (hp : w.phase = .stopped (.error e)) (ht : IsOverture told)
    (he : e.isMismatch = true → Surprised heard) : w.Inv :=
  .refused hp ⟨h.told_eq ▸ ht, h.sent_eq ▸ h.told_eq ▸ List.prefix_refl _, h.engines,
    h.heard_eq ▸ he⟩

/-- Writing, and going on if the write succeeds. -/
theorem Idle.inv_writeThen {told : List Message} {heard : List Reading} {m : Message}
    {next : WorkerPhase} (h : w.Idle told heard) (ht : IsOverture (told ++ [m]))
    (hnext : ∀ d : Worker, d.phase = next → d.id = w.id → d.Idle (told ++ [m]) heard → d.Inv) :
    (w.writeThen m next).Inv := by
  unfold writeThen
  by_cases hw : w.isWritable = true
  · simp only [hw, if_true]
    refine hnext _ rfl rfl ⟨?_, ?_, h.heard_eq, h.engines⟩
    · exact (told_write w m).trans (by rw [h.told_eq])
    · exact (sent_write w m).trans (by rw [h.sent_eq, hw, if_pos rfl])
  · have hw : w.isWritable = false := by simpa using hw
    have htold : (w.write m).told = told ++ [m] := by rw [told_write, h.told_eq]
    have hsent : (w.write m).sent = told := by simp [sent_write, h.sent_eq, hw]
    simp only [hw, Bool.false_eq_true, if_false]
    refine .refused rfl ⟨?_, ?_, h.engines, fun he => by cases he⟩
    · exact htold ▸ ht
    · exact (hsent.symm ▸ htold.symm ▸ List.prefix_append told [m])

/-- A configuration that cannot be run is rejected for a reason of the worker's own. -/
theorem Idle.inv_reject {heard : List Reading} {e : Error} (h : w.Idle [.hello none] heard)
    (he : e.isMismatch = false) : (w.reject e).Inv := by
  refine h.inv_writeThen (isOverture_reject _) fun d hp _ hd => ?_
  exact hd.inv_stop hp (isOverture_reject _) fun h => by rw [he] at h; cases h

/-- Endpoints that cannot be found are no fault of the coordinator. -/
theorem isMismatch_of_resolve {net : Network} {cfg : Config} {now : Nat} {e : Error}
    (h : (Discovery.resolve net cfg now).pool = .error e) : e.isMismatch = false := by
  have hpool : ∀ endpoints, Discovery.poolOf cfg endpoints = .error e → e.isMismatch = false := by
    intro endpoints h
    simp only [Discovery.poolOf] at h
    split at h
    · cases h
      rfl
    · cases hp : Pool.ofList (Discovery.capped cfg endpoints) with
      | ok pool => simp [hp, Except.mapError] at h
      | error e' =>
        simp only [hp, Except.mapError, Except.error.injEq] at h
        rw [← h]
        rfl
  unfold Discovery.resolve at h
  split at h
  · cases h
    rfl
  · split at h <;> exact hpool _ h

/-! ### Reading before the start -/

/-- Only a message can be a mismatch. -/
theorem eq_message_of_surprise {expected : String} {r : Reading}
    (h : (surprise expected r).isMismatch = true) : ∃ m, r = .message m := by
  cases r with
  | message m => exact ⟨m, rfl⟩
  | _ => cases h

theorem Idle.took {told : List Message} {heard : List Reading} (h : w.Idle told heard)
    (r : Reading) (inbox : List Reading) : (w.took r inbox).Idle told (heard ++ [r]) :=
  ⟨h.told_eq, h.sent_eq, by rw [Worker.took, h.heard_eq], h.engines⟩

theorem inv_onRead_greeting (hp : w.phase = .greeting) (h : w.Idle [.hello none] [])
    (r : Reading) (inbox : List Reading) : ((w.took r inbox).onRead r).Inv := by
  have hd := h.took r inbox
  have hphase : (w.took r inbox).phase = .greeting := hp
  have hstop : (w.took r inbox).onRead r =
      (w.took r inbox).stop (.error (surprise "hello" r)) →
      (∀ x, r ≠ .message (.hello (some x))) → ((w.took r inbox).onRead r).Inv := by
    intro heq hne
    rw [heq]
    refine Idle.inv_stop ⟨hd.told_eq, hd.sent_eq, hd.heard_eq, hd.engines⟩ rfl isOverture_hello
      fun he => ?_
    obtain ⟨m, rfl⟩ := eq_message_of_surprise he
    exact .greeting fun x hx => hne x (by rw [hx])
  cases r with
  | message m =>
    cases m with
    | hello x =>
      cases x with
      | some x =>
        simp only [onRead, hphase]
        exact .awaiting rfl rfl ⟨hd.told_eq, hd.sent_eq, hd.heard_eq, hd.engines⟩
      | none => exact hstop (by simp only [onRead, hphase]) (by simp)
    | _ => exact hstop (by simp only [onRead, hphase]) (by simp)
  | _ => exact hstop (by simp only [onRead, hphase]) (by simp)

theorem inv_onRead_awaiting {x : UInt64} (hp : w.phase = .awaitingConfig) (hid : w.id = some x)
    (h : w.Idle [.hello none] [.message (.hello (some x))]) (r : Reading) (inbox : List Reading) :
    ((w.took r inbox).onRead r).Inv := by
  have hd := h.took r inbox
  have hphase : (w.took r inbox).phase = .awaitingConfig := hp
  have hstop : ∀ e, (w.took r inbox).onRead r = (w.took r inbox).stop (.error e) →
      (e.isMismatch = true → Surprised [.message (.hello (some x)), r]) →
      ((w.took r inbox).onRead r).Inv := by
    intro e heq he
    rw [heq]
    exact Idle.inv_stop ⟨hd.told_eq, hd.sent_eq, hd.heard_eq, hd.engines⟩ rfl isOverture_hello he
  have hsurprise : (∀ cfg, r ≠ .message (.config cfg)) → (∀ s, r ≠ .message (.abort s)) →
      (surprise "config" r).isMismatch = true → Surprised [.message (.hello (some x)), r] := by
    intro hc ha he
    obtain ⟨m, rfl⟩ := eq_message_of_surprise he
    exact .config (fun cfg hm => hc cfg (by rw [hm])) fun s hm => ha s (by rw [hm])
  cases r with
  | message m =>
    cases m with
    | config cfg =>
      simp only [onRead, hphase]
      simp only [configure]
      cases hprep : prepare (w.took (.message (.config cfg)) inbox).setup cfg
          (w.took (.message (.config cfg)) inbox).now with
      | error e =>
        have he : e.isMismatch = false := by
          unfold prepare at hprep
          split at hprep
          · cases hprep
            rfl
          · cases hprep
        exact hd.inv_reject he
      | ok made =>
        refine .preparing rfl hid ⟨hd.told_eq, hd.sent_eq, hd.heard_eq, hd.engines⟩ fun e he => ?_
        unfold prepare at hprep
        split at hprep
        · cases hprep
        · cases hprep
          exact isMismatch_of_resolve he
    | abort s =>
      exact hstop (.protocol (.aborted s)) (by simp only [onRead, hphase]) fun he => by cases he
    | _ => exact hstop _ (by simp only [onRead, hphase]) (hsurprise (by simp) (by simp))
  | _ => exact hstop _ (by simp only [onRead, hphase]) (hsurprise (by simp) (by simp))

theorem inv_onRead_ready {x : UInt64} {cfg : Config} {clients : List Client} {pool : Pool}
    (hp : w.phase = .ready cfg clients pool) (hid : w.id = some x)
    (h : w.Idle [.hello none, .ready] [.message (.hello (some x)), .message (.config cfg)])
    (r : Reading) (inbox : List Reading) : ((w.took r inbox).onRead r).Inv := by
  have hd := h.took r inbox
  have hphase : (w.took r inbox).phase = .ready cfg clients pool := hp
  have hstop : ∀ e, (w.took r inbox).onRead r = (w.took r inbox).stop (.error e) →
      (e.isMismatch = true →
        Surprised [.message (.hello (some x)), .message (.config cfg), r]) →
      ((w.took r inbox).onRead r).Inv := by
    intro e heq he
    rw [heq]
    exact Idle.inv_stop ⟨hd.told_eq, hd.sent_eq, hd.heard_eq, hd.engines⟩ rfl isOverture_ready he
  have hsurprise : r ≠ .message .start → (∀ s, r ≠ .message (.abort s)) →
      (surprise "start" r).isMismatch = true →
      Surprised [.message (.hello (some x)), .message (.config cfg), r] := by
    intro hc ha he
    obtain ⟨m, rfl⟩ := eq_message_of_surprise he
    exact .start (fun hm => hc (by rw [hm])) fun s hm => ha s (by rw [hm])
  cases r with
  | message m =>
    cases m with
    | start =>
      simp only [onRead, hphase]
      have hcounted : ((w.took (.message .start) inbox).begin cfg clients pool).group.Counted :=
        Group.counted_spawn _ _ _ _ _
      have hlaunched : ((w.took (.message .start) inbox).begin cfg clients pool).Launched [] :=
        ⟨⟨x, cfg, [], hid, hd.heard_eq⟩, hcounted, List.pairwise_singleton _ _⟩
      exact .running rfl hlaunched hd.told_eq (hd.sent_eq.trans hd.told_eq.symm)
    | abort s =>
      exact hstop (.protocol (.aborted s)) (by simp only [onRead, hphase]) fun he => by cases he
    | _ => exact hstop _ (by simp only [onRead, hphase]) (hsurprise (by simp) (by simp))
  | _ => exact hstop _ (by simp only [onRead, hphase]) (hsurprise (by simp) (by simp))

/-! ### From the start on -/

section

variable {v : Worker} {ts : List Tally}

/-- What counts for a worker with engines is what it has heard and what its engines count. -/
theorem Launched.congr (h : w.Launched ts) (hid : v.id = w.id) (hheard : v.heard = w.heard)
    (hcounted : v.group.Counted) (htally : v.group.tally = w.group.tally) : v.Launched ts where
  heard := hid ▸ hheard ▸ h.heard
  counted := hcounted
  ascending := htally ▸ h.ascending

/-- Reading more changes nothing. -/
theorem Launched.took (h : w.Launched ts) (r : Reading) (inbox : List Reading) :
    (w.took r inbox).Launched ts := by
  obtain ⟨x, cfg, rs, hid, hheard⟩ := h.heard
  refine ⟨⟨x, cfg, rs ++ [r], hid, ?_⟩, h.counted, h.ascending⟩
  rw [Worker.took, hheard]
  rfl

/-- A step of an engine decreases nothing that was reported. -/
theorem Launched.work (h : w.Launched ts) (engine : Nat) :
    { w with group := w.group.stepEngine engine }.Launched ts := by
  obtain ⟨hcounted, hle⟩ := h.counted.stepEngine engine
  obtain ⟨hts, -, hlast⟩ := List.pairwise_append.mp h.ascending
  refine ⟨h.heard, hcounted, List.pairwise_append.mpr ⟨hts, List.pairwise_singleton _ _, ?_⟩⟩
  intro a ha b hb
  obtain rfl := List.mem_singleton.mp hb
  exact Tally.le_trans (hlast a ha _ (by simp)) hle

/-- The present tally can be reported next. -/
theorem Launched.reported (h : w.Launched ts) : w.Launched (ts ++ [w.group.tally]) := by
  refine ⟨h.heard, h.counted,
    List.pairwise_append.mpr ⟨h.ascending, List.pairwise_singleton _ _, ?_⟩⟩
  intro a ha b hb
  obtain rfl := List.mem_singleton.mp hb
  rcases List.mem_append.mp ha with ha | ha
  · exact (List.pairwise_append.mp h.ascending).2.2 a ha _ (by simp)
  · rw [List.mem_singleton.mp ha]
    exact Tally.le_refl _

/-- Stopping the engines changes no counter. -/
theorem Launched.abandon (h : w.Launched ts) : w.abandon.Launched ts :=
  h.congr rfl rfl h.counted.cancel (Group.tally_cancel _)

theorem inv_onRunning {cfg : Config} {next : Nat} (hp : w.phase = .running cfg next)
    (h : w.Launched ts) (hr : w.IsReporting ts) (hs : w.sent = w.told) (r : Reading) :
    (w.onRunning r).Inv := by
  have habandon : w.abandon.Inv := .abandoning rfl h.abandon hr (hs ▸ List.prefix_refl _)
  cases r with
  | message m =>
    cases m with
    | stop reason =>
      exact .running hp (h.congr rfl rfl h.counted.cancel (Group.tally_cancel _)) hr hs
    | _ => exact .running hp h hr hs
  | _ => exact habandon

theorem inv_onFinishing {last : Report} {deadline : Nat} (hp : w.phase = .finishing last deadline)
    (h : w.Launched ts) (hc : w.Concluded ts last) (hs : w.sent = w.told) (r : Reading) :
    (w.onFinishing last r).Inv := by
  have hstop : (w.stop (.ok last)).Inv :=
    .done rfl ⟨h.heard, h.counted, h.ascending⟩ ⟨hc.told, hc.stopped, hc.sums⟩ hs
  cases r with
  | message m =>
    cases m with
    | ack => exact hstop
    | _ => exact .finishing hp h hc hs
  | _ => exact hstop

/-- A report stands for the present tally. -/
theorem inv_report {cfg : Config} (h : w.Launched ts) (hr : w.IsReporting ts)
    (hs : w.sent = w.told) : (w.report cfg).Inv := by
  have hlaunched := h.reported
  have hreport : w.group.report false = w.group.tally.report false := Group.report_eq h.counted _
  have htold : (w.write (.statsReport (w.group.report false))).IsReporting
      (ts ++ [w.group.tally]) := by
    rw [IsReporting, told_write, hr, hreport, reports, reports, List.map_append]
    rfl
  have hsent := sent_write w (.statsReport (w.group.report false))
  have htold' := told_write w (.statsReport (w.group.report false))
  unfold report
  by_cases hw : w.isWritable = true
  · rw [if_pos hw]
    refine .running rfl ⟨hlaunched.heard, hlaunched.counted, hlaunched.ascending⟩ htold ?_
    exact hsent.trans (by rw [if_pos hw, hs, ← htold']; rfl)
  · rw [if_neg hw]
    refine .abandoning rfl (Launched.abandon ⟨hlaunched.heard, hlaunched.counted,
      hlaunched.ascending⟩) htold ?_
    rw [if_neg hw, List.append_nil, hs] at hsent
    exact ⟨_, (congrArg (· ++ _) hsent).trans htold'.symm⟩

/-- The last report is written once all engines have stopped. -/
theorem inv_conclude (h : w.Launched ts) (hr : w.IsReporting ts) (hs : w.sent = w.told)
    (hstopped : w.group.isStopped = true) : w.conclude.Inv := by
  have htold := told_write w (.statsReport (w.group.report true))
  have hsent := sent_write w (.statsReport (w.group.report true))
  have hc : (w.write (.statsReport (w.group.report true))).Concluded ts (w.group.report true) := by
    refine ⟨?_, hstopped, rfl⟩
    rw [htold, hr]
    rfl
  unfold conclude
  by_cases hw : w.isWritable = true
  · simp only [hw, if_true]
    refine .finishing rfl ⟨h.heard, h.counted, h.ascending⟩ ⟨hc.told, hc.stopped, hc.sums⟩ ?_
    exact hsent.trans (by rw [if_pos hw, hs, ← htold]; rfl)
  · rw [if_neg hw]
    refine .lost rfl ⟨h.heard, h.counted, h.ascending⟩
      (.inr ⟨_, hc.told, hc.stopped, hc.sums⟩) ?_
    rw [if_neg hw, List.append_nil, hs, hr] at hsent
    exact ⟨[], (List.append_nil _).trans hsent⟩

end

/-! ### Steps -/

theorem Inv.read (h : w.Inv) {r : Reading} (inbox : List Reading)
    (hlisten : w.isListening = true) : ((w.took r inbox).onRead r).Inv := by
  cases h with
  | greeting hp h => exact inv_onRead_greeting hp h r inbox
  | awaiting hp hid h => exact inv_onRead_awaiting hp hid h r inbox
  | ready hp hid h => exact inv_onRead_ready hp hid h r inbox
  | running hp h hr hs =>
    have hphase : (w.took r inbox).phase = w.phase := rfl
    have honRead : (w.took r inbox).onRead r = (w.took r inbox).onRunning r := by
      simp only [onRead, hphase, hp]
    rw [honRead]
    exact inv_onRunning (w := w.took r inbox) hp (h.took r inbox) hr hs r
  | @finishing last deadline ts hp h hc hs =>
    have hphase : (w.took r inbox).phase = w.phase := rfl
    have honRead : (w.took r inbox).onRead r = (w.took r inbox).onFinishing last r := by
      simp only [onRead, hphase, hp]
    rw [honRead]
    exact inv_onFinishing (w := w.took r inbox) hp (h.took r inbox)
      ⟨hc.told, hc.stopped, hc.sums⟩ hs r
  | _ hp => simp [isListening, hp] at hlisten

theorem Idle.inv_miss (h : w.Idle [] []) (deadline : Nat) : (w.miss deadline).Inv := by
  have hidle : ∀ phase, { w with phase }.Idle [] [] :=
    fun _ => ⟨h.told_eq, h.sent_eq, h.heard_eq, h.engines⟩
  unfold miss
  split
  · exact (hidle _).inv_stop rfl isOverture_nil fun he => by cases he
  · exact .pausing rfl (hidle _)

theorem Inv.expire (h : w.Inv) {t : Nat} (he : w.hasEngines = false) (ht : w.timer? = some t) :
    w.expire.Inv := by
  cases h with
  | connecting hp h =>
    rw [Worker.expire, hp]
    exact h.inv_miss _
  | pausing hp h =>
    rw [Worker.expire, hp]
    exact .connecting rfl ⟨h.told_eq, h.sent_eq, h.heard_eq, h.engines⟩
  | @preparing x cfg clients resolution hp hid h hr =>
    rw [Worker.expire, hp]
    simp only [prepared]
    cases hpool : resolution.pool with
    | ok pool =>
      exact h.inv_writeThen isOverture_ready fun d hd hdid h => .ready hd (hdid.trans hid) h
    | error e => exact h.inv_reject (hr e hpool)
  | finishing hp h hc hs =>
    rw [Worker.expire, hp]
    exact .done rfl ⟨h.heard, h.counted, h.ascending⟩ ⟨hc.told, hc.stopped, hc.sums⟩ hs
  | running hp | abandoning hp => simp [hasEngines, hp] at he
  | _ hp => simp [timer?, hp] at ht

/-- While the worker tries to connect, it has neither told nor heard anything. -/
theorem Inv.idle_of_connecting (h : w.Inv) {deadline : Nat} (hp : w.phase = .connecting deadline) :
    w.Idle [] [] := by
  cases h with
  | connecting hp' h => exact h
  | _ hp' =>
    rw [hp] at hp'
    cases hp'

/-- While the engines run, every report has been sent. -/
theorem Inv.launched_of_running (h : w.Inv) {cfg : Config} {next : Nat}
    (hp : w.phase = .running cfg next) :
    ∃ ts, w.Launched ts ∧ w.IsReporting ts ∧ w.sent = w.told := by
  cases h with
  | running hp' h hr hs => exact ⟨_, h, hr, hs⟩
  | _ hp' =>
    rw [hp] at hp'
    cases hp'

theorem Inv.work (h : w.Inv) (he : w.hasEngines = true) (engine : Nat) :
    { w with group := w.group.stepEngine engine }.Inv := by
  cases h with
  | running hp h hr hs => exact .running hp (h.work engine) hr hs
  | abandoning hp h hr hs => exact .abandoning hp (h.work engine) hr hs
  | _ hp => simp [hasEngines, hp] at he

/-- The engines of a lost coordinator have stopped. -/
theorem Inv.giveUp (h : w.Inv) (hp : w.phase = .abandoning) :
    (w.stop (.error linkLost)).Inv := by
  cases h with
  | abandoning hp' h hr hs =>
    exact .lost rfl ⟨h.heard, h.counted, h.ascending⟩ (.inl hr) (hr ▸ hs)
  | _ hp' =>
    rw [hp] at hp'
    cases hp'

/-- Every event keeps the invariant. -/
theorem Inv.step (h : w.Inv) (e : WorkerEvent) : (w.step e).Inv := by
  have hr := w.reacts_step e
  generalize w.step e = v at hr ⊢
  cases hr with
  | refused => exact h
  | reach hp =>
    exact (h.idle_of_connecting hp).inv_writeThen isOverture_hello fun d hd _ h => .greeting hd h
  | miss hp => exact (h.idle_of_connecting hp).inv_miss _
  | arrive | sever | advance => exact h.frame _ _ _
  | read hlisten => exact h.read _ hlisten
  | work he => exact h.work he _
  | report hp =>
    obtain ⟨ts, hl, hr, hs⟩ := h.launched_of_running hp
    exact inv_report hl hr hs
  | conclude hp hstopped =>
    obtain ⟨ts, hl, hr, hs⟩ := h.launched_of_running hp
    exact inv_conclude hl hr hs hstopped
  | giveUp hp => exact h.giveUp hp
  | expire he ht => exact h.expire he ht
  | interrupt hp =>
    obtain ⟨ts, hl, hr, hs⟩ := h.launched_of_running hp
    exact .running hp (hl.congr rfl rfl hl.counted.cancel (Group.tally_cancel _)) hr hs

/-- Every run keeps the invariant. -/
theorem Inv.run (h : w.Inv) (es : List WorkerEvent) : (w.run es).Inv := by
  induction es generalizing w with
  | nil => exact h
  | cons e es ih => exact ih (h.step e)

end Worker

end TxLoad
