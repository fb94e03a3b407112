import TxLoad.Proofs.Coordinator.Affecting

namespace TxLoad

/-!
# Who is greeted

A coordinator greets in one place only: when it reads the first hello of a peer. Whatever else it
does, it writes no hello, makes nobody a worker and, unless it reads from a worker, merges nothing.

* `Retains` holds of everything that a coordinator does apart from greeting and merging.
* `Alters` lists what can become of workers, greetings and reports by one event: nothing new, a
  peer that is registered, a peer that cannot be greeted, or a reading that is attended to.
* `Inv.alters` opens the step of a coordinator accordingly.
-/

/-- Whether a message greets. -/
def Message.isHello : Message → Bool
  | .hello _ => true
  | _ => false

namespace Coordinator

variable {c d : Coordinator}

/-- Nobody is greeted, nobody becomes a worker, and no report is merged. -/
structure Retains (c d : Coordinator) : Prop where
  workers : d.workers = c.workers
  accepted : d.accepted = c.accepted
  log : ∃ ws, d.log = c.log ++ ws ∧ ∀ w ∈ ws, w.message.isHello = false

namespace Retains

/-- The log alone decides who is greeted. -/
theorem of_log (hworkers : d.workers = c.workers) (haccepted : d.accepted = c.accepted)
    (hlog : d.log = c.log) : c.Retains d :=
  ⟨hworkers, haccepted, [], by rw [hlog, List.append_nil], by simp⟩

theorem refl (c : Coordinator) : c.Retains c := of_log rfl rfl rfl

theorem trans {e : Coordinator} (h : c.Retains d) (h' : d.Retains e) : c.Retains e := by
  obtain ⟨ws, hlog, hws⟩ := h.log
  obtain ⟨vs, hlog', hvs⟩ := h'.log
  refine ⟨h'.workers.trans h.workers, h'.accepted.trans h.accepted, ws ++ vs, ?_, ?_⟩
  · rw [hlog', hlog, List.append_assoc]
  · intro w hw
    exact (List.mem_append.mp hw).elim (hws w) (hvs w)

theorem foldl {α : Type} {f : Coordinator → α → Coordinator} (h : ∀ c a, Retains c (f c a))
    (as : List α) (c : Coordinator) : c.Retains (as.foldl f c) := by
  induction as generalizing c with
  | nil => exact refl c
  | cons a as ih => exact (h c a).trans (ih (f c a))

end Retains

/-! ### What retains -/

theorem retains_write (c : Coordinator) (q : Nat) {m : Message} (hm : m.isHello = false) :
    c.Retains (c.write q m) :=
  ⟨rfl, rfl, [c.letter m q], rfl, fun w hw => by rwa [List.mem_singleton.mp hw, letter]⟩

theorem retains_send (c : Coordinator) (id : Nat) {m : Message} (hm : m.isHello = false) :
    c.Retains (c.send id m) := by
  unfold send
  split
  · split
    · exact c.retains_write _ hm
    · exact .refl c
  · exact .refl c

theorem retains_giveUp (c : Coordinator) (reason : String) (e : Error) :
    c.Retains (c.giveUp reason e) := by
  have habort : c.Retains (c.abort reason) :=
    .foldl (fun c q => c.retains_write q rfl) c.workers c
  exact habort.trans (.of_log rfl rfl rfl)

theorem retains_distribute (qs : List Nat) (c : Coordinator) :
    c.Retains (c.distribute qs).1 := by
  induction qs generalizing c with
  | nil => exact .refl c
  | cons q qs ih =>
    have hwrite : c.Retains (c.write q (.config c.setup.cfg)) := c.retains_write q rfl
    simp only [distribute]
    split
    · exact hwrite.trans (ih _)
    · exact hwrite

theorem retains_configure (c : Coordinator) : c.Retains c.configure := by
  have hdrop : c.Retains c.dropOthers := .of_log rfl rfl rfl
  have hdistribute := hdrop.trans (retains_distribute c.workers c.dropOthers)
  unfold configure
  split <;> rename_i heq <;> rw [heq] at hdistribute
  · exact hdistribute.trans (.of_log rfl rfl rfl)
  · exact hdistribute.trans (retains_giveUp _ _ _)

theorem retains_startWorker (c : Coordinator) (id : Nat) : c.Retains (c.startWorker id) := by
  unfold startWorker
  split
  · rename_i q _
    have hwrite : c.Retains (c.write q .start) := c.retains_write q rfl
    split
    · exact hwrite.trans (.of_log rfl rfl rfl)
    · exact hwrite.trans (.of_log rfl rfl rfl)
  · exact .refl c

theorem retains_onAnswer (c : Coordinator) (next deadline : Nat) (r : Reading) :
    c.Retains (c.onAnswer next deadline r) := by
  unfold onAnswer
  split
  · exact c.retains_giveUp _ _
  · split
    · exact .of_log rfl rfl rfl
    · have hregister : c.Retains c.registered := .of_log rfl rfl rfl
      have hstart := Retains.foldl retains_startWorker (List.range c.workers.length) c.registered
      exact (hregister.trans hstart).trans (.of_log rfl rfl rfl)

theorem retains_conclude (c : Coordinator) : c.Retains c.conclude := by
  unfold conclude
  split <;> exact .of_log rfl rfl rfl

theorem retains_leave (c : Coordinator) : c.Retains c.leave := by
  unfold leave
  split
  · exact c.retains_conclude
  · exact .refl c

theorem retains_settle (c : Coordinator) : c.Retains c.settle := by
  unfold settle
  split
  · have hphase : c.Retains { c with phase := .shuttingDown (c.now + shutdownMs c.setup) } :=
      .of_log rfl rfl rfl
    exact hphase.trans (retains_leave _)
  · exact .refl c

theorem retains_heed (c : Coordinator) : c.Retains c.heed := by
  have hsend : c.Retains (c.sendAll c.collector.active (.stop "interrupted")) :=
    .foldl (fun c id => c.retains_send id rfl) c.collector.active c
  exact hsend.trans (.of_log rfl rfl rfl)

theorem retains_expire (c : Coordinator) : c.Retains c.expire := by
  unfold expire
  split
  · exact c.retains_giveUp _ _
  · exact c.retains_giveUp _ _
  · have hlose : c.Retains c.loseActive := .of_log rfl rfl rfl
    exact hlose.trans (retains_settle _)
  · exact c.retains_conclude
  · exact .refl c

/-! ### What an event can do -/

/-- What a reading from the worker `id`, the peer `q`, means: the entry of this worker is attended
    to, the report is merged under this id if it is admitted, and only this peer is answered. -/
structure Credits (c : Coordinator) (id q : Nat) (r : Reading) (d : Coordinator) : Prop where
  entry : ∃ e, c.collector.entryOf? id = some e ∧
    d.collector.entryOf? id = some (e.attend id r).1 ∧
    d.accepted = c.accepted ++ (e.admits? r).toList.map (id, ·)
  others : ∀ j ≠ id, d.collector.entryOf? j = c.collector.entryOf? j
  workers : d.workers = c.workers
  log : ∃ ws, d.log = c.log ++ ws ∧ ∀ w ∈ ws, w.peer = q ∧ w.message.isHello = false

/-- What can become of workers, greetings and merged reports. -/
inductive Alters (c : Coordinator) (d : Coordinator) : CoordinatorEvent → Prop
  | retained {ev : CoordinatorEvent} (h : c.Retains d) : c.Alters d ev
  /-- A peer is told its id and is a worker from now on. -/
  | registered {q deadline : Nat} {x : Option UInt64} (hp : c.phase = .accepting deadline)
    (hfresh : c.heardFrom q = []) (hheard : d.heardFrom q = [.message (.hello x)])
    (h : (c.enlisted q).Retains d) : c.Alters d (.read q)
  /-- A peer cannot be told its id. -/
  | unreached {q : Nat} {x : Option UInt64} (hfresh : c.heardFrom q = [])
    (hheard : d.heardFrom q = [.message (.hello x)])
    (hlog : d.log = c.log ++ [⟨q, .hello (some (UInt64.ofNat c.workers.length)), false⟩])
    (hworkers : d.workers = c.workers) (haccepted : d.accepted = c.accepted) :
    c.Alters d (.read q)
  /-- A worker is attended to. -/
  | credited {id q : Nat} {r : Reading} {rest : List Reading} (hin : c.inbox q = r :: rest)
    (hq : c.workers[id]? = some q) (h : c.Credits id q r d) : c.Alters d (.read q)

/-- The answer to a worker is no greeting. -/
theorem isHello_attend {id : Nat} {e : WorkerEntry} {r : Reading} {m : Message}
    (hm : m ∈ (e.attend id r).2) : m.isHello = false := by
  cases r with
  | message m' =>
    by_cases hs : e.status = .active
    · simp only [WorkerEntry.attend, hs, if_true, WorkerEntry.judge] at hm
      split at hm
      · obtain rfl := Option.mem_some_iff.mp hm
        rfl
      · split at hm
        · obtain rfl := Option.mem_some_iff.mp hm
          rfl
        · cases hm
      · cases hm
    · rw [WorkerEntry.attend_of_ne hs] at hm
      cases hm
  | _ => cases hm

/-- Attending to a worker credits it, also when the phase ends with it. -/
theorem credits_of_attends {b : Coordinator} {id q : Nat} {r : Reading} {inbox : List Reading}
    {e : WorkerEntry} (hq : c.workers[id]? = some q) (he : c.collector.entryOf? id = some e)
    (ha : (c.take q r inbox).Attends id e r b) (hspares : b.Spares d) (hretains : b.Retains d) :
    c.Credits id q r d := by
  refine ⟨⟨e, he, ?_, ?_⟩, ?_, hretains.workers.trans (workers_of_rest ha.rest :), ?_⟩
  · rw [hspares.collector, ha.entries, if_pos rfl]
  · rw [hretains.accepted, ha.accepted]
    rfl
  · intro j hj
    rw [hspares.collector, ha.entries, if_neg hj]
    rfl
  · have hlog : b.log = c.log ++ (c.take q r inbox).answers id q e r := ha.log_eq hq
    refine ⟨_, hspares.log.trans hlog, fun w hw => ⟨peer_of_mem_answers hw, ?_⟩⟩
    rw [answers] at hw
    split at hw
    · obtain ⟨m, hm, rfl⟩ := List.mem_map.mp hw
      exact isHello_attend (Option.mem_toList.mp hm)
    · cases hw

/-- Reading from the start on. -/
theorem Started.credits (hb : c.Basics) (h : c.Started) {q : Nat} {r : Reading}
    {inbox : List Reading} (hlisten : c.listensTo q = true) :
    ∃ id, c.workers[id]? = some q ∧ c.Credits id q r ((c.take q r inbox).onRead q r) := by
  have htake : (c.take q r inbox).idOf? q = c.idOf? q := rfl
  obtain ⟨id, hid⟩ : ∃ id, c.idOf? q = some id := by
    cases hid : c.idOf? q with
    | some id => exact ⟨id, rfl⟩
    | none =>
      cases h with
      | _ hp => simp [listensTo, hp, hid] at hlisten
  have hq := (idOf?_eq_some_iff hb.nodup).mp hid
  obtain ⟨e, he⟩ := h.isUnderway.exists_entry hq
  refine ⟨id, hq, ?_⟩
  rw [onRead, phase_take]
  cases h with
  | running hp h =>
    have ha := attends_onReading (c := c.take q r inbox) he r
    simp only [hp, htake, hid]
    exact credits_of_attends hq he ha (spares_settle _) (retains_settle _)
  | shuttingDown hp h hsettled =>
    have hnodup : c.collector.ids.Nodup := h.ids ▸ List.nodup_range
    -- All workers are settled by then, this one as well.
    have hne := (Collector.isSettled_iff_entry hnodup).mp hsettled id e he
    have ha := attends_onLateReading (c := c.take q r inbox) he hne r
    simp only [hp, htake, hid]
    exact credits_of_attends hq he ha (spares_leave _) (retains_leave _)
  | finished hp h hsettled ho => simp [listensTo, hp] at hlisten

/-- The first reading of a peer. -/
theorem IsAccepting.alters {q deadline : Nat} {r : Reading} {inbox : List Reading}
    (h : c.IsAccepting) (hp : c.phase = .accepting deadline) (hlisten : c.listensTo q = true) :
    c.Alters ((c.take q r inbox).onRead q r) (.read q) := by
  simp only [listensTo, hp, Bool.and_eq_true, Option.isNone_iff_eq_none, idOf?_eq_none_iff]
    at hlisten
  obtain ⟨hkept, hnot⟩ := hlisten
  -- Whoever is listened to while workers are awaited has said nothing yet.
  obtain ⟨-, hfresh⟩ := h.fresh q hkept hnot
  have hheard : (c.take q r inbox).heardFrom q = [r] := by simp [hfresh]
  have hkeeps := keeps_onRead (c.take q r inbox) q r
  have hheard' : ((c.take q r inbox).onRead q r).heardFrom q = [r] := by
    rw [heardFrom, hkeeps.heard]
    exact hheard
  have hgreeting : (c.take q r inbox).onRead q r = (c.take q r inbox).onGreeting q r := by
    rw [onRead, phase_take, hp]
  rw [hgreeting] at hheard' ⊢
  -- Anything but a hello gets the peer dropped without a word.
  have hdrop : (c.take q r inbox).onGreeting q r = (c.take q r inbox).drop q →
      c.Alters ((c.take q r inbox).onGreeting q r) (.read q) := by
    intro heq
    rw [heq]
    exact .retained (.of_log rfl rfl rfl)
  cases r with
  | message m =>
    cases m with
    | hello x =>
      by_cases hcan : (c.take q (.message (.hello x)) inbox).canWrite q = true
      · refine .registered hp hfresh hheard' ?_
        have htaken : (c.enlisted q).Retains
            ((c.take q (.message (.hello x)) inbox).enlisted q) := .of_log rfl rfl rfl
        have henlist := enlist_of_canWrite hcan
        rw [onGreeting, henlist]
        split
        · exact htaken
        · exact htaken.trans (retains_configure _)
      · refine .unreached hfresh hheard' ?_ ?_ ?_ <;>
          rw [onGreeting, enlist_of_not_canWrite (by simpa using hcan)] <;> rfl
    | _ => exact hdrop rfl
  | _ => exact hdrop rfl

/-- **Inversion.** An event does one of the four to workers, greetings and merged reports. -/
theorem Inv.alters (h : c.Inv) (ev : CoordinatorEvent) : c.Alters (c.step ev) ev := by
  have hr := c.reacts_step ev
  generalize c.step ev = d at hr ⊢
  cases hr with
  | refused | late | again => exact .retained (.refl c)
  | welcome | arrive | sever | interrupt | advance => exact .retained (.of_log rfl rfl rfl)
  | heed => exact .retained c.retains_heed
  | expire => exact .retained c.retains_expire
  | @read q r inbox hlisten hin =>
    rcases h.stage with hprep | hs
    · cases hprep with
      | accepting hp hacc => exact hacc.alters hp hlisten
      | configuring hp hconf =>
        have htake : c.Retains (c.take q r inbox) := .of_log rfl rfl rfl
        rw [onRead, phase_take, hp]
        exact .retained (htake.trans (retains_onAnswer _ _ _ r))
      | calledOff hp => simp [listensTo, hp] at hlisten
    · obtain ⟨id, hq, hcredits⟩ := hs.credits h.basics hlisten
      exact .credited hin hq hcredits

end Coordinator

end TxLoad
