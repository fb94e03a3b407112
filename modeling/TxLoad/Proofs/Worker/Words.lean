import TxLoad.Proofs.Engine.Words
import TxLoad.Proofs.Worker.Abandoning

namespace TxLoad

/-!
# Workers reckon in words

A worker is sent its configuration by the coordinator, with fields of any size. Before it runs
anything it has the configuration checked and the clients made, and what comes out of both bounds all
that its engines reckon with: with the built-in factory, none of them ever leaves its words.

* `WorkerSetup.Runs`: the groups that a worker may have under a configuration that it accepts.
* `WorkerSetup.Runs.inRange`: the engines of such a group stay within the words.
* `Worker.RunsAccepted.step`: a worker runs nothing but the configuration that it has read and
  accepted.
* `Worker.inRange_run`: both together.
-/

/-! ### Accepted configurations -/

namespace WorkerSetup

variable {s : WorkerSetup} {cfg : Config} {g : Group}

/-- The configuration was accepted, and these are its clients and the endpoints that were found. -/
def Prepares (s : WorkerSetup) (cfg : Config) (clients : List Client) (pool : Pool) : Prop :=
  ∃ t resolution, Worker.prepare s cfg t = .ok (clients, resolution) ∧ resolution.pool = .ok pool

/-- The configuration was accepted, the engines were started at some instant, and have acted and been
    cancelled since in whichever order. -/
def Runs (s : WorkerSetup) (cfg : Config) (g : Group) : Prop :=
  ∃ clients pool, s.Prepares cfg clients pool ∧
    ∃ now calls, (Group.spawn cfg pool s.world.target clients now).Reaches calls g

theorem Prepares.runs {clients : List Client} {pool : Pool} (h : s.Prepares cfg clients pool)
    (now : Nat) : s.Runs cfg (Group.spawn cfg pool s.world.target clients now) :=
  ⟨clients, pool, h, now, _, .start⟩

theorem Runs.stepEngine (h : s.Runs cfg g) (i : Nat) : s.Runs cfg (g.stepEngine i) := by
  obtain ⟨clients, pool, hprepares, now, calls, hreaches⟩ := h
  exact ⟨clients, pool, hprepares, now, hreaches.stepEngine i⟩

theorem Runs.cancel (h : s.Runs cfg g) : s.Runs cfg g.cancel := by
  obtain ⟨clients, pool, hprepares, now, calls, hreaches⟩ := h
  exact ⟨clients, pool, hprepares, now, calls, hreaches.cancel⟩

/-- The clients of a run are made by the registry. -/
theorem newClients_of_prepare {t : Nat} {clients : List Client} {resolution : Discovery.Resolution}
    (h : Worker.prepare s cfg t = .ok (clients, resolution)) :
    s.registry.newClients cfg s.world.noise = .ok clients := by
  have hcheck := Config.check_eq_ok_iff.mpr (Worker.isValid_of_prepare h)
  simp only [Worker.prepare, hcheck, Except.bind] at h
  split at h
  · cases h
  · rename_i hclients
    cases h
    exact hclients

/-- **Words suffice.** Whatever configuration is accepted, if the built-in factory makes its clients
    then the engines stay within the words. -/
theorem Runs.inRange (h : s.Runs cfg g)
    (hfactory : s.registry.lookup cfg.clientFactory = .ok KeyValue.factory) :
    g.InRange cfg s.world.noise := by
  obtain ⟨clients, pool, ⟨t, resolution, hprepare, -⟩, now, calls, hreaches⟩ := h
  have hmade := newClients_of_prepare hprepare
  have hcheck := KeyValue.check_of_newClients hfactory hmade
  obtain ⟨width, hwidth, hroom, hmake⟩ := KeyValue.exists_width hcheck
  have hclients := Except.ok.inj
    (hmade.symm.trans (KeyValue.newClients_eq hfactory hcheck hmake s.world.noise))
  refine Group.inRange_of_reaches (Worker.isValid_of_prepare hprepare) hwidth hroom ?_ hreaches
  -- The client in a place was made from the randomness of this place.
  intro i client hi
  rw [hclients, List.getElem?_map, Option.map_eq_some_iff] at hi
  obtain ⟨j, hj, rfl⟩ := hi
  obtain ⟨hlt, rfl⟩ := List.getElem?_eq_some_iff.mp hj
  rw [List.getElem_range]

end WorkerSetup

/-! ### What a worker runs -/

/-- The configuration of a run that is prepared or ready was accepted. -/
def WorkerSetup.Accepts (s : WorkerSetup) : WorkerPhase → Prop
  | .preparing cfg clients resolution => ∃ t, Worker.prepare s cfg t = .ok (clients, resolution)
  | .ready cfg clients pool => s.Prepares cfg clients pool
  | _ => True

namespace Worker

variable {w : Worker} {s : WorkerSetup}

theorem accepts_writeThen (w : Worker) (m : Message) {next : WorkerPhase} (h : s.Accepts next) :
    s.Accepts (w.writeThen m next).phase := by
  unfold writeThen
  split
  · exact h
  · trivial

theorem accepts_miss (w : Worker) (deadline : Nat) : s.Accepts (w.miss deadline).phase := by
  unfold miss
  split <;> trivial

theorem accepts_onRead (h : w.setup.Accepts w.phase) (r : Reading) :
    w.setup.Accepts (w.onRead r).phase := by
  unfold onRead
  split
  case h_3 =>
    -- The configuration arrives: it is refused, or prepared at once.
    unfold configure
    split
    · exact accepts_writeThen _ _ trivial
    · rename_i hprepare
      exact ⟨_, hprepare⟩
  case h_9 =>
    unfold onRunning
    split
    · exact h
    · exact h
    · trivial
  case h_10 =>
    unfold onFinishing
    split
    · trivial
    · exact h
    · trivial
  case h_11 => exact h
  all_goals trivial

theorem accepts_expire (h : w.setup.Accepts w.phase) : w.setup.Accepts w.expire.phase := by
  unfold expire
  split
  · exact w.accepts_miss _
  · trivial
  · -- The endpoints are resolved: the clients are still those that were prepared.
    rename_i hp
    rw [hp] at h
    obtain ⟨t, hprepare⟩ := h
    unfold prepared
    split
    · rename_i hpool
      exact w.accepts_writeThen _ ⟨t, _, hprepare, hpool⟩
    · exact w.accepts_writeThen _ trivial
  · trivial
  · exact h

/-- A worker arranges no run but for a configuration that it accepts. -/
theorem accepts_step (h : w.setup.Accepts w.phase) (ev : WorkerEvent) :
    w.setup.Accepts (w.step ev).phase := by
  have hr := w.reacts_step ev
  generalize w.step ev = v at hr ⊢
  cases hr with
  | refused | arrive | sever | work | interrupt | advance => exact h
  | reach => exact w.accepts_writeThen _ trivial
  | miss => exact w.accepts_miss _
  | @read r inbox =>
    have htook : (w.took r inbox).setup.Accepts (w.took r inbox).phase := h
    exact accepts_onRead htook r
  | report =>
    simp only [report]
    split <;> trivial
  | conclude =>
    simp only [conclude]
    split <;> trivial
  | giveUp => trivial
  | expire => exact accepts_expire h

/-- A worker runs nothing but the configuration that it has read after its id, and has accepted. -/
structure RunsAccepted (w : Worker) : Prop where
  accepts : w.setup.Accepts w.phase
  runs : w.group.engines = [] ∨ ∃ x cfg,
    [.message (.hello (some x)), .message (.config cfg)] <+: w.heard ∧ w.setup.Runs cfg w.group

theorem runsAccepted_start (setup : WorkerSetup) (now : Nat) :
    (start setup now).RunsAccepted := ⟨trivial, .inl rfl⟩

/-- **Step lemma.** No event makes a worker run anything else. -/
theorem RunsAccepted.step (h : w.RunsAccepted) (hinv : w.Inv) (ev : WorkerEvent) :
    (w.step ev).RunsAccepted := by
  have hsetup := w.setup_step ev
  have hheard := w.heard_step ev
  have hstirs := w.stirs_step ev
  refine ⟨hsetup ▸ accepts_step h.accepts ev, ?_⟩
  rw [hsetup]
  generalize (w.step ev).group = group at hstirs ⊢
  cases hstirs with
  | begin hp hin =>
    -- A worker that is ready has read its id and the configuration, and nothing else.
    obtain ⟨x, hread⟩ := hinv.heard_of_ready hp
    have haccepts := h.accepts
    rw [hp] at haccepts
    exact .inr ⟨x, _, hread ▸ hheard, haccepts.runs _⟩
  | same =>
    obtain hnone | ⟨x, cfg, hread, hruns⟩ := h.runs
    · exact .inl hnone
    · exact .inr ⟨x, cfg, hread.trans hheard, hruns⟩
  | work i =>
    obtain hnone | ⟨x, cfg, hread, hruns⟩ := h.runs
    · exact .inl (by simp [Group.stepEngine, hnone])
    · exact .inr ⟨x, cfg, hread.trans hheard, hruns.stepEngine i⟩
  | cancel =>
    obtain hnone | ⟨x, cfg, hread, hruns⟩ := h.runs
    · exact .inl (by simp [hnone])
    · exact .inr ⟨x, cfg, hread.trans hheard, hruns.cancel⟩

/-- **Run lemma.** Nor do any events one after the other. -/
theorem RunsAccepted.run (h : w.RunsAccepted) (hinv : w.Inv) (es : List WorkerEvent) :
    (w.run es).RunsAccepted := by
  induction es generalizing w with
  | nil => exact h
  | cons ev es ih => exact ih (h.step hinv ev) (hinv.step ev)

/-- **Workers in words.** Under every configuration that a worker accepts and the built-in factory
    makes the clients for, all engines stay within the words, however they act and are cancelled. And
    whatever happens to a worker, the engines that it has run under the configuration that it has read
    and accepted. -/
theorem inRange_run (setup : WorkerSetup) :
    (∀ cfg g, setup.Runs cfg g →
      setup.registry.lookup cfg.clientFactory = .ok KeyValue.factory →
        g.InRange cfg setup.world.noise) ∧
      ∀ now es, ((start setup now).run es).group.engines = [] ∨ ∃ x cfg,
        [.message (.hello (some x)), .message (.config cfg)] <+: ((start setup now).run es).heard ∧
          setup.Runs cfg ((start setup now).run es).group := by
  refine ⟨fun cfg g h hfactory => h.inRange hfactory, fun now es => ?_⟩
  have hsetup : ((start setup now).run es).setup = setup := setup_run _ es
  have hruns := ((runsAccepted_start setup now).run (inv_start setup now) es).runs
  rwa [hsetup] at hruns

/-- The setup of a worker whose targets accept everything at once. -/
def obliged : WorkerSetup where
  settings := .of "localhost"
  registry := .builtin
  world := ⟨Discovery.silent, fun _ _ => .ideal, fun _ _ => Fin.last _⟩

/-- The greatest rate for the longest time. -/
def fullSpeed : Config :=
  { rate := 18446744073709551615, time := 31536000, endpoints := ["localhost"] }

/-- The first transaction is sent, and the engine has slept until the next millisecond. -/
def untilAwake : List WorkerEvent :=
  [.reach, .arrive (.message (.hello (some 0))), .read, .arrive (.message (.config fullSpeed)),
    .read, .expire, .arrive (.message .start), .read, .work 0, .work 0, .work 0, .work 0, .work 0,
    .advance 1]

/-- At the greatest rate the engine stays within the words, although it has come to owe quadrillions
    of transactions within a millisecond. -/
theorem inRange_run_fullSpeed :
    ((start obliged 0).run untilAwake).group.InRange fullSpeed obliged.world.noise ∧
      (((start obliged 0).run untilAwake).group.engines.map fun e =>
        (e.now, e.sent.length, e.pacer?.map (·.due (Clock.nanos e.now)))) =
          [(1, 1, some 18446744073709551)] := by
  have hheard : ((start obliged 0).run untilAwake).heard =
      [.message (.hello (some 0)), .message (.config fullSpeed), .message .start] := by decide +kernel
  have hsome : ((start obliged 0).run untilAwake).group.engines.length = 1 := by decide +kernel
  refine ⟨?_, by decide +kernel⟩
  obtain ⟨hall, hruns⟩ := inRange_run obliged
  obtain hnone | ⟨x, cfg, hread, hruns⟩ := hruns 0 untilAwake
  · rw [hnone] at hsome
    cases hsome
  · rw [hheard, List.cons_prefix_cons, List.cons_prefix_cons] at hread
    obtain ⟨-, hcfg, -⟩ := hread
    cases hcfg
    exact hall fullSpeed _ hruns rfl

end Worker

end TxLoad
