import TxLoad.Address
import TxLoad.Clock
import TxLoad.Config.Basic

namespace TxLoad

/-!
# The settings of a coordinator and of a worker

Beside the configuration of the run, each role has settings of its own. Spans of the coordinator
are whole seconds, those of a worker milliseconds.
-/

structure CoordinatorSettings where
  /-- Where workers connect. -/
  bind : Address
  /-- Workers that must connect before the run starts. -/
  expectWorkers : UInt64
  /-- Bound on waiting for all workers, in seconds. -/
  workerConnectTimeout : UInt64
  /-- Grace period for workers to disconnect after the run, in seconds. -/
  shutdownWait : UInt64
  /-- Where metrics are served. -/
  metricsAddress : Option Address
  deriving DecidableEq, Repr

/-- Refuses settings under which no run could start or end. -/
def CoordinatorSettings.check (s : CoordinatorSettings) : Except ConfigError Unit := do
  if s.expectWorkers = 0 then throw .zeroWorkers
  checkSeconds .workerConnectTimeout s.workerConnectTimeout.toNat
  checkSeconds .shutdownWait s.shutdownWait.toNat

structure WorkerSettings where
  /-- The address of the coordinator. -/
  coordinator : String
  /-- Bound on reaching the coordinator, in milliseconds. -/
  connectTimeoutMs : Nat
  /-- Span between reports, in milliseconds. -/
  reportIntervalMs : Nat
  /-- Bound on waiting for the coordinator's last word, in milliseconds. -/
  ackTimeoutMs : Nat
  deriving DecidableEq, Repr

/-- The settings of a worker that is given nothing but the coordinator's address. -/
def WorkerSettings.of (coordinator : String) : WorkerSettings where
  coordinator := coordinator
  connectTimeoutMs := Clock.seconds 60
  reportIntervalMs := Clock.seconds 1
  ackTimeoutMs := Clock.seconds 10

/-- The settings of a worker, checked. The timeouts are given in seconds, the interval in
    milliseconds. -/
def WorkerSettings.ofParts (coordinator : String)
    (connectTimeout reportInterval ackTimeout : UInt64) : Except ConfigError WorkerSettings := do
  checkSeconds .connectTimeout connectTimeout.toNat
  checkSeconds .ackTimeout ackTimeout.toNat
  if reportInterval = 0 then throw .zeroReportInterval
  checkSeconds .reportInterval (reportInterval.toNat / 1000)
  return {
    coordinator := coordinator
    connectTimeoutMs := Clock.seconds connectTimeout.toNat
    reportIntervalMs := reportInterval.toNat
    ackTimeoutMs := Clock.seconds ackTimeout.toNat }

/-- The check lets only workers through whose reports are apart. -/
theorem WorkerSettings.reportIntervalMs_pos {coordinator : String}
    {connectTimeout reportInterval ackTimeout : UInt64} {s : WorkerSettings}
    (h : ofParts coordinator connectTimeout reportInterval ackTimeout = .ok s) :
    0 < s.reportIntervalMs := by
  by_cases hzero : reportInterval = 0
  · subst hzero
    simp only [ofParts, if_true, bind, Except.bind, throw, throwThe, MonadExceptOf.throw] at h
    repeat' split at h
    all_goals cases h
  · have hpos : 0 < reportInterval.toNat :=
      Nat.pos_of_ne_zero fun h => hzero (UInt64.toNat_inj.mp h)
    simp only [ofParts, if_neg hzero, bind, Except.bind, pure, Except.pure] at h
    repeat' split at h
    all_goals cases h
    exact hpos

end TxLoad
