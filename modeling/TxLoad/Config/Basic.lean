import TxLoad.Error
import TxLoad.Text.Numeral

namespace TxLoad

/-!
# The configuration of a run

`Config` holds the parameters that all workers of a run share; they are 64-bit words wherever they
are numbers. `Config.check` refuses structural faults and names the first in a fixed order.
`Config.IsValid` says what the check lets through (`Config.check_eq_ok_iff`).
`Config.maxTransactions` bounds what one connection may send, and with it the keys it needs.
-/

/-- What a connection waits for after it has submitted a transaction. -/
inductive BroadcastMode where
  /-- Nothing. -/
  | async
  /-- The endpoint accepts the transaction. -/
  | sync
  /-- The transaction is committed. -/
  | commit
  deriving DecidableEq, Repr, Inhabited

namespace BroadcastMode

def all : List BroadcastMode := [async, sync, commit]

def name : BroadcastMode → String
  | async => "async"
  | sync => "sync"
  | commit => "commit"

/-- The name of the endpoint's method for the mode. -/
def method : BroadcastMode → String
  | async => "broadcast_tx_async"
  | sync => "broadcast_tx_sync"
  | commit => "broadcast_tx_commit"

def ofName? (s : String) : Option BroadcastMode := all.find? (·.name == s)

theorem ofName?_name (m : BroadcastMode) : ofName? m.name = some m := by cases m <;> rfl

end BroadcastMode

/-- How the set of target endpoints is built. -/
inductive SelectMethod where
  /-- The supplied endpoints. -/
  | supplied
  /-- The peers found through the supplied endpoints. -/
  | discovered
  /-- Both. -/
  | any
  deriving DecidableEq, Repr, Inhabited

namespace SelectMethod

def all : List SelectMethod := [supplied, discovered, any]

def name : SelectMethod → String
  | supplied => "supplied"
  | discovered => "discovered"
  | any => "any"

def ofName? (s : String) : Option SelectMethod := all.find? (·.name == s)

theorem ofName?_name (m : SelectMethod) : ofName? m.name = some m := by cases m <;> rfl

end SelectMethod

structure Config where
  /-- The name of the factory whose clients generate the transactions. -/
  clientFactory : String := "kvstore"
  /-- Connections per worker. -/
  connections : UInt64 := 1
  /-- The longest duration of the run, in seconds. -/
  time : UInt64 := 60
  /-- The most transactions per connection; without it only the time bounds the run. -/
  count : Option UInt64 := none
  /-- Transactions per second and connection. -/
  rate : UInt64 := 1000
  /-- Bytes per transaction. -/
  size : UInt64 := 250
  broadcastMode : BroadcastMode := .async
  /-- The supplied endpoints, as text. -/
  endpoints : List String := []
  selectMethod : SelectMethod := .supplied
  /-- Usable endpoints that discovery must find. -/
  expectPeers : UInt64 := 0
  /-- The most endpoints used; zero stands for no bound. -/
  maxEndpoints : UInt64 := 0
  /-- Peers that an endpoint must have to be usable. -/
  minConnectivity : UInt64 := 0
  /-- Bound on discovery, in seconds. -/
  peerConnectTimeout : UInt64 := 600
  /-- Bound on each connect and each send, in seconds. -/
  sendTimeout : UInt64 := 10
  /-- Where the summary is written. -/
  statsOutput : Option String := none
  /-- Whether interrupts are left alone. -/
  noTrapInterrupts : Bool := false
  deriving DecidableEq, Repr, Inhabited

/-- The longest span that a setting may have: a year of seconds. -/
def maxSeconds : Nat := 365 * 24 * 60 * 60

/-- Refuses a span above `maxSeconds`. -/
def checkSeconds (setting : Setting) (seconds : Nat) : Except ConfigError Unit :=
  if maxSeconds < seconds then .error (.tooLong setting maxSeconds) else .ok ()

theorem checkSeconds_eq_ok_iff {setting : Setting} {seconds : Nat} :
    checkSeconds setting seconds = .ok () ↔ seconds ≤ maxSeconds := by
  unfold checkSeconds
  split
  · rename_i h
    simp
    omega
  · rename_i h
    simp
    omega

namespace Config

/-- The names of the fields where a configuration is written out, in order. -/
def fieldNames : List String :=
  ["client_factory", "connections", "time", "count", "rate", "size", "broadcast_mode",
   "endpoints", "endpoint_select_method", "expect_peers", "max_endpoints", "min_connectivity",
   "peer_connect_timeout", "send_timeout", "stats_output", "no_trap_interrupts"]

/-- Refuses a configuration that no worker could run, whatever generates its transactions. -/
def check (cfg : Config) : Except ConfigError Unit := do
  if cfg.connections = 0 then throw .zeroConnections
  if cfg.rate = 0 then throw .zeroRate
  if cfg.time = 0 then throw .zeroTime
  if cfg.endpoints = [] then throw .noEndpoints
  checkSeconds .time cfg.time.toNat
  checkSeconds .sendTimeout cfg.sendTimeout.toNat
  checkSeconds .peerConnectTimeout cfg.peerConnectTimeout.toNat

/-- The checked configuration itself. -/
def checked (cfg : Config) : Except ConfigError Config := cfg.check.map fun _ => cfg

/-- The most transactions that one connection may send during the run. -/
def maxTransactions (cfg : Config) : Nat :=
  match cfg.count with
  | some count => count.toNat
  | none => min (cfg.rate.toNat * cfg.time.toNat) Text.wordMax

/-- A connection's bound is a 64-bit word. -/
theorem maxTransactions_le (cfg : Config) : cfg.maxTransactions ≤ Text.wordMax := by
  unfold maxTransactions
  split
  · rename_i c _
    have := c.toNat_lt_size
    unfold Text.wordMax
    omega
  · exact Nat.min_le_right _ _

/-- What a valid configuration satisfies. -/
structure IsValid (cfg : Config) : Prop where
  connections_pos : 0 < cfg.connections.toNat
  rate_pos : 0 < cfg.rate.toNat
  time_pos : 0 < cfg.time.toNat
  endpoints_ne_nil : cfg.endpoints ≠ []
  time_le : cfg.time.toNat ≤ maxSeconds
  sendTimeout_le : cfg.sendTimeout.toNat ≤ maxSeconds
  peerConnectTimeout_le : cfg.peerConnectTimeout.toNat ≤ maxSeconds

/-- A guard lets a check go on exactly if its condition does not hold. -/
theorem guard_eq_ok_iff {p : Prop} [Decidable p] {error : ConfigError}
    {rest : PUnit → Except ConfigError Unit} :
    (if p then throw error >>= rest else rest ⟨⟩) = .ok () ↔ ¬ p ∧ rest ⟨⟩ = .ok () := by
  by_cases hp : p
  · simp [hp, bind, Except.bind, throw, throwThe, MonadExceptOf.throw]
  · simp [hp]

theorem bind_eq_ok_iff {first : Except ConfigError Unit} {rest : Unit → Except ConfigError Unit} :
    (first >>= rest) = .ok () ↔ first = .ok () ∧ rest () = .ok () := by
  cases first <;> simp [bind, Except.bind]

/-- The check lets through exactly the valid configurations. -/
theorem check_eq_ok_iff {cfg : Config} : cfg.check = .ok () ↔ cfg.IsValid := by
  unfold check
  simp only [guard_eq_ok_iff, bind_eq_ok_iff, checkSeconds_eq_ok_iff]
  simp only [← UInt64.toNat_inj]
  constructor
  · rintro ⟨hconnections, hrate, htime, hendpoints, hle, hsend, hpeer⟩
    exact ⟨Nat.pos_of_ne_zero hconnections, Nat.pos_of_ne_zero hrate, Nat.pos_of_ne_zero htime,
      hendpoints, hle, hsend, hpeer⟩
  · rintro ⟨hconnections, hrate, htime, hendpoints, hle, hsend, hpeer⟩
    exact ⟨Nat.ne_of_gt hconnections, Nat.ne_of_gt hrate, Nat.ne_of_gt htime, hendpoints, hle,
      hsend, hpeer⟩
end Config

end TxLoad
