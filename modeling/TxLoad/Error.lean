import TxLoad.Text.Duration

namespace TxLoad

/-!
# What can go wrong

Failures are values that name their cause; `message` words them.

* `ConfigError` is found before any connection is opened;
* `ConnectivityError` makes a whole run impossible;
* `ProtocolError` is a fault on the link between coordinator and worker;
* `ConnectionError` stops a single connection and is never fatal to the run;
* `Error` is any of the first three, or a fault of the machine itself.
-/

/-- The settings that are spans of time, by the name that messages use. -/
inductive Setting where
  | time
  | sendTimeout
  | peerConnectTimeout
  | workerConnectTimeout
  | shutdownWait
  | connectTimeout
  | ackTimeout
  | reportInterval
  deriving DecidableEq, Repr

def Setting.name : Setting → String
  | time => "time"
  | sendTimeout => "send_timeout"
  | peerConnectTimeout => "peer_connect_timeout"
  | workerConnectTimeout => "worker_connect_timeout"
  | shutdownWait => "shutdown_wait"
  | connectTimeout => "connect_timeout"
  | ackTimeout => "ack_timeout"
  | reportInterval => "report_interval"

inductive ConfigError where
  /-- A transaction cannot hold its key and one character of value. -/
  | tooSmall (size least : Nat)
  /-- No key suffix that may be used tells so many transactions apart. -/
  | tooManyTransactions (count : Nat)
  | zeroTransactions
  | invalidAlphabet (size : Nat)
  | zeroRate
  | zeroConnections
  | zeroTime
  | zeroWorkers
  | zeroReportInterval
  | tooLong (setting : Setting) (limit : Nat)
  | noEndpoints
  | invalidEndpoint (text : String)
  | duplicateFactory (name : String)
  | unknownFactory (name : String)
  /-- A worker cannot run the configuration. -/
  | rejected (worker : Nat) (reason : String)
  | unloadable (reason : String)
  deriving DecidableEq, Repr

def ConfigError.message : ConfigError → String
  | tooSmall size least =>
    s!"transaction size {size} is too small for given parameters " ++
      s!"(should be at least {least} bytes)"
  | tooManyTransactions count =>
    s!"cannot cater for maximum tx count of {count} (too many unique transactions)"
  | zeroTransactions =>
    "cannot calculate an appropriate maximum number of transactions per connection (got 0)"
  | invalidAlphabet size => s!"alphabet of {size} symbols cannot encode unique keys"
  | zeroRate => "rate must be greater than zero"
  | zeroConnections => "number of connections must be greater than zero"
  | zeroTime => "test duration must be greater than zero"
  | zeroWorkers => "expected number of workers must be greater than zero"
  | zeroReportInterval => "report interval must be greater than zero"
  | tooLong setting limit => s!"{setting.name} must not exceed {limit} seconds"
  | noEndpoints => "no endpoints supplied"
  | invalidEndpoint text => "invalid endpoint '" ++ text ++ "'"
  | duplicateFactory name => "client factory '" ++ name ++ "' is already registered"
  | unknownFactory name => "unknown client factory '" ++ name ++ "'"
  | rejected worker reason => s!"worker {worker} rejected the configuration: {reason}"
  | unloadable reason => s!"failed to load configuration: {reason}"

inductive ConnectivityError where
  | insufficientEndpoints (got expected : Nat)
  | workerConnectTimeout (got expected : Nat)
  | coordinatorConnectTimeout (address : String)
  | controlLinkLost
  | allWorkersFailed (failed : Nat)
  deriving DecidableEq, Repr

def ConnectivityError.message : ConnectivityError → String
  | insufficientEndpoints got expected =>
    s!"insufficient endpoints: got {got}, expected at least {expected}"
  | workerConnectTimeout got expected =>
    s!"timed out waiting for workers to connect: got {got}, expected {expected}"
  | coordinatorConnectTimeout address =>
    s!"timed out connecting to the coordinator at {address}"
  | controlLinkLost => "lost control link to the coordinator"
  | allWorkersFailed failed => s!"all {failed} workers failed before completing the run"

/-- A transaction cannot be generated. -/
inductive ClientError where
  | exhausted (capacity : Nat)
  deriving DecidableEq, Repr

def ClientError.message : ClientError → String
  | exhausted capacity => s!"unique key space of {capacity} transactions is exhausted"

inductive ConnectionError where
  /-- Nothing was heard for so many nanoseconds. -/
  | timeout (ns : Nat)
  | connect (reason : String)
  | transport (reason : String)
  | status (code : Nat)
  /-- The endpoint refused the transaction. -/
  | rpc (reason : String)
  | client (error : ClientError)
  deriving DecidableEq, Repr

def ConnectionError.message : ConnectionError → String
  | timeout ns => s!"timed out after {Text.duration ns}"
  | connect reason => s!"failed to connect: {reason}"
  | transport reason => s!"transport failure: {reason}"
  | status code => s!"endpoint responded with HTTP status {code}"
  | rpc reason => s!"endpoint rejected transaction: {reason}"
  | client error => error.message

inductive ProtocolError where
  /-- The link itself fails. -/
  | io (reason : String)
  /-- A line is no message. -/
  | malformed
  | unexpected (expected got : String)
  | unregistered (worker : Nat)
  /-- A cumulative report falls below the one before it. -/
  | nonMonotonic (worker : Nat) (previousRequests previousBytes requests bytes : UInt64)
  | disconnected (worker : Nat)
  | ackTimeout (worker : Nat)
  | aborted (reason : String)
  deriving DecidableEq, Repr

def ProtocolError.message : ProtocolError → String
  | io reason => reason
  | malformed => "malformed message: ..."
  | unexpected expected got => s!"expected {expected}, got {got}"
  | unregistered worker => s!"message from unregistered worker {worker}"
  | nonMonotonic worker previousRequests previousBytes requests bytes =>
    s!"non-monotonic report from worker {worker}: {previousRequests} requests/{previousBytes} " ++
      s!"bytes, then {requests} requests/{bytes} bytes"
  | disconnected worker => s!"worker {worker} disconnected without a final report"
  | ackTimeout worker => s!"worker {worker} did not acknowledge the configuration in time"
  | aborted reason => s!"run aborted by the coordinator: {reason}"

inductive Error where
  | config (error : ConfigError)
  | connectivity (error : ConnectivityError)
  | protocol (error : ProtocolError)
  | io (reason : String)
  deriving DecidableEq, Repr

/-- The class of a failure, which starts its wording; a fault of the machine has none. -/
def Error.label : Error → Option String
  | config _ => some "invalid configuration"
  | connectivity _ => some "connectivity failure"
  | protocol _ => some "protocol violation"
  | io _ => none

/-- The wording of a failure without its class. -/
def Error.cause : Error → String
  | config e => e.message
  | connectivity e => e.message
  | protocol e => e.message
  | io reason => reason

def Error.message (e : Error) : String :=
  match e.label with
  | some label => s!"{label}: {e.cause}"
  | none => e.cause

/-- The wording of a failure with its cause once more behind it, as the program complains of it. -/
def Error.complaint (e : Error) : String :=
  match e.label with
  | some label => s!"{label}: {e.cause}: {e.cause}"
  | none => e.cause

end TxLoad
