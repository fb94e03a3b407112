import TxLoad.Error

namespace TxLoad

/-!
# The counters of a connection

`ConnectionStat` holds what one connection has done. The counters are 64-bit words and wrap; the
instants (in nanoseconds) and the error keep the first value they are given.
-/

structure ConnectionStat where
  requests : UInt64 := 0
  bytes : UInt64 := 0
  errors : UInt64 := 0
  started : Option Nat := none
  finished : Option Nat := none
  /-- The error that stopped the connection. -/
  error : Option ConnectionError := none
  deriving DecidableEq, Repr, Inhabited

namespace ConnectionStat

/-- Counts requests that were accepted. -/
def onRequests (s : ConnectionStat) (n : UInt64) : ConnectionStat :=
  { s with requests := s.requests + n }

/-- Counts bytes that were sent. -/
def onSend (s : ConnectionStat) (n : UInt64) : ConnectionStat := { s with bytes := s.bytes + n }

def onStarted (s : ConnectionStat) (ns : Nat) : ConnectionStat :=
  { s with started := s.started.orElse fun _ => some ns }

def onFinished (s : ConnectionStat) (ns : Nat) : ConnectionStat :=
  { s with finished := s.finished.orElse fun _ => some ns }

/-- Counts an error; the first one is kept. -/
def onError (s : ConnectionStat) (e : ConnectionError) : ConnectionStat :=
  { s with errors := s.errors + 1, error := s.error.orElse fun _ => some e }

end ConnectionStat

end TxLoad
