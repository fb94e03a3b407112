import TxLoad.Config.Basic
import TxLoad.Stats.Report

namespace TxLoad

/-!
# Messages between coordinator and worker

A run is arranged by messages: a worker says hello and is told its id, is sent the configuration,
accepts or rejects it, waits for the start, reports its counters, and has its last report
acknowledged. The coordinator may abort before the start and stop a worker after it.
-/

inductive Message where
  /-- A worker announces itself without an id; the coordinator answers with the one assigned. -/
  | hello (id : Option UInt64)
  | config (cfg : Config)
  /-- The coordinator gives up before the start. -/
  | abort (reason : String)
  /-- The worker accepts the configuration. -/
  | ready
  /-- The worker cannot run the configuration. -/
  | reject (reason : String)
  | start
  | statsReport (report : Report)
  /-- The coordinator has received the last report. -/
  | ack
  /-- The coordinator asks the worker to send no more. -/
  | stop (reason : String)
  deriving DecidableEq, Repr

/-- The name of a message's kind. -/
def Message.kind : Message → String
  | hello _ => "hello"
  | config _ => "config"
  | abort _ => "abort"
  | ready => "ready"
  | reject _ => "reject"
  | start => "start"
  | statsReport _ => "stats_report"
  | ack => "ack"
  | stop _ => "stop"

/-- What the reader of a link comes upon: a message, a line that is none, a fault of the link, or
    the end. -/
inductive Reading where
  | message (m : Message)
  | malformed
  | unreadable
  | ended
  deriving DecidableEq, Repr

/-- The wording of a link whose bytes are no text. -/
def Reading.unreadableReason : String := "stream did not contain valid UTF-8"

end TxLoad
