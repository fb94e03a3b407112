import TxLoad.Config.Basic
import TxLoad.Yaml.Value

namespace TxLoad.Config

/-!
# The configuration as a document

A configuration file is a YAML document: a mapping with any of the fields, where the others have
their defaults. `ofDocument` reads one and checks it.
-/

/-- Reads a mode or a method by its name, which is a variant. -/
def named (names : List String) (ofName? : String → Option α) (default : α) :
    Yaml.ValueReader α := fun d path events => do
  return (ofName? (← Yaml.variant names d path events)).getD default

/-- Reads the value of the field with the given name. -/
def readField (d : Yaml.Document) (name : String) (events : List Yaml.Placed) (c : Config) :
    Except Yaml.Fault Config := do
  let text := fun expected => Yaml.text expected d name events
  let word := fun expected => Yaml.word expected d name events
  match name with
  | "client_factory" => return { c with clientFactory := ← text "a string" }
  | "connections" => return { c with connections := ← word "usize" }
  | "time" => return { c with time := ← word "u64" }
  | "count" => return { c with count := ← Yaml.nullable (Yaml.word "u64") d name events }
  | "rate" => return { c with rate := ← word "u64" }
  | "size" => return { c with size := ← word "usize" }
  | "broadcast_mode" =>
    let mode := named (BroadcastMode.all.map (·.name)) BroadcastMode.ofName? c.broadcastMode
    return { c with broadcastMode := ← mode d name events }
  | "endpoints" => return { c with endpoints := ← Yaml.texts d name events }
  | "endpoint_select_method" =>
    let method := named (SelectMethod.all.map (·.name)) SelectMethod.ofName? c.selectMethod
    return { c with selectMethod := ← method d name events }
  | "expect_peers" => return { c with expectPeers := ← word "usize" }
  | "max_endpoints" => return { c with maxEndpoints := ← word "usize" }
  | "min_connectivity" => return { c with minConnectivity := ← word "usize" }
  | "peer_connect_timeout" => return { c with peerConnectTimeout := ← word "u64" }
  | "send_timeout" => return { c with sendTimeout := ← word "u64" }
  | "stats_output" =>
    return { c with statsOutput := ← Yaml.nullable (Yaml.text "path string") d name events }
  | "no_trap_interrupts" => return { c with noTrapInterrupts := ← Yaml.bool d name events }
  | _ => return c

/-- The configuration of a document. -/
def ofYaml (d : Yaml.Document) : Except Yaml.Fault Config :=
  Yaml.record "struct Config" fieldNames readField {} d

/-- Reads the configuration of a document and checks it. -/
def ofDocument (text : String) : Except ConfigError Config :=
  match Yaml.readDocument ofYaml text with
  | .ok c => c.checked
  | .error fault => .error (.unloadable fault.text)

end TxLoad.Config
