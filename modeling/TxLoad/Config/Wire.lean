import TxLoad.Config.Basic
import TxLoad.Json.Parser
import TxLoad.Json.Printer

namespace TxLoad.Config

/-!
# The configuration as JSON

A configuration travels as an object with all its fields, in a fixed order. It is read from an
object with any of them, where the others have their defaults, or from an array of them in order.
-/

/-- The JSON number of a word. -/
def wordJson (n : UInt64) : Json := .number (.word n)

/-- The JSON value of an optional field. -/
def nullableJson (f : α → Json) : Option α → Json
  | some a => f a
  | none => .null

/-- The values of the fields, in the order of their names. -/
def fieldValues (cfg : Config) : List Json :=
  [.string cfg.clientFactory, wordJson cfg.connections, wordJson cfg.time,
   nullableJson wordJson cfg.count, wordJson cfg.rate, wordJson cfg.size,
   .string cfg.broadcastMode.name, .array (cfg.endpoints.map .string),
   .string cfg.selectMethod.name, wordJson cfg.expectPeers, wordJson cfg.maxEndpoints,
   wordJson cfg.minConnectivity, wordJson cfg.peerConnectTimeout, wordJson cfg.sendTimeout,
   nullableJson .string cfg.statsOutput, .bool cfg.noTrapInterrupts]

def toJson (cfg : Config) : Json := .object (fieldNames.zip cfg.fieldValues)

/-- The text of a configuration. -/
def wire (cfg : Config) : String := cfg.toJson.render

/-- The configuration with the given field values, absent ones by default. -/
def ofValues? (emptyIsNull : Bool) : List (Option Json) → Option Config
  | [clientFactory, connections, time, count, rate, size, broadcastMode, endpoints, selectMethod,
      expectPeers, maxEndpoints, minConnectivity, peerConnectTimeout, sendTimeout, statsOutput,
      noTrapInterrupts] => do
    let d : Config := {}
    let mode := fun v => (Json.variant? emptyIsNull v).bind BroadcastMode.ofName?
    let method := fun v => (Json.variant? emptyIsNull v).bind SelectMethod.ofName?
    return {
      clientFactory := ← Json.orDefault Json.string? d.clientFactory clientFactory
      connections := ← Json.orDefault Json.word? d.connections connections
      time := ← Json.orDefault Json.word? d.time time
      count := ← Json.orDefault (Json.nullable? Json.word?) d.count count
      rate := ← Json.orDefault Json.word? d.rate rate
      size := ← Json.orDefault Json.word? d.size size
      broadcastMode := ← Json.orDefault mode d.broadcastMode broadcastMode
      endpoints := ← Json.orDefault Json.strings? d.endpoints endpoints
      selectMethod := ← Json.orDefault method d.selectMethod selectMethod
      expectPeers := ← Json.orDefault Json.word? d.expectPeers expectPeers
      maxEndpoints := ← Json.orDefault Json.word? d.maxEndpoints maxEndpoints
      minConnectivity := ← Json.orDefault Json.word? d.minConnectivity minConnectivity
      peerConnectTimeout := ← Json.orDefault Json.word? d.peerConnectTimeout peerConnectTimeout
      sendTimeout := ← Json.orDefault Json.word? d.sendTimeout sendTimeout
      statsOutput := ← Json.orDefault (Json.nullable? Json.string?) d.statsOutput statsOutput
      noTrapInterrupts := ← Json.orDefault Json.bool? d.noTrapInterrupts noTrapInterrupts }
  | _ => none

/-- Reads a configuration from a value. `emptyIsNull` is set for a value that was kept as a whole
    before it is read. -/
def ofJson? (emptyIsNull : Bool) (v : Json) : Option Config :=
  (v.record? fieldNames).bind fun r => ofValues? emptyIsNull r.values

/-- Reads a configuration from a text; parts of it that are no fields are skipped. -/
def ofWire? (text : String) : Option Config := (Json.parse text).bind (ofJson? false)

end TxLoad.Config
