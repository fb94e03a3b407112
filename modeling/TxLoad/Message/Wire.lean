import TxLoad.Config.Wire
import TxLoad.Message.Basic

namespace TxLoad

/-!
# Messages as JSON

A message is an object whose member `type` names the kind; the other members are its content.

* `Message.toJson` and `Message.wire` write a message;
* `Message.ofJson?` reads one. Members may come in any order and unknown ones are skipped, but the
  value is kept as a whole before it is read, so that all of it has to be sound. An array of the
  kind and the content's fields in order is read as well.
-/

namespace Report

/-- The names of the fields, in order. -/
def fieldNames : List String := ["num_requests", "bytes_tx", "num_errors", "completed"]

def toJson (r : Report) : Json :=
  .object (fieldNames.zip
    [Config.wordJson r.requests, Config.wordJson r.bytes, Config.wordJson r.errors,
     .bool r.completed])

/-- Reads a report; only the number of errors may be missing. -/
def ofJson? (v : Json) : Option Report :=
  (v.record? fieldNames).bind fun r =>
    match r.values with
    | [some requests, some bytes, errors, some completed] => do
      return {
        requests := ← requests.word?
        bytes := ← bytes.word?
        errors := ← Json.orDefault Json.word? 0 errors
        completed := ← completed.bool? }
    | _ => none

end Report

namespace Message

/-- The content of a message: its members beside the kind. -/
def content : Message → List (String × Json)
  | hello id => [("id", Config.nullableJson Config.wordJson id)]
  | config cfg => [("cfg", cfg.toJson)]
  | abort reason => [("reason", .string reason)]
  | ready => []
  | reject reason => [("reason", .string reason)]
  | start => []
  | statsReport report => [("report", report.toJson)]
  | ack => []
  | stop reason => [("reason", .string reason)]

def toJson (m : Message) : Json := .object (("type", .string m.kind) :: m.content)

/-- The text of a message, a single line. -/
def wire (m : Message) : String := m.toJson.render

/-- The content's only field of the given name, which must be there. -/
def soleField? (name : String) (content : Json) : Option Json :=
  (content.record? [name]).bind fun r =>
    match r.values with
    | [v] => v
    | _ => none

/-- Reads the id of a hello. As a member it may be missing. -/
def helloId? (content : Json) : Option (Option UInt64) :=
  (content.record? ["id"]).bind fun r =>
    match r.values with
    | [some v] => Json.nullable? Json.word? v
    -- In an array an absent item is not the same as null.
    | [none] => if r.positional then none else some none
    | _ => none

/-- Whether there is content of a kind that has none: any members, but no items. -/
def isBare : Json → Bool
  | .array items => items.isEmpty
  | _ => true

/-- Reads a message of the given kind from its content. -/
def ofContent? (kind : String) (content : Json) : Option Message :=
  let reason? := (soleField? "reason" content).bind Json.string?
  let bare := fun (m : Message) => if isBare content then some m else none
  match kind with
  | "hello" => (helloId? content).map .hello
  | "config" => ((soleField? "cfg" content).bind (Config.ofJson? true)).map .config
  | "abort" => reason?.map .abort
  | "ready" => bare .ready
  | "reject" => reason?.map .reject
  | "start" => bare .start
  | "stats_report" => ((soleField? "report" content).bind Report.ofJson?).map .statsReport
  | "ack" => bare .ack
  | "stop" => reason?.map .stop
  | _ => none

/-- Reads a message from a value. -/
def ofJson? (v : Json) : Option Message :=
  if v.isAdmissible then
    match v with
    | .object members =>
      match Json.field? members "type" with
      | some (some (.string kind)) =>
        ofContent? kind (.object (members.filter fun m => m.1 ≠ "type"))
      | _ => none
    | .array (.string kind :: items) => ofContent? kind (.array items)
    | _ => none
  else none

/-- Reads a message from a text. -/
def ofWire? (text : String) : Option Message := (Json.parse text).bind ofJson?

end Message

end TxLoad
