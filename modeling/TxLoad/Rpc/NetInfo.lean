import TxLoad.Discovery
import TxLoad.Rpc.Basic

namespace TxLoad.Rpc

/-!
# Peers as an endpoint lists them

The body of a reply about an endpoint's peers is a JSON document with their number, which may be
written as a string, and a list of peers with their host and the address that they advertise for
requests. Of that address only the port counts, since it usually names all interfaces.
-/

/-- A number that may be written as a string. -/
def countOf? : Json → Option UInt64
  | .string s => Text.readWord s
  | v => v.word?

/-- The port of an advertised address; the default one if the address cannot be read. -/
def advertisedPort (address : String) : Nat :=
  match Endpoint.parse address with
  | .ok e => e.port
  | .error _ => Endpoint.defaultPort

/-- The address that a node advertises, empty by default. -/
def rpcAddress? (other : Json) : Option String :=
  (other.record? ["rpc_address"]).bind fun r =>
    match r.values with
    | [address] => Json.orDefault Json.string? "" address
    | _ => none

/-- The same, of the node's description. -/
def nodeAddress? (info : Json) : Option String :=
  (info.record? ["other"]).bind fun r =>
    match r.values with
    | [other] => Json.orDefault rpcAddress? "" other
    | _ => none

/-- A peer: its host and the port that it advertises. -/
def peer? (v : Json) : Option Endpoint :=
  (v.record? ["remote_ip", "node_info"]).bind fun r =>
    match r.values with
    | [some host, info] => do
      let host ← host.string?
      let address ← Json.orDefault nodeAddress? "" info
      return Endpoint.of host (advertisedPort address)
    | _ => none

def peers? : Json → Option (List Endpoint)
  | .array items => items.mapM peer?
  | _ => none

/-- The result of the document. -/
def netInfoResult? (v : Json) : Option NetInfo :=
  (v.record? ["n_peers", "peers"]).bind fun r =>
    match r.values with
    | [some count, peers] => do
      let count ← countOf? count
      let peers ← Json.orDefault peers? [] peers
      return ⟨count.toNat, peers⟩
    | _ => none

/-- The whole document. -/
def netInfo? (v : Json) : Option NetInfo :=
  (v.record? ["result"]).bind fun r =>
    match r.values with
    | [some result] => netInfoResult? result
    | _ => none

/-- Reads the body of a reply. -/
def readNetInfo (body : List UInt8) : Except ConnectionError NetInfo :=
  match (valueOf? body).bind netInfo? with
  | some info => .ok info
  | none => .error (.transport "invalid net_info")

/-- What a reply says about an endpoint's peers. -/
def netInfoOf (reply : Reply) : Except ConnectionError NetInfo :=
  (bodyOf reply).bind readNetInfo

end TxLoad.Rpc
