import TxLoad.Rpc.NetInfo
import TxLoad.Proofs.Endpoint.Literals
import TxLoad.Proofs.Json.Paths
import TxLoad.Proofs.Json.RoundTrip
import TxLoad.Proofs.Message.Lines

namespace TxLoad.Rpc

/-!
# What a list of peers is read as

A document carries the number of an endpoint's peers and the peers themselves: the host of each, and
the address that it advertises for requests, if any. Members may stand in any order and among others
that nobody asks for. Each peer becomes an endpoint of its own host. Only the port is taken from its
address: it is the one that follows a host there, and the default one where there is no address, no
port, or nothing that can be read.

An address without a host, as of a node that listens everywhere, cannot be read, so that its port is
lost.

* `Rpc.StandsFor`: the port that an address stands for.
* `Rpc.Carries`: a body carries a number and a list of peers.
* `Rpc.readNetInfo_of_carries`: what a body is read as that carries a list.
* `Rpc.carries_document`: every list is carried by a body.
* `Rpc.readNetInfo_hostless`: a port that is lost.
-/

open Endpoint (Introduces NamesHost chars)
open Json (At Spells single skipSpace)

/-! ### Addresses -/

/-- The port that an advertised address stands for, or the lack of one. -/
inductive StandsFor : Option String → Nat → Prop where
  | absent : StandsFor none Endpoint.defaultPort
  /-- The address is no URI. -/
  | refused {s : String} (h : Uri.parse (Endpoint.uriText s.toList) = none) :
    StandsFor (some s) Endpoint.defaultPort
  /-- Nothing but perhaps a colon follows the host. -/
  | portless {s : String} {a : List Char} (h : Uri.parse (Endpoint.uriText s.toList) = some a)
    (hhost : Uri.behind '@' a = Uri.hostOf a ∨ Uri.behind '@' a = Uri.hostOf a ++ [':']) :
    StandsFor (some s) Endpoint.defaultPort
  | port {s : String} {pre h : List Char} {port : Nat} (hpre : Introduces pre) (hh : NamesHost h)
    (hport : port ≤ 65535) (hs : s.toList = pre ++ chars h port)
    (hlength : (String.ofList (Endpoint.uriText s.toList)).utf8ByteSize ≤ Uri.maxLength) :
    StandsFor (some s) port
  /-- Nothing stands before the port but perhaps a scheme. -/
  | hostless {s : String} {pre : List Char} {port : Nat} (hpre : Introduces pre)
    (hs : s.toList = pre ++ chars [] port) : StandsFor (some s) Endpoint.defaultPort

/-- The port that is taken from an address, if there is one. -/
def portOf (address : Option String) : Nat := (address.map advertisedPort).getD Endpoint.defaultPort

theorem advertisedPort_of_ok {s : String} {e : Endpoint} (h : Endpoint.parse s = .ok e) :
    advertisedPort s = e.port := by
  rw [advertisedPort, h]

theorem advertisedPort_of_error {s : String} {error : ConfigError}
    (h : Endpoint.parse s = .error error) : advertisedPort s = Endpoint.defaultPort := by
  rw [advertisedPort, h]

/-- **Ports.** What is taken from an address is the port that it stands for. -/
theorem StandsFor.portOf_eq {address : Option String} {port : Nat} (h : StandsFor address port) :
    portOf address = port := by
  cases h with
  | absent => rfl
  | @refused s h =>
    have hparse : Endpoint.parse s = .error (.invalidEndpoint s) := by rw [Endpoint.parse, h]
    exact advertisedPort_of_error hparse
  | @portless s a h hhost =>
    by_cases hne : Uri.hostOf a = []
    · have hparse : Endpoint.parse s = .error (.invalidEndpoint s) := by
        rw [Endpoint.parse, h]
        simp [hne]
      exact advertisedPort_of_error hparse
    · have hnone := Uri.portOf_eq_none (Uri.isAuthority_of_parse h).1 hne hhost
      have hparse : Endpoint.parse s =
          .ok (.of (String.ofList (Uri.hostOf a)) Endpoint.defaultPort) := by
        rw [Endpoint.parse, h]
        simp [hne, hnone]
      exact advertisedPort_of_ok hparse
  | port hpre hh hport hs hlength =>
    exact advertisedPort_of_ok (Endpoint.parse_append_chars hpre hh hport hs hlength)
  | hostless hpre hs => exact advertisedPort_of_error (Endpoint.parse_append_chars_nil hpre hs)

/-- A host of any kind stands for the default port if none follows it. -/
theorem standsFor_of_namesHost {s : String} {pre h : List Char} (hpre : Introduces pre)
    (hh : NamesHost h) (hs : s.toList = pre ++ h) : StandsFor (some s) Endpoint.defaultPort := by
  have halone := hh.standsAlone
  have hslash : '/' ∉ h := fun hmem => Bool.noConfusion (halone.isAuthority.1 _ hmem)
  obtain ⟨scheme, hscheme, huri⟩ := Endpoint.exists_uriText_eq hpre hslash
  rw [← hs] at huri
  by_cases hlength : (String.ofList (Endpoint.uriText s.toList)).utf8ByteSize ≤ Uri.maxLength
  · rw [huri] at hlength
    have hparse :=
      Uri.parse_append_authority hscheme halone.isAuthority halone.isHost.ne_nil hlength
    rw [← huri] at hparse
    refine .portless hparse (.inl ?_)
    rw [halone.isHost.hostOf_eq halone.not_mem_at, Uri.behind_of_not_mem halone.not_mem_at]
  · exact .refused (if_pos (Nat.lt_of_not_le hlength))

/-! ### Documents -/

/-- A peer as a document lists it. -/
structure Peer where
  host : String
  /-- The address that it advertises for requests. -/
  address : Option String

/-- The endpoint that a peer becomes. -/
def Peer.endpoint (p : Peer) : Endpoint := Endpoint.of p.host (portOf p.address)

/-- A value describes a peer. -/
def Describes (v : Json) (p : Peer) : Prop :=
  At v ["remote_ip"] (some (.string p.host)) ∧
    At v ["node_info", "other", "rpc_address"] (p.address.map .string)

/-- A number as it may be written. -/
inductive IsCount (count : UInt64) : Json → Prop where
  | number : IsCount count (.number (.word count))
  | text : IsCount count (.string (Text.decimal count.toNat))

/-- A list of peers as it may be written: no list at all if there are none. -/
inductive IsList : Option Json → List Peer → Prop where
  | missing : IsList none []
  | array {items : List Json} {peers : List Peer} (h : List.Forall₂ Describes items peers) :
    IsList (some (.array items)) peers

/-- A value is a document with the given number and the given peers. -/
def IsDocument (v : Json) (count : UInt64) (peers : List Peer) : Prop :=
  ∃ result n list, At v ["result"] (some result) ∧ At result ["n_peers"] (some n) ∧
    IsCount count n ∧ At result ["peers"] list ∧ IsList list peers

/-- A body is the text of such a document. -/
def Carries (body : List UInt8) (count : UInt64) (peers : List Peer) : Prop :=
  ∃ text r v, body = Message.utf8 text ∧ Spells text.toList (.value v) r ∧ skipSpace r = [] ∧
    IsDocument v count peers

/-! ### Reading -/

section

variable {v : Json}

/-- An address under a path is found by what reads the rest of the path, behind a default for
    what is missing. -/
theorem exists_member_of_at {name : String} {path : List String} {address : Option String}
    {read : Json → Option String} (h : At v (name :: path) (address.map .string))
    (hread : ∀ w, At w path (address.map .string) → read w = some (address.getD "")) :
    ∃ w, At v [name] w ∧ Json.orDefault read "" w = some (address.getD "") := by
  obtain ⟨w, hw, hsome, hnone⟩ := h.exists_of_cons
  refine ⟨w, hw, ?_⟩
  cases w with
  | none =>
    rw [Option.map_eq_none_iff.mp (hnone rfl)]
    rfl
  | some w => exact hread w (hsome w rfl)

theorem string?_of_at {address : Option String} (h : At v [] (address.map .string)) :
    v.string? = some (address.getD "") := by
  cases address with
  | none => cases h
  | some address =>
    cases h
    rfl

theorem rpcAddress?_of_at {address : Option String}
    (h : At v ["rpc_address"] (address.map .string)) :
    rpcAddress? v = some (address.getD "") := by
  obtain ⟨w, hw, hread⟩ := exists_member_of_at h fun _ => string?_of_at
  rw [rpcAddress?, Json.record?_of_at (by decide) (.cons hw .nil)]
  exact hread

theorem nodeAddress?_of_at {address : Option String}
    (h : At v ["other", "rpc_address"] (address.map .string)) :
    nodeAddress? v = some (address.getD "") := by
  obtain ⟨other, hother, hread⟩ := exists_member_of_at h fun _ => rpcAddress?_of_at
  rw [nodeAddress?, Json.record?_of_at (by decide) (.cons hother .nil)]
  exact hread

/-- No address is read like one that is empty. -/
theorem advertisedPort_getD (address : Option String) :
    advertisedPort (address.getD "") = portOf address := by
  cases address with
  | none =>
    have hempty : Endpoint.parse "" = .error (.invalidEndpoint "") := by decide +kernel
    exact advertisedPort_of_error hempty
  | some s => rfl

/-- **Peers.** Whatever its address, a peer becomes an endpoint of its host. -/
theorem peer?_of_describes {p : Peer} (h : Describes v p) : peer? v = some p.endpoint := by
  obtain ⟨hhost, haddress⟩ := h
  obtain ⟨info, hinfo, hread⟩ := exists_member_of_at haddress fun _ => nodeAddress?_of_at
  rw [peer?, Json.record?_of_at (by decide) (.cons hhost (.cons hinfo .nil))]
  simp [hread, Json.string?, advertisedPort_getD, Peer.endpoint]

theorem peers?_of_isList {list : Option Json} {peers : List Peer} (h : IsList list peers) :
    Json.orDefault peers? [] list = some (peers.map Peer.endpoint) := by
  cases h with
  | missing => rfl
  | array h =>
    refine Json.mapM_of_forall₂ (List.forall₂_map_right_iff.mpr ?_)
    exact h.imp fun _ _ => peer?_of_describes

theorem countOf?_of_isCount {count : UInt64} (h : IsCount count v) : countOf? v = some count := by
  cases h with
  | number => rfl
  | text => exact Text.readWord_decimal count

theorem netInfo?_of_isDocument {count : UInt64} {peers : List Peer}
    (h : IsDocument v count peers) :
    netInfo? v = some ⟨count.toNat, peers.map Peer.endpoint⟩ := by
  obtain ⟨result, n, list, hresult, hn, hcount, hlist, hpeers⟩ := h
  rw [netInfo?, Json.record?_of_at (by decide) (.cons hresult .nil)]
  show netInfoResult? result = _
  rw [netInfoResult?, Json.record?_of_at (by decide) (.cons hn (.cons hlist .nil))]
  simp [countOf?_of_isCount hcount, peers?_of_isList hpeers]

end

theorem readNetInfo_eq {body : List UInt8} {count : UInt64} {peers : List Peer}
    (h : Carries body count peers) :
    readNetInfo body = .ok ⟨count.toNat, peers.map Peer.endpoint⟩ := by
  obtain ⟨text, r, v, rfl, hspells, hr, hdocument⟩ := h
  have hvalue : valueOf? (Message.utf8 text) = some v := by
    rw [valueOf?, Message.ofUtf8?_utf8]
    exact Json.parse_eq_some_iff.mpr ⟨r, hspells, hr⟩
  rw [readNetInfo, hvalue, Option.bind_some, netInfo?_of_isDocument hdocument]

/-! ### Bodies -/

/-- A plain value is carried by its text. -/
theorem carries_render {v : Json} {count : UInt64} {peers : List Peer} (hv : v.isPlain = true)
    (h : IsDocument v count peers) : Carries (Message.utf8 v.render) count peers := by
  obtain ⟨r, hspells, hr⟩ := Json.parse_eq_some_iff.mp (Json.parse_render hv)
  exact ⟨_, r, v, rfl, hspells, hr, h⟩

/-- The description of a peer with nothing else in it. -/
def Peer.toJson (p : Peer) : Json :=
  let info := p.address.map fun address =>
    ("node_info", single "other" (single "rpc_address" (.string address)))
  .object (("remote_ip", .string p.host) :: info.toList)

/-- The document with nothing else in it. -/
def document (count : UInt64) (peers : List Peer) : Json :=
  single "result" (.object [("n_peers", .number (.word count)),
    ("peers", .array (peers.map Peer.toJson))])

theorem describes_toJson (p : Peer) : Describes p.toJson p := by
  rcases p with ⟨host, _ | address⟩
  · refine ⟨.of_filter rfl (.here _), .missing ⟨_, rfl, ?_⟩⟩
    simp
  · refine ⟨.of_filter rfl (.here _), .of_filter rfl ?_⟩
    exact .single (.single (.here _))

theorem isPlain_toJson (p : Peer) : p.toJson.isPlain = true := by
  rcases p with ⟨host, _ | address⟩ <;> rfl

theorem isPlain_document (count : UInt64) (peers : List Peer) :
    (document count peers).isPlain = true := by
  have hitems : Json.isPlainItems (peers.map Peer.toJson) = true := by
    induction peers with
    | nil => rfl
    | cons p peers ih => simp [Json.isPlainItems, isPlain_toJson, ih]
  simp [document, single, Json.isPlain, Json.isPlainMembers, hitems]

theorem isDocument_document (count : UInt64) (peers : List Peer) :
    IsDocument (document count peers) count peers := by
  refine ⟨_, _, _, .single (.here _), .of_filter rfl (.here _), .number,
    .of_filter rfl (.here _), .array ?_⟩
  exact List.forall₂_map_left_iff.mpr (List.forall₂_same.mpr fun p _ => describes_toJson p)

/-- **Bodies.** Every number with every list of peers is carried by a body. -/
theorem carries_document (count : UInt64) (peers : List Peer) :
    Carries (Message.utf8 (document count peers).render) count peers :=
  carries_render (isPlain_document count peers) (isDocument_document count peers)

/-! ### The main result -/

/-- **Lists of peers.** A body is read as the list that it carries: with its number, and with an
endpoint for each peer in the order of the list. Each has the peer's own host, and the port that the
peer's own address stands for. -/
theorem readNetInfo_of_carries {body : List UInt8} {count : UInt64} {peers : List Peer}
    (h : Carries body count peers) :
    readNetInfo body = .ok ⟨count.toNat, peers.map Peer.endpoint⟩ ∧
      ∀ p ∈ peers, ∀ port, StandsFor p.address port → p.endpoint = Endpoint.of p.host port :=
  ⟨readNetInfo_eq h, fun p _ port hport => by rw [Peer.endpoint, hport.portOf_eq]⟩

/-- A document with members in another order and with others between them, a number in quotes, and
three peers: one with a port, one of version 6, and one whose address is none. -/
def mixedDocument : Json :=
  .object [("jsonrpc", .string "2.0"), ("result", .object [
    ("peers", .array [
      .object [
        ("node_info", .object [("id", .null), ("other", single "rpc_address"
          (.string "tcp://0.0.0.0:36657"))]),
        ("remote_ip", .string "10.0.0.3")],
      .object [
        ("remote_ip", .string "fd00::2"),
        ("node_info", single "other" (single "rpc_address" (.string "[::]:26658"))),
        ("is_outbound", .bool true)],
      .object [
        ("remote_ip", .string "node"),
        ("node_info", single "other" (single "rpc_address" (.string "no address")))]]),
    ("listening", .bool true),
    ("n_peers", .string "3")])]

/-- The peers in it. -/
def mixedPeers : List Peer :=
  [⟨"10.0.0.3", some "tcp://0.0.0.0:36657"⟩, ⟨"fd00::2", some "[::]:26658"⟩,
    ⟨"node", some "no address"⟩]

theorem carries_mixedDocument : Carries (Message.utf8 mixedDocument.render) 3 mixedPeers := by
  have hcount : Text.decimal 3 = "3" := by
    simp [Text.decimal, Text.numeral]
    decide
  refine carries_render rfl ⟨_, _, _, .of_filter rfl (.here _), .of_filter rfl (.here _), ?_,
    .of_filter rfl (.here _), .array (.cons ?_ (.cons ?_ (.cons ?_ .nil)))⟩
  · rw [← hcount]
    exact .text
  · exact ⟨.of_filter rfl (.here _), .of_filter rfl (.of_filter rfl (.single (.here _)))⟩
  · exact ⟨.of_filter rfl (.here _), .of_filter rfl (.single (.single (.here _)))⟩
  · exact ⟨.of_filter rfl (.here _), .of_filter rfl (.single (.single (.here _)))⟩

/-- The first two peers have the ports of their addresses, and the third takes nothing from them. -/
theorem readNetInfo_mixedDocument : readNetInfo (Message.utf8 mixedDocument.render) =
    .ok ⟨3, [⟨"10.0.0.3", 36657⟩, ⟨"[fd00::2]", 26658⟩, ⟨"node", 26657⟩]⟩ := by
  obtain ⟨hread, hports⟩ := readNetInfo_of_carries carries_mixedDocument
  have hscheme : Uri.IsScheme "tcp".toList := ⟨by decide, by decide⟩
  have hv4 : Address.readOctets 4 true "0.0.0.0".toList = some ([0, 0, 0, 0], []) := by
    decide +kernel
  have hv6 : Address.readV6 "::".toList = some ([0, 0, 0, 0, 0, 0, 0, 0], []) := by decide +kernel
  have hfirst : StandsFor (some "tcp://0.0.0.0:36657") 36657 := by
    refine .port (.scheme hscheme) (.v4 hv4) (by decide) ?_ (by decide +kernel)
    simp [chars, Text.numeral]
    decide
  have hsecond : StandsFor (some "[::]:26658") 26658 := by
    refine .port .nothing (.v6 hv6) (by decide) ?_ (by decide +kernel)
    simp [chars, Text.numeral]
    decide
  have hthird : StandsFor (some "no address") 26657 := .refused (by decide +kernel)
  simp only [mixedPeers, List.forall_mem_cons] at hports
  obtain ⟨hp, hp', hp'', -⟩ := hports
  rw [hread]
  simp only [mixedPeers, List.map_cons, List.map_nil, hp _ hfirst, hp' _ hsecond, hp'' _ hthird]
  rfl

/-- A peer that says that it listens on every interface at 36657 is asked at 26657. -/
theorem readNetInfo_hostless :
    let peers : List Peer := [⟨"10.0.0.2", some "tcp://:36657"⟩]
    let body := Message.utf8 (document 1 peers).render
    Carries body 1 peers ∧ readNetInfo body = .ok ⟨1, [⟨"10.0.0.2", 26657⟩]⟩ ∧
      readNetInfo body ≠ .ok ⟨1, [⟨"10.0.0.2", 36657⟩]⟩ := by
  intro peers body
  have hcarries : Carries body 1 peers := carries_document 1 peers
  have hscheme : Uri.IsScheme "tcp".toList := ⟨by decide, by decide⟩
  have hport : portOf (some "tcp://:36657") = 26657 := by
    have htext : "tcp://:36657".toList = "tcp".toList ++ "://".toList ++ chars [] 36657 := by
      simp [chars, Text.numeral]
      decide
    exact (StandsFor.hostless (.scheme hscheme) htext).portOf_eq
  have hread : readNetInfo body = .ok ⟨1, [⟨"10.0.0.2", 26657⟩]⟩ := by
    rw [readNetInfo_eq hcarries]
    simp only [peers, List.map_cons, List.map_nil, Peer.endpoint, hport]
    rfl
  refine ⟨hcarries, hread, ?_⟩
  rw [hread]
  simp

end TxLoad.Rpc
