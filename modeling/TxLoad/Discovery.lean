import TxLoad.Clock
import TxLoad.Config.Basic
import TxLoad.Endpoint.Pool

namespace TxLoad

/-!
# Discovery of endpoints

The endpoints of a run are the supplied ones, or those found by asking the supplied endpoints, and
then the peers they name, about their peers.

* `Network` is how endpoints answer queries;
* `Discovery.crawl` is one round over the network, `Discovery.search` repeats rounds until enough
  usable endpoints are found or the deadline is reached;
* `Discovery.resolve` is the pool for a configuration, together with all queries that were made.

Instants are whole milliseconds.
-/

/-- What an endpoint says about its peers. -/
structure NetInfo where
  /-- How many peers it has. -/
  size : Nat
  /-- Those of them that it names. -/
  peers : List Endpoint
  deriving DecidableEq, Repr

/-- A question to an endpoint: its number among all questions, when, and to whom. -/
structure Query where
  index : Nat
  instant : Nat
  endpoint : Endpoint
  deriving DecidableEq, Repr

/-- How endpoints answer. -/
abbrev Network := Query → Awaited (Except ConnectionError NetInfo)

/-- An endpoint that answered, with the number of its peers. -/
structure Found where
  endpoint : Endpoint
  size : Nat
  deriving DecidableEq, Repr

namespace Discovery

/-- The pause between two rounds. -/
def intervalMs : Nat := 1000

/-- A crawl in progress: the clock, the queries made so far (the last one first), the endpoints
    that answered, in ascending order, and the peers they named. -/
structure Crawl where
  now : Nat
  queries : List Query
  found : List Found
  peers : List Endpoint

/-- Puts an endpoint that answered into an ascending list, in place of an earlier answer. -/
def insertFound (f : Found) : List Found → List Found
  | [] => [f]
  | g :: r =>
    if f.endpoint = g.endpoint then f :: r
    else if f.endpoint < g.endpoint then f :: g :: r
    else g :: insertFound f r

/-- Asks an endpoint and waits for its answer until the deadline. An endpoint that fails or does
    not answer in time is passed over. -/
def Crawl.ask (net : Network) (deadline : Nat) (keepPeers : Bool) (c : Crawl) (e : Endpoint) :
    Crawl :=
  let query : Query := ⟨c.queries.length, c.now, e⟩
  -- Past the deadline nothing is left of the wait: only an answer that is there at once counts.
  let (elapsed, answer) := (net query).within (deadline - c.now)
  let c := { c with now := c.now + elapsed, queries := query :: c.queries }
  match answer with
  | some (.ok info) =>
    { c with
      found := insertFound ⟨e, info.size⟩ c.found
      peers := if keepPeers then c.peers ++ info.peers else c.peers }
  | _ => c

/-- Asks a peer unless it has answered already. -/
def Crawl.askPeer (net : Network) (deadline : Nat) (c : Crawl) (e : Endpoint) : Crawl :=
  if c.found.any (·.endpoint == e) then c else c.ask net deadline false e

/-- One round: the supplied endpoints in their order, then the peers they named, in ascending
    order and each once. -/
def crawl (net : Network) (supplied : List Endpoint) (deadline now : Nat) (queries : List Query) :
    Crawl :=
  let first := supplied.foldl (Crawl.ask net deadline true) ⟨now, queries, [], []⟩
  (Endpoint.sortedSet first.peers).foldl (Crawl.askPeer net deadline) first

/-- The endpoints of a round that may be used: those with enough peers and, unless any endpoint
    will do, not supplied. -/
def usable (method : SelectMethod) (supplied : List Endpoint) (minConnectivity : Nat)
    (found : List Found) : List Endpoint :=
  (found.filter fun f =>
    (method == .any || !supplied.contains f.endpoint) && minConnectivity ≤ f.size).map (·.endpoint)

/-- The outcome of a search: what was found, when, and the queries made (the last one first). -/
structure Outcome where
  endpoints : List Endpoint
  finished : Nat
  queries : List Query

/-- Repeats rounds, with pauses that the deadline cuts short, until one finds `expected` usable
    endpoints or ends at the deadline or later. `fuel` bounds the number of rounds. -/
def searchFor (net : Network) (cfg : Config) (supplied : List Endpoint) (expected deadline : Nat) :
    (fuel : Nat) → (now : Nat) → (queries : List Query) → Outcome
  | 0, now, queries => ⟨[], now, queries⟩
  | fuel + 1, now, queries =>
    let round := crawl net supplied deadline now queries
    let endpoints := usable cfg.selectMethod supplied cfg.minConnectivity.toNat round.found
    -- The answers of earlier rounds are forgotten; a round counts on its own.
    if expected ≤ endpoints.length ∨ deadline ≤ round.now then
      ⟨endpoints, round.now, round.queries⟩
    else
      searchFor net cfg supplied expected deadline fuel (min deadline (round.now + intervalMs))
        round.queries

/-- The search from `now` on. Every pause moves the clock, so that there is at most one round for
    each millisecond before the deadline, and one at the deadline. -/
def search (net : Network) (cfg : Config) (supplied : List Endpoint) (expected now : Nat) :
    Outcome :=
  let deadline := now + Clock.seconds cfg.peerConnectTimeout.toNat
  searchFor net cfg supplied expected deadline (deadline - now + 1) now []

/-- The usable endpoints that a configuration asks for. -/
def expected (cfg : Config) : Nat :=
  match cfg.selectMethod with
  | .supplied => 1
  | _ => max cfg.expectPeers.toNat 1

/-- The first endpoints up to the configured bound. -/
def capped (cfg : Config) (endpoints : List Endpoint) : List Endpoint :=
  if cfg.maxEndpoints = 0 then endpoints else endpoints.take cfg.maxEndpoints.toNat

/-- The pool of the endpoints found, which must be as many as expected. -/
def poolOf (cfg : Config) (endpoints : List Endpoint) : Except Error Pool :=
  let endpoints := capped cfg endpoints
  if endpoints.length < expected cfg then
    .error (.connectivity (.insufficientEndpoints endpoints.length (expected cfg)))
  else (Pool.ofList endpoints).mapError .connectivity

/-- What came of resolving the endpoints: the pool, when it was known, and the queries in order. -/
structure Resolution where
  pool : Except Error Pool
  finished : Nat
  queries : List Query

/-- Resolves the endpoints of a configuration from the instant `now` on. -/
def resolve (net : Network) (cfg : Config) (now : Nat) : Resolution :=
  match cfg.endpoints.mapM Endpoint.parse with
  | .error e => ⟨.error (.config e), now, []⟩
  | .ok supplied =>
    match cfg.selectMethod with
    | .supplied => ⟨poolOf cfg supplied, now, []⟩
    | _ =>
      -- The bound on endpoints applies only after the search, which may find more.
      let outcome := search net cfg supplied (expected cfg) now
      ⟨poolOf cfg outcome.endpoints, outcome.finished, outcome.queries.reverse⟩

/-- A network in which nobody answers. -/
def silent : Network := fun _ => .now (.error (.connect "unreachable"))

end Discovery

end TxLoad
