import TxLoad.Endpoint.Uri
import TxLoad.Error

namespace TxLoad

/-!
# Endpoints

An endpoint is a host and a port. It is read from a host, `host:port` or a URL of which only the
authority is kept, and ordered by host, then by port.

* `Endpoint.of` brackets a bare IPv6 address, so that the text of an endpoint can be read again;
* `Endpoint.parse` reads an endpoint, `Endpoint.text` writes it.
-/

structure Endpoint where
  host : String
  port : Nat
  deriving DecidableEq, Repr, Inhabited

namespace Endpoint

/-- The port of an endpoint given without one. -/
def defaultPort : Nat := 26657

/-- A host as it is kept: a name with a colon that is not in brackets yet is put into brackets. -/
def bracketed (host : List Char) : List Char :=
  if host.contains ':' && host.head? != some '[' then '[' :: host ++ [']'] else host

/-- The endpoint of a host and a port. -/
def of (host : String) (port : Nat) : Endpoint :=
  ⟨String.ofList (bracketed host.toList), port⟩

/-- The text `host:port`, fit for connecting and as the name of the host in a request. -/
def text (e : Endpoint) : String := e.host ++ ":" ++ Text.decimal e.port

/-- Whether `://` occurs in a text. -/
def namesScheme : List Char → Bool
  | ':' :: '/' :: '/' :: _ => true
  | _ :: r => namesScheme r
  | [] => false

/-- The URI that a text stands for: the text itself if it names a scheme. -/
def uriText (s : List Char) : List Char :=
  if namesScheme s then s else "http://".toList ++ s

/-- Reads an endpoint. A port that is missing, empty or too large is the default one. -/
def parse (s : String) : Except ConfigError Endpoint :=
  match Uri.parse (uriText s.toList) with
  | some authority =>
    let host := Uri.hostOf authority
    if host.isEmpty then .error (.invalidEndpoint s)
    else .ok (of (String.ofList host) ((Uri.portOf authority).getD defaultPort))
  | none => .error (.invalidEndpoint s)

/-- The order of endpoints: by host, then by port. -/
def lt (a b : Endpoint) : Prop := a.host < b.host ∨ (a.host = b.host ∧ a.port < b.port)

instance : LT Endpoint := ⟨lt⟩

instance (a b : Endpoint) : Decidable (a < b) :=
  inferInstanceAs (Decidable (a.host < b.host ∨ (a.host = b.host ∧ a.port < b.port)))

/-- Puts an endpoint into a strictly ascending list; one that is there already stays once. -/
def insert (e : Endpoint) : List Endpoint → List Endpoint
  | [] => [e]
  | f :: r => if e < f then e :: f :: r else if e = f then f :: r else f :: insert e r

/-- The endpoints of a list in ascending order, each once. -/
def sortedSet (es : List Endpoint) : List Endpoint := es.foldr insert []

/-- An endpoint together with itself already there changes nothing but the order. -/
theorem mem_insert {e f : Endpoint} {es : List Endpoint} : f ∈ insert e es ↔ f = e ∨ f ∈ es := by
  induction es with
  | nil => simp [insert]
  | cons g r ih =>
    unfold insert
    split
    · simp
    · split
      · rename_i h
        subst h
        simp
      · simp [ih, or_left_comm]

theorem mem_sortedSet {f : Endpoint} {es : List Endpoint} : f ∈ sortedSet es ↔ f ∈ es := by
  induction es with
  | nil => simp [sortedSet]
  | cons e r ih =>
    have : sortedSet (e :: r) = insert e (sortedSet r) := rfl
    rw [this, mem_insert, ih, List.mem_cons]

end Endpoint

end TxLoad
