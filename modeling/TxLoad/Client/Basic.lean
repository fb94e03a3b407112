import TxLoad.Config.Basic
import TxLoad.Text.Quoted

namespace TxLoad

/-!
# Clients, factories and the registry

A client generates the transactions of one connection; a factory makes clients for a
configuration; the registry holds factories under unique names.

* `Client` answers its n-th call with a transaction or with the reason why there is none;
* `Registry.register` refuses a name that is taken, `Registry.lookup` one that is not;
* `Registry.newClients` checks the configuration and makes one client per connection.
-/

/-- The bytes of a transaction. -/
abbrev Payload := List UInt8

/-- The transaction generator of one connection, as its answer to the n-th call. -/
abbrev Client := Nat → Except ClientError Payload

/-- An endless supply of random letters and digits, given by position as numbers below 62. -/
abbrev Noise := Nat → Fin 62

/-- A maker of clients: what it asks of a configuration, and the client it makes from a
    configuration and a supply of randomness. -/
structure Factory where
  check : Config → Except ConfigError Unit
  client : Config → Noise → Except ConfigError Client

/-- Factories under unique names. -/
structure Registry where
  factories : List (String × Factory)

namespace Registry

def empty : Registry := ⟨[]⟩

/-- The factory of the given name, if there is one. -/
def find? (r : Registry) (name : String) : Option Factory :=
  (r.factories.find? (·.1 == name)).map (·.2)

/-- Adds a factory under a name that is not taken. -/
def register (r : Registry) (name : String) (f : Factory) : Except ConfigError Registry :=
  match r.find? name with
  | some _ => .error (.duplicateFactory name)
  | none => .ok ⟨r.factories ++ [(name, f)]⟩

def lookup (r : Registry) (name : String) : Except ConfigError Factory :=
  match r.find? name with
  | some f => .ok f
  | none => .error (.unknownFactory name)

/-- Puts a name into an ascending list of names. -/
def insertName (name : String) : List String → List String
  | [] => [name]
  | other :: r => if other < name then other :: insertName name r else name :: other :: r

/-- The registered names in ascending order. -/
def names (r : Registry) : List String := (r.factories.map (·.1)).foldr insertName []

/-- The registry as it is shown in diagnostics. -/
def diagnostic (r : Registry) : String :=
  "Registry \x7b factories: [" ++ ", ".intercalate (r.names.map Text.quoted) ++ "] \x7d"

/-- Makes one client per connection, if the factory accepts the configuration. `noise i` is the
    randomness of the i-th client. -/
def newClients (r : Registry) (cfg : Config) (noise : Nat → Noise) :
    Except ConfigError (List Client) := do
  let factory ← r.lookup cfg.clientFactory
  factory.check cfg
  (List.range cfg.connections.toNat).mapM fun i => factory.client cfg (noise i)

end Registry

end TxLoad
