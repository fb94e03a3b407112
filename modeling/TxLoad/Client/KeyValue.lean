import TxLoad.Client.Basic

namespace TxLoad

/-!
# Key/value transactions

The built-in factory generates transactions of the form `[client id][suffix]=[value]`. The id is
five random letters or digits, the suffix the number of the transaction as a numeral of fixed
width in base 62, the value random padding up to the configured size.

* `KeyValue.suffixLength` is the width that a number of transactions needs;
* `KeyValue.leastSize` is the smallest size of a transaction;
* `KeyValue.Generator` is one client's generator, `KeyValue.factory` their factory.
-/

namespace KeyValue

/-- The symbols of keys and values, in ascending order. -/
def alphabet : List Char :=
  "0123456789ABCDEFGHIJKLMNOPQRSTUVWXYZabcdefghijklmnopqrstuvwxyz".toList

/-- The number of symbols. -/
def base : Nat := 62

theorem length_alphabet : alphabet.length = base := by decide

/-- The symbol with the given number. -/
def symbol (i : Fin 62) : Char := alphabet.get (i.cast length_alphabet.symm)

/-- The length of a client id. -/
def idLength : Nat := 5

/-- The least length of a value. -/
def minValueLength : Nat := 1

/-- The longest suffix that may be used. -/
def maxSuffixLength : Nat := 16

/-! ### Suffixes -/

/-- Looks for the first length from `length` on whose suffixes outnumber `count`, where there are
    `capacity` shorter ones of the length before; `fuel` lengths may be tried. Beyond 64 bits any
    length suffices. -/
def suffixSearch (symbols count : Nat) : (fuel : Nat) → (length capacity : Nat) → Option Nat
  | 0, _, _ => none
  | fuel + 1, length, capacity =>
    let capacity := capacity * symbols
    -- The length that suffices is found here; the one returned has one symbol of margin.
    if Text.wordMax < capacity ∨ count < capacity then some (length + 1)
    else suffixSearch symbols count fuel (length + 1) capacity

/-- The length of the suffixes that tell `count` transactions apart with the given number of
    symbols: the least length with more suffixes than transactions, and one symbol of margin. -/
def suffixLength (symbols count : UInt64) : Except ConfigError Nat :=
  if symbols < 2 then .error (.invalidAlphabet symbols.toNat)
  else if count = 0 then .error .zeroTransactions
  else
    match suffixSearch symbols.toNat count.toNat (maxSuffixLength - 1) 1 1 with
    | some length => .ok length
    | none => .error (.tooManyTransactions count.toNat)

/-- The length of the suffixes that a configuration needs. -/
def suffixLengthFor (cfg : Config) : Except ConfigError Nat :=
  suffixLength 62 (UInt64.ofNat cfg.maxTransactions)

/-- The size of the smallest transaction that has room for id, suffix, equals sign and value. -/
def leastSize (cfg : Config) : Except ConfigError Nat :=
  (suffixLengthFor cfg).map fun n => idLength + n + 1 + minValueLength

/-- Refuses a configuration whose transactions are too small for their keys. -/
def check (cfg : Config) : Except ConfigError Unit := do
  let least ← leastSize cfg
  if cfg.size.toNat < least then throw (.tooSmall cfg.size.toNat least)

/-! ### Generation -/

/-- The numeral of `n` in base 62 with exactly `width` symbols; higher digits are dropped. -/
def suffix : (width : Nat) → Nat → List Char
  | 0, _ => []
  | width + 1, n => suffix width (n / base) ++ [symbol ⟨n % base, Nat.mod_lt n (by decide)⟩]

@[simp] theorem length_suffix (width n : Nat) : (suffix width n).length = width := by
  induction width generalizing n with
  | zero => rfl
  | succ w ih => simp [suffix, ih]

/-- The generator of one client. -/
structure Generator where
  suffixWidth : Nat
  valueLength : Nat
  noise : Noise

namespace Generator

/-- The number of transactions that the generator can tell apart, as a 64-bit word. -/
def capacity (g : Generator) : Nat := min (base.pow g.suffixWidth) Text.wordMax

/-- The client's id, from the start of its randomness. -/
def id (g : Generator) : List Char := (List.range idLength).map fun i => symbol (g.noise i)

/-- The value of the n-th transaction, from its own stretch of the randomness. -/
def value (g : Generator) (n : Nat) : List Char :=
  (List.range g.valueLength).map fun i => symbol (g.noise (idLength + n * g.valueLength + i))

/-- The text of the n-th transaction. -/
def transaction (g : Generator) (n : Nat) : List Char :=
  g.id ++ suffix g.suffixWidth n ++ '=' :: g.value n

/-- The bytes of a text of ASCII characters. -/
def bytes (s : List Char) : Payload := s.map fun c => UInt8.ofNat c.toNat

/-- The generator as a client: a transaction for each number below the capacity. -/
def client (g : Generator) : Client := fun n =>
  if n < g.capacity then .ok (bytes (g.transaction n)) else .error (.exhausted g.capacity)

/-- Every transaction has the same size. -/
theorem length_transaction (g : Generator) (n : Nat) :
    (g.transaction n).length = idLength + g.suffixWidth + 1 + g.valueLength := by
  simp [transaction, id, value]
  omega

end Generator

/-- The generator for a configuration that the factory accepts. -/
def generator (cfg : Config) (width : Nat) (noise : Noise) : Generator where
  suffixWidth := width
  valueLength := cfg.size.toNat - idLength - width - 1
  noise := noise

/-- The factory of key/value clients. -/
def factory : Factory where
  check := check
  client cfg noise := do
    check cfg
    let width ← suffixLengthFor cfg
    return (generator cfg width noise).client

/-- The name under which the factory is registered. -/
def factoryName : String := "kvstore"

end KeyValue

/-- The registry with the built-in factories. -/
def Registry.builtin : Registry := ⟨[(KeyValue.factoryName, KeyValue.factory)]⟩

end TxLoad
