import TxLoad.Proofs.Client.Capacity
import TxLoad.Proofs.Client.Numerals

namespace TxLoad.KeyValue

/-!
# Unique keys

A client is a state: it counts the transactions that it has made, and it draws the padding of each
from where the last one has left the randomness. Its n-th call answers as if it had been asked for
nothing else, and an exhausted client stays as it is.

* `KeyValue.InUse`, `KeyValue.InUse.call`: a client in use, and its calls.
* `KeyValue.call_after`: the n-th call answers what the generator has for the number n.
* `KeyValue.keyOf_bytes_transaction`: the key of a transaction ends where id and suffix end.
* `KeyValue.isKeyed_of_check`: the form, the order and the uniqueness of the keys of all clients.
-/

open Generator (bytes)

variable {g : Generator} {n : Nat}

/-! ### A client in use -/

/-- A client in use. -/
structure InUse where
  generator : Generator
  /-- The number of transactions made so far. -/
  counter : Nat
  /-- The number of symbols drawn from the randomness so far. -/
  drawn : Nat

/-- The client that has drawn its id and made no transaction. -/
def Generator.start (g : Generator) : InUse where
  generator := g
  counter := 0
  drawn := idLength

namespace InUse

/-- The next value, drawn from the randomness. -/
def value (s : InUse) : Payload :=
  (List.range s.generator.valueLength).map fun i => digitByte (s.generator.noise (s.drawn + i))

/-- Asks for the next transaction. -/
def call (s : InUse) : Except ClientError Payload × InUse :=
  if s.generator.capacity ≤ s.counter then (.error (.exhausted s.generator.capacity), s)
  else
    (.ok (putSuffix s.generator.suffixWidth s.counter (bytes s.generator.id) ++ equals :: s.value),
      { s with counter := s.counter + 1, drawn := s.drawn + s.generator.valueLength })

/-- The client after it has been asked some times. -/
def after (s : InUse) : Nat → InUse
  | 0 => s
  | n + 1 => (s.after n).call.2

/-- What the client answers call by call. -/
def answers (s : InUse) : Client := fun n => (s.after n).call.1

end InUse

/-- The bytes of symbols of the randomness. -/
theorem bytes_map_symbol (k : Nat) (f : Nat → Fin 62) :
    bytes ((List.range k).map fun i => symbol (f i)) =
      (List.range k).map fun i => digitByte (f i) := by
  rw [bytes, List.map_map]
  exact List.map_congr_left fun i _ => bytes_symbol (f i)

/-- The bytes of a transaction: id, suffix, equals sign and value. -/
theorem bytes_transaction (g : Generator) (n : Nat) :
    bytes (g.transaction n) =
      bytes g.id ++ bytes (suffix g.suffixWidth n) ++ equals :: bytes (g.value n) := by
  simp only [bytes, Generator.transaction, List.map_append, List.map_cons]
  rfl

/-- A client counts up to its capacity, and it draws one value for each transaction. -/
theorem after_start (g : Generator) (n : Nat) :
    g.start.after n =
      { generator := g
        counter := min n g.capacity
        drawn := idLength + min n g.capacity * g.valueLength } := by
  induction n with
  | zero => simp [InUse.after, Generator.start]
  | succ n ih =>
    rw [InUse.after, ih, InUse.call]
    rcases Nat.lt_or_ge n g.capacity with hlt | hge
    · rw [Nat.min_eq_left hlt.le, Nat.min_eq_left (Nat.succ_le_of_lt hlt), if_neg (by simpa)]
      simp only [Nat.succ_mul, Nat.add_assoc]
    · rw [Nat.min_eq_right hge, Nat.min_eq_right (by omega), if_pos (Nat.le_refl _)]

/-- An exhausted client says so, and stays as it is. -/
theorem call_after_of_le (h : g.capacity ≤ n) :
    (g.start.after n).call = (.error (.exhausted g.capacity), g.start.after n) := by
  rw [after_start, InUse.call, Nat.min_eq_right h, if_pos (Nat.le_refl _)]

/-- **State.** The n-th call answers what the generator has for the number n, whatever was asked
    before. -/
theorem call_after (g : Generator) (n : Nat) : (g.start.after n).call.1 = g.client n := by
  rcases Nat.lt_or_ge n g.capacity with hlt | hge
  · rw [after_start, InUse.call, Nat.min_eq_left hlt.le, if_neg (by simpa), Generator.client,
      if_pos hlt, putSuffix_eq, bytes_transaction, Generator.value, bytes_map_symbol]
    rfl
  · rw [call_after_of_le hge, Generator.client, if_neg (by omega)]

theorem answers_start (g : Generator) : g.start.answers = g.client :=
  funext fun n => call_after g n

/-! ### Keys -/

/-- The key of a transaction: what stands before the first equals sign. -/
def keyOf (p : Payload) : Payload := p.takeWhile (· ≠ equals)

/-- The suffix of a key that starts with a client id. -/
def suffixOf (p : Payload) : Payload := (keyOf p).drop idLength

/-- Symbols of the randomness are letters and digits. -/
theorem isAlphanumeric_of_mem_map {k : Nat} {f : Nat → Fin 62} :
    ∀ b ∈ bytes ((List.range k).map fun i => symbol (f i)), IsAlphanumeric b := by
  intro b hb
  rw [bytes_map_symbol] at hb
  obtain ⟨i, -, rfl⟩ := List.mem_map.mp hb
  exact isAlphanumeric_digitByte _ (f i).isLt

@[simp] theorem length_bytes_id (g : Generator) : (bytes g.id).length = idLength := by
  simp [bytes, Generator.id]

@[simp] theorem length_bytes_value (g : Generator) (n : Nat) :
    (bytes (g.value n)).length = g.valueLength := by
  simp [bytes, Generator.value]

/-- The key of a transaction ends where id and suffix end. -/
theorem keyOf_bytes_transaction (g : Generator) (n : Nat) :
    keyOf (bytes (g.transaction n)) = bytes g.id ++ bytes (suffix g.suffixWidth n) := by
  have hkey : ∀ b ∈ bytes g.id ++ bytes (suffix g.suffixWidth n), b ≠ equals := by
    rintro b hb rfl
    refine not_isAlphanumeric_equals ?_
    rcases List.mem_append.mp hb with hb | hb
    · exact isAlphanumeric_of_mem_map _ hb
    · exact isAlphanumeric_of_mem_suffix _ hb
  rw [keyOf, bytes_transaction, List.takeWhile_append_of_pos (by simpa using hkey)]
  simp

theorem suffixOf_bytes_transaction (g : Generator) (n : Nat) :
    suffixOf (bytes (g.transaction n)) = bytes (suffix g.suffixWidth n) := by
  rw [suffixOf, keyOf_bytes_transaction, List.drop_left' (length_bytes_id g)]

/-- Below the capacity, a transaction is id, numeral, equals sign and value. -/
theorem bytes_transaction_of_lt (h : n < g.capacity) :
    bytes (g.transaction n) =
      bytes g.id ++ numeral g.suffixWidth n ++ equals :: bytes (g.value n) := by
  have hn : n < base ^ g.suffixWidth := Nat.lt_of_lt_of_le h (Nat.min_le_left _ _)
  rw [bytes_transaction, bytes_suffix hn]

theorem answers_eq_ok (h : n < g.capacity) :
    g.start.answers n =
      .ok (bytes g.id ++ numeral g.suffixWidth n ++ equals :: bytes (g.value n)) := by
  rw [answers_start, Generator.client, if_pos h, bytes_transaction_of_lt h]

/-- The first equals sign of a transaction is the one after the numeral. -/
theorem keyOf_eq (h : n < g.capacity) :
    keyOf (bytes g.id ++ numeral g.suffixWidth n ++ equals :: bytes (g.value n)) =
      bytes g.id ++ numeral g.suffixWidth n := by
  have hn : n < base ^ g.suffixWidth := Nat.lt_of_lt_of_le h (Nat.min_le_left _ _)
  rw [← bytes_transaction_of_lt h, keyOf_bytes_transaction, bytes_suffix hn]

/-- What the client answers is the transaction of that number, and there is room for the number in
    its suffix. -/
theorem eq_bytes_transaction {p : Payload} (h : g.client n = .ok p) :
    p = bytes (g.transaction n) ∧ n < base ^ g.suffixWidth := by
  unfold Generator.client at h
  split at h
  · rename_i hn
    cases h
    exact ⟨rfl, Nat.lt_of_lt_of_le hn (Nat.min_le_left _ _)⟩
  · cases h

/-- The suffix of a transaction is read back as its number. -/
theorem number_suffixOf {p : Payload} (h : g.client n = .ok p) : number (suffixOf p) = n := by
  obtain ⟨rfl, hn⟩ := eq_bytes_transaction h
  rw [suffixOf_bytes_transaction, number_suffix hn]

/-- The suffixes of later transactions are greater. -/
theorem suffixOf_lt_suffixOf {m : Nat} {p q : Payload} (hmn : m < n) (hp : g.client m = .ok p)
    (hq : g.client n = .ok q) : suffixOf p < suffixOf q := by
  obtain ⟨rfl, -⟩ := eq_bytes_transaction hp
  obtain ⟨rfl, hn⟩ := eq_bytes_transaction hq
  rw [suffixOf_bytes_transaction, suffixOf_bytes_transaction]
  exact suffix_lt_suffix hmn hn

/-! ### All clients of a configuration -/

/-- The transactions of a client in use, whose configuration needs suffixes of the given width. -/
structure IsKeyed (cfg : Config) (width : Nat) (s : InUse) : Prop where
  /-- Id, numeral, equals sign and a value that is not empty; the id is the same for all. -/
  form : ∃ id : Payload, id.length = 5 ∧ (∀ b ∈ id, IsAlphanumeric b) ∧
    ∀ n < min (base ^ width) Text.wordMax, ∃ value : Payload,
      value ≠ [] ∧ (∀ b ∈ value, IsAlphanumeric b) ∧ (numeral width n).length = width ∧
      s.answers n = .ok (id ++ numeral width n ++ equals :: value) ∧
      keyOf (id ++ numeral width n ++ equals :: value) = id ++ numeral width n
  size : ∀ n p, s.answers n = .ok p → p.length = cfg.size.toNat
  /-- The suffixes are read back as the numbers of their transactions. -/
  number_eq : ∀ n p, s.answers n = .ok p → number (suffixOf p) = n
  ascending : ∀ m n p q, m < n → s.answers m = .ok p → s.answers n = .ok q →
    suffixOf p < suffixOf q
  keys_inj : ∀ m n p q, s.answers m = .ok p → s.answers n = .ok q → keyOf p = keyOf q → m = n
  /-- There is a transaction for each that the connection may send. -/
  room : cfg.maxTransactions ≤ min (base ^ width) Text.wordMax
  exhausted : ∀ n, min (base ^ width) Text.wordMax ≤ n →
    (s.after n).call = (.error (.exhausted (min (base ^ width) Text.wordMax)), s.after n)

/-- A generator whose width fits into its configuration keeps to all of this. -/
theorem isKeyed_start {cfg : Config} {width : Nat} (hwidth : suffixLengthFor cfg = .ok width)
    (hfits : idLength + width + 1 + minValueLength ≤ cfg.size.toNat) (noise : Noise) :
    IsKeyed cfg width (generator cfg width noise).start where
  form := by
    refine ⟨bytes (generator cfg width noise).id, length_bytes_id _, isAlphanumeric_of_mem_map,
      fun n hn => ⟨bytes ((generator cfg width noise).value n), ?_, isAlphanumeric_of_mem_map, ?_,
        answers_eq_ok hn, keyOf_eq hn⟩⟩
    · apply List.ne_nil_of_length_pos
      rw [length_bytes_value]
      show 0 < cfg.size.toNat - idLength - width - 1
      have : minValueLength = 1 := rfl
      omega
    · rw [← bytes_suffix (by omega), length_bytes_suffix]
  size n p h := by
    rw [answers_start] at h
    exact length_payload hfits h
  number_eq n p h := by
    rw [answers_start] at h
    exact number_suffixOf h
  ascending m n p q hmn hp hq := by
    rw [answers_start] at hp hq
    exact suffixOf_lt_suffixOf hmn hp hq
  keys_inj m n p q hp hq hkey := by
    rw [answers_start] at hp hq
    -- Keys that are equal have equal suffixes, and these are read back.
    rw [← number_suffixOf hp, ← number_suffixOf hq, suffixOf, suffixOf, hkey]
  room := maxTransactions_le_capacity hwidth noise
  exhausted n hn := call_after_of_le hn

/-- **Unique keys.** For a configuration that the factory accepts, all clients made from it are
    clients in use that keep to the form, the order and the uniqueness of their keys, up to their
    capacity and beyond. -/
theorem isKeyed_of_check {cfg : Config} (h : check cfg = .ok ()) :
    ∃ width, suffixLengthFor cfg = .ok width ∧ ∀ noise, ∃ s : InUse, s.counter = 0 ∧
      factory.client cfg noise = .ok s.answers ∧ IsKeyed cfg width s := by
  obtain ⟨width, hwidth, hfits, hmake⟩ := exists_width h
  refine ⟨width, hwidth, fun noise =>
    ⟨(generator cfg width noise).start, rfl, ?_, isKeyed_start hwidth hfits noise⟩⟩
  rw [hmake, answers_start]
  rfl

/-- The first transactions of a client whose connection may send fifty. -/
theorem isKeyed_of_check_fifty :
    check { size := 10, count := some 50 } = .ok () ∧ ∃ s : InUse,
      IsKeyed { size := 10, count := some 50 } 2 s ∧
      s.answers 0 = .ok (bytes "0000000=00".toList) ∧
      s.answers 49 = .ok (bytes "000000n=00".toList) := by
  have hcheck : check { size := 10, count := some 50 } = .ok () := by decide
  obtain ⟨width, hwidth, hclients⟩ := isKeyed_of_check hcheck
  obtain ⟨s, -, hclient, hkeyed⟩ := hclients fun _ => 0
  obtain rfl : 2 = width := Except.ok.inj hwidth
  have hanswers := Except.ok.inj hclient
  refine ⟨hcheck, s, hkeyed, ?_, ?_⟩
  · rw [← hanswers]
    decide +kernel
  · rw [← hanswers]
    decide +kernel

end TxLoad.KeyValue
