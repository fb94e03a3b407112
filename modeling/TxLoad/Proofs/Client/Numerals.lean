import TxLoad.Client.KeyValue
import Mathlib.Data.List.Lex
import Mathlib.Data.Nat.Digits.Lemmas

namespace TxLoad.KeyValue

/-!
# Numerals of fixed width

The suffixes of keys are numerals in base 62, padded to a common width. In this form they can be
written in place, are read back as the number they stand for, and sort like the numbers.

* `KeyValue.putSuffix`: the numeral is written backwards into padding, and the writing ends early
  when only padding is left to write; `KeyValue.putSuffix_eq` says that this makes no difference.
* `KeyValue.bytes_suffix`: below the bound of the width, a suffix is the padded positional numeral.
* `KeyValue.number_suffix`: a suffix is read back as its number.
* `KeyValue.suffix_lt_suffix`: suffixes of one width are ordered as their numbers, byte by byte.
-/

open Generator (bytes)

/-! ### Digits as bytes -/

/-- The byte of zero, with which numerals are padded. -/
def padding : UInt8 := 48

/-- The byte of a digit. -/
def digitByte (i : Nat) : UInt8 := (bytes alphabet).getD i padding

/-- The digit of a byte. -/
def digit (b : UInt8) : Nat := (bytes alphabet).idxOf b

/-- A byte is a letter or a decimal digit. -/
def IsAlphanumeric (b : UInt8) : Prop :=
  48 ≤ b ∧ b ≤ 57 ∨ 65 ≤ b ∧ b ≤ 90 ∨ 97 ≤ b ∧ b ≤ 122

instance : DecidablePred IsAlphanumeric := fun _ => inferInstanceAs (Decidable (_ ∨ _))

/-- The byte between key and value. -/
def equals : UInt8 := 61

theorem not_isAlphanumeric_equals : ¬ IsAlphanumeric equals := by decide

theorem digitByte_zero : digitByte 0 = padding := by decide +kernel

theorem isAlphanumeric_digitByte : ∀ i < base, IsAlphanumeric (digitByte i) := by decide +kernel

theorem digit_digitByte : ∀ i < base, digit (digitByte i) = i := by decide +kernel

/-- The bytes of the digits are in the order of the digits. -/
theorem digitByte_lt_digitByte : ∀ j < base, ∀ i < j, digitByte i < digitByte j := by
  decide +kernel

/-- Symbols are written with the bytes of the digits. -/
theorem bytes_symbol : ∀ i : Fin 62, UInt8.ofNat (symbol i).toNat = digitByte i := by
  decide +kernel

theorem mod_base_lt (n : Nat) : n % base < base := Nat.mod_lt n (by decide)

/-- The bytes of a suffix, from the right: the last digit, after the suffix of the others. -/
theorem bytes_suffix_succ (width n : Nat) :
    bytes (suffix (width + 1) n) = bytes (suffix width (n / base)) ++ [digitByte (n % base)] := by
  rw [← bytes_symbol ⟨n % base, mod_base_lt n⟩]
  exact List.map_append

@[simp] theorem length_bytes_suffix (width n : Nat) : (bytes (suffix width n)).length = width := by
  simp [bytes]

/-- Suffixes consist of letters and digits. -/
theorem isAlphanumeric_of_mem_suffix {width n : Nat} :
    ∀ b ∈ bytes (suffix width n), IsAlphanumeric b := by
  induction width generalizing n with
  | zero => simp [suffix, bytes]
  | succ width ih =>
    intro b hb
    rw [bytes_suffix_succ, List.mem_append, List.mem_singleton] at hb
    rcases hb with hb | rfl
    · exact ih b hb
    · exact isAlphanumeric_digitByte _ (mod_base_lt n)

/-! ### Writing in place -/

/-- Writes the digits of `n` over the `width` bytes that follow the first `offset`, the last digit
    first, until nothing of `n` is left to write. -/
def putDigits (offset : Nat) : (width : Nat) → Nat → Payload → Payload
  | 0, _, text => text
  | width + 1, n, text =>
    if n = 0 then text
    else putDigits offset width (n / base) (text.set (offset + width) (digitByte (n % base)))

/-- Appends the numeral of `n` to a text: first the padding, then the digits over it. -/
def putSuffix (width n : Nat) (text : Payload) : Payload :=
  putDigits text.length width n (text ++ List.replicate width padding)

/-- The numeral of zero is padding. -/
theorem bytes_suffix_zero (width : Nat) :
    bytes (suffix width 0) = List.replicate width padding := by
  induction width with
  | zero => rfl
  | succ width ih =>
    rw [bytes_suffix_succ, List.replicate_succ', Nat.zero_div, Nat.zero_mod, ih, digitByte_zero]

/-- The loop leaves the text before the padding alone, and what it has written behind. -/
theorem putDigits_eq (text tail : Payload) (width n : Nat) :
    putDigits text.length width n (text ++ (List.replicate width padding ++ tail)) =
      text ++ (bytes (suffix width n) ++ tail) := by
  induction width generalizing n tail with
  | zero => rfl
  | succ width ih =>
    rw [putDigits]
    split
    · rename_i hzero
      rw [hzero, bytes_suffix_zero]
    · have hset : (text ++ (List.replicate (width + 1) padding ++ tail)).set
            (text.length + width) (digitByte (n % base)) =
          text ++ (List.replicate width padding ++ digitByte (n % base) :: tail) := by
        simp [List.replicate_succ']
      rw [hset, ih, bytes_suffix_succ, List.append_assoc, List.singleton_append]

/-- **Writing in place.** The loop appends exactly the suffix to the text. -/
theorem putSuffix_eq (width n : Nat) (text : Payload) :
    putSuffix width n text = text ++ bytes (suffix width n) := by
  simpa [putSuffix] using putDigits_eq text [] width n

/-! ### Positional numerals -/

/-- The numeral of a number in base 62, most significant digit first, padded to a width. -/
def numeral (width n : Nat) : Payload :=
  ((Nat.digits base n).map digitByte).reverse.leftpad width padding

/-- Below the bound of its width, a suffix is the padded positional numeral. -/
theorem bytes_suffix {width n : Nat} (hn : n < base ^ width) :
    bytes (suffix width n) = numeral width n := by
  induction width generalizing n with
  | zero =>
    obtain rfl : n = 0 := by simpa using hn
    rfl
  | succ width ih =>
    rcases Nat.eq_zero_or_pos n with rfl | hpos
    · rw [bytes_suffix_zero, numeral]
      simp [List.leftpad]
    · have hdiv : n / base < base ^ width := Nat.div_lt_of_lt_mul (by rwa [← Nat.pow_succ'])
      rw [bytes_suffix_succ, ih hdiv, numeral, numeral,
        Nat.digits_def' (by decide) hpos, List.map_cons, List.reverse_cons]
      simp [List.leftpad]

/-! ### Reading -/

/-- The number that a text of symbols stands for. -/
def number (text : Payload) : Nat := text.foldl (fun n b => n * base + digit b) 0

theorem number_append_singleton (text : Payload) (b : UInt8) :
    number (text ++ [b]) = number text * base + digit b := by
  simp [number, List.foldl_append]

/-- A suffix is read back as its number, without the digits that did not fit. -/
theorem number_suffix_eq_mod (width n : Nat) :
    number (bytes (suffix width n)) = n % base ^ width := by
  induction width generalizing n with
  | zero => simp [suffix, bytes, number, Nat.mod_one]
  | succ width ih =>
    rw [bytes_suffix_succ, number_append_singleton, ih, digit_digitByte _ (mod_base_lt n),
      Nat.pow_succ', Nat.mod_mul, Nat.mul_comm (n / base % base ^ width)]
    omega

/-- **Reading back.** Below the bound of its width, a suffix is read back as its number. -/
theorem number_suffix {width n : Nat} (hn : n < base ^ width) :
    number (bytes (suffix width n)) = n := by
  rw [number_suffix_eq_mod, Nat.mod_eq_of_lt hn]

/-! ### Order -/

/-- What follows texts of one length does not change their order. -/
theorem append_lt_append {s t : Payload} (hlength : s.length = t.length) (h : s < t)
    (u v : Payload) : s ++ u < t ++ v := by
  induction h with
  | nil => simp at hlength
  | rel hlt => exact List.Lex.rel hlt
  | cons hrest ih => exact List.Lex.cons (ih (by simpa using hlength))

/-- **Order.** Suffixes of one width are ordered as their numbers. -/
theorem suffix_lt_suffix {width m n : Nat} (h : m < n) (hn : n < base ^ width) :
    bytes (suffix width m) < bytes (suffix width n) := by
  induction width generalizing m n with
  | zero =>
    have : n = 0 := by simpa using hn
    omega
  | succ width ih =>
    rw [bytes_suffix_succ, bytes_suffix_succ]
    rcases Nat.lt_or_eq_of_le (Nat.div_le_div_right h.le : m / base ≤ n / base) with hdiv | hdiv
    · have hbound : n / base < base ^ width := Nat.div_lt_of_lt_mul (by rwa [← Nat.pow_succ'])
      exact append_lt_append (by simp) (ih hdiv hbound) _ _
    · -- The numerals differ in the last digit only.
      have hlast : m % base < n % base := by
        have hm := Nat.div_add_mod m base
        have hn := Nat.div_add_mod n base
        rw [hdiv] at hm
        omega
      rw [hdiv]
      exact List.Lex.append_left _ (List.Lex.rel (digitByte_lt_digitByte _ (mod_base_lt n) _ hlast)) _

end TxLoad.KeyValue
