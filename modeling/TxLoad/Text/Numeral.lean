namespace TxLoad.Text

/-!
# Numerals

Natural numbers as text in a given base:

* `numeral` writes the decimal digits of a number, most significant first;
* `readDigits` reads a run of digits, `readNumeral` a whole numeral with an optional plus sign
  and an upper bound;
* `readDigits_numeral` says that reading undoes writing.
-/

/-- The digit of a value below 36, lower case. -/
def digitChar (d : Nat) : Char :=
  if d < 10 then Char.ofNat (48 + d) else Char.ofNat (87 + d)

/-- The value of a digit in the given base (at most 36), in either case. -/
def digitValue? (base : Nat) (c : Char) : Option Nat :=
  let n := c.toNat
  let d := if 48 ≤ n && n ≤ 57 then n - 48
    else if 97 ≤ n && n ≤ 122 then n - 87
    else if 65 ≤ n && n ≤ 90 then n - 55
    else 36
  if d < base then some d else none

/-- The decimal digits of a number, most significant first, without leading zeros. -/
def numeral (n : Nat) : List Char :=
  if n < 10 then [digitChar n] else numeral (n / 10) ++ [digitChar (n % 10)]

/-- The decimal text of a number. -/
def decimal (n : Nat) : String := String.ofList (numeral n)

/-- The digits of a number in base sixteen, padded with zeros to the given width. -/
def hexPadded : (width : Nat) → Nat → List Char
  | 0, _ => []
  | w + 1, n => hexPadded w (n / 16) ++ [digitChar (n % 16)]

/-- Appends the value of one more digit. -/
def pushDigit (base : Nat) (acc : Option Nat) (c : Char) : Option Nat :=
  match acc, digitValue? base c with
  | some a, some d => some (a * base + d)
  | _, _ => none

/-- The value of a text of digits; nothing for the empty text or a character that is no digit. -/
def readDigits (base : Nat) (s : List Char) : Option Nat :=
  if s.isEmpty then none else s.foldl (pushDigit base) (some 0)

/-- Reads a whole decimal numeral up to `max`: digits, perhaps after a plus sign. -/
def readNumeral (max : Nat) (s : List Char) : Option Nat :=
  let digits := match s with
    | '+' :: r => r
    | _ => s
  match readDigits 10 digits with
  | some n => if n ≤ max then some n else none
  | none => none

/-- The largest value of a 64-bit word. -/
def wordMax : Nat := UInt64.size - 1

/-- Reads a decimal numeral as a 64-bit word. -/
def readWord (s : String) : Option UInt64 :=
  (readNumeral wordMax s.toList).map UInt64.ofNat

/-! ### Reading undoes writing -/

theorem digitValue?_digitChar {d : Nat} (h : d < 10) : digitValue? 10 (digitChar d) = some d := by
  have : ∀ d : Fin 10, digitValue? 10 (digitChar d) = some d.val := by decide
  exact this ⟨d, h⟩

theorem numeral_ne_nil (n : Nat) : numeral n ≠ [] := by
  unfold numeral
  split <;> simp

theorem foldl_numeral (n : Nat) : (numeral n).foldl (pushDigit 10) (some 0) = some n := by
  induction n using Nat.strongRecOn with
  | _ n ih =>
    unfold numeral
    split
    · rename_i h
      simp [pushDigit, digitValue?_digitChar h]
    · rename_i h
      rw [List.foldl_append, ih (n / 10) (by omega)]
      simp only [List.foldl_cons, List.foldl_nil, pushDigit,
        digitValue?_digitChar (Nat.mod_lt n (by omega))]
      congr 1
      omega

/-- The digits of a number read back as the number. -/
theorem readDigits_numeral (n : Nat) : readDigits 10 (numeral n) = some n := by
  unfold readDigits
  rw [if_neg (by simp [numeral_ne_nil]), foldl_numeral]

end TxLoad.Text
