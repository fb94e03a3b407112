import TxLoad.Text.Numeral

namespace TxLoad.Text

/-!
# Numerals are read back

A numeral consists of digits, and a whole numeral is read as its number as long as that is within
the bound.

* `Text.isDigit_of_mem_numeral`: what a numeral consists of.
* `Text.readNumeral_numeral`, `Text.readWord_decimal`: reading undoes writing.
-/

theorem isDigit_digitChar {d : Nat} (hd : d < 10) : (digitChar d).isDigit = true := by
  have hall : ∀ d : Fin 10, (digitChar d).isDigit = true := by decide
  exact hall ⟨d, hd⟩

theorem isDigit_of_mem_numeral (n : Nat) : ∀ c ∈ numeral n, c.isDigit = true := by
  induction n using Nat.strongRecOn with
  | _ n ih =>
    intro c hc
    rw [numeral] at hc
    split at hc
    · rename_i hn
      rw [List.mem_singleton.mp hc]
      exact isDigit_digitChar hn
    · rcases List.mem_append.mp hc with hc | hc
      · exact ih (n / 10) (by omega) c hc
      · rw [List.mem_singleton.mp hc]
        exact isDigit_digitChar (Nat.mod_lt n (by omega))

theorem not_mem_numeral {c : Char} (hc : c.isDigit = false) (n : Nat) : c ∉ numeral n := by
  intro hmem
  rw [isDigit_of_mem_numeral n c hmem] at hc
  cases hc

/-- A numeral that is not too large is read as its number. -/
theorem readNumeral_numeral {max n : Nat} (hn : n ≤ max) :
    readNumeral max (numeral n) = some n := by
  unfold readNumeral
  split
  · rename_i r hplus
    exact absurd (hplus ▸ List.mem_cons_self) (not_mem_numeral (c := '+') (by decide) n)
  · simp [readDigits_numeral, hn]

theorem foldl_pushDigit_none (base : Nat) (s : List Char) :
    s.foldl (pushDigit base) none = none := by
  induction s with
  | nil => rfl
  | cons c s ih => exact ih

theorem readDigits_eq_none {base : Nat} {s : List Char} {c : Char} (hmem : c ∈ s)
    (hc : digitValue? base c = none) : readDigits base s = none := by
  obtain ⟨u, v, rfl⟩ := List.append_of_mem hmem
  unfold readDigits
  rw [if_neg (by simp), List.foldl_append, List.foldl_cons]
  have hpush : ∀ acc, pushDigit base acc c = none := by
    intro acc
    cases acc <;> simp [pushDigit, hc]
  rw [hpush, foldl_pushDigit_none]

/-- The digits of a base are decimal digits, or letters, which are worth ten and more. -/
theorem ranges_of_digitValue? {base d : Nat} {c : Char} (hbase : base ≤ 36)
    (h : digitValue? base c = some d) : d < base ∧ ((48 ≤ c.toNat ∧ c.toNat ≤ 57) ∨
      (10 ≤ d ∧ ((65 ≤ c.toNat ∧ c.toNat ≤ 90) ∨ (97 ≤ c.toNat ∧ c.toNat ≤ 122)))) := by
  simp only [digitValue?, Bool.and_eq_true, decide_eq_true_eq, Option.ite_none_right_eq_some,
    Option.some.injEq] at h
  obtain ⟨hlt, hd⟩ := h
  rw [hd] at hlt
  refine ⟨hlt, ?_⟩
  split at hd
  · exact .inl ‹_›
  split at hd
  · omega
  split at hd <;> omega

theorem digitValue?_of_isDigit_eq_false {c : Char} (hc : c.isDigit = false) :
    digitValue? 10 c = none := by
  cases hd : digitValue? 10 c with
  | none => rfl
  | some d =>
    obtain ⟨hlt, hrange | ⟨hten, -⟩⟩ := ranges_of_digitValue? (by decide) hd
    · rw [Char.isDigit_iff_toNat.mpr hrange] at hc
      cases hc
    · exact absurd hlt (Nat.not_lt.mpr hten)

/-- A text with anything but digits, the plus sign in front apart, is no numeral. -/
theorem readNumeral_eq_none {max : Nat} {s : List Char} {c : Char} (hmem : c ∈ s)
    (hdigit : c.isDigit = false) (hplus : c ≠ '+') : readNumeral max s = none := by
  unfold readNumeral
  split
  · rename_i r
    have hmem' : c ∈ r := (List.mem_cons.mp hmem).resolve_left hplus
    simp [readDigits_eq_none hmem' (digitValue?_of_isDigit_eq_false hdigit)]
  · simp [readDigits_eq_none hmem (digitValue?_of_isDigit_eq_false hdigit)]

theorem readWord_decimal (n : UInt64) : readWord (decimal n.toNat) = some n := by
  have hle : n.toNat ≤ wordMax := Nat.le_pred_of_lt n.toNat_lt
  rw [readWord, decimal, String.toList_ofList, readNumeral_numeral hle, Option.map_some,
    UInt64.ofNat_toNat]

end TxLoad.Text
