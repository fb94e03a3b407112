import TxLoad.Json.Parser
import Mathlib.Tactic.Common

namespace TxLoad.Json

/-!
# Reading strings and numbers from the start of a text

A string ends with its closing quote. A number goes on as far as it can; what follows it must not be
taken for a part of it.

* `Json.readPieces_char`, `Json.readPieces_escape`, `Json.readPieces_unit`: strings piece by piece.
* `Json.Closes`: nothing at the start of a text goes on with a number before it.
* `Json.readNumber_eq_some_iff`: a number part by part.
* `Json.length_of_readString`, `Json.length_of_readNumber`: something is read.
* `Json.readString_append`, `Json.readNumber_append`: what is read does not depend on what follows.
-/

variable {s t r x : List Char} {v : Json}

/-! ### Strings -/

theorem readPieces_char {c : Char} (hquote : c ≠ '"') (hc : ¬ (c.toNat < 0x20 ∨ c = '\\'))
    {ps : List Piece} (h : readPieces t = some (ps, r)) :
    readPieces (c :: t) = some (.char c :: ps, r) := by
  have hne : c ≠ '\\' := fun h => hc (.inr h)
  rw [readPieces, if_neg hc, h]
  · rfl
  · exact hquote
  · exact fun _ _ _ _ _ h => absurd h hne
  · exact fun _ _ h => absurd h hne

theorem readPieces_escape {e c : Char} (he : escapedChar? e = some c) {ps : List Piece}
    (h : readPieces t = some (ps, r)) :
    readPieces ('\\' :: e :: t) = some (.char c :: ps, r) := by
  rw [readPieces, he, h]
  · rfl
  · rintro a b c d r rfl
    cases he

theorem readPieces_unit {a b c d : Char} {n : Nat} (hn : Text.readDigits 16 [a, b, c, d] = some n)
    {ps : List Piece} (h : readPieces t = some (ps, r)) :
    readPieces ('\\' :: 'u' :: a :: b :: c :: d :: t) = some (.unit n :: ps, r) := by
  rw [readPieces, hn, h]
  rfl

/-- The inside of a string is read through its closing quote. -/
theorem length_of_readPieces {ps : List Piece} (h : readPieces s = some (ps, r)) :
    r.length < s.length := by
  fun_induction readPieces s generalizing ps r with
  | case1 | case4 | case6 | case7 => cases h
  | case2 t =>
    cases h
    exact Nat.lt_succ_self _
  | case3 _ _ _ _ t n hn ih | case5 _ t _ c hc ih | case8 _ t _ _ _ _ ih =>
    obtain ⟨⟨ps, r'⟩, hread, heq⟩ := Option.map_eq_some_iff.mp h
    cases heq
    have hlt := ih hread
    simp only [List.length_cons]
    omega

theorem readPieces_append {ps : List Piece} (h : readPieces s = some (ps, r)) (x : List Char) :
    readPieces (s ++ x) = some (ps, r ++ x) := by
  fun_induction readPieces s generalizing ps r with
  | case1 | case4 | case6 | case7 => cases h
  | case2 t =>
    cases h
    rfl
  | case3 a b c d t n hn ih =>
    obtain ⟨⟨ps, r'⟩, hread, heq⟩ := Option.map_eq_some_iff.mp h
    cases heq
    exact readPieces_unit hn (ih hread)
  | case5 e t _ c hc ih =>
    obtain ⟨⟨ps, r'⟩, hread, heq⟩ := Option.map_eq_some_iff.mp h
    cases heq
    exact readPieces_escape hc (ih hread)
  | case8 c t hquote _ _ hc ih =>
    obtain ⟨⟨ps, r'⟩, hread, heq⟩ := Option.map_eq_some_iff.mp h
    cases heq
    exact readPieces_char hquote hc (ih hread)

theorem length_of_readString {o : Option String} (h : readString s = some (o, r)) :
    r.length < s.length := by
  obtain ⟨⟨ps, r'⟩, hread, heq⟩ := Option.map_eq_some_iff.mp h
  cases heq
  exact length_of_readPieces hread

theorem readString_append {o : Option String} (h : readString s = some (o, r)) (x : List Char) :
    readString (s ++ x) = some (o, r ++ x) := by
  obtain ⟨⟨ps, r'⟩, hread, heq⟩ := Option.map_eq_some_iff.mp h
  cases heq
  rw [readString, readPieces_append hread]
  rfl

/-! ### Numbers -/

/-- Nothing at the start of a text goes on with a number before it. -/
def Closes (x : List Char) : Prop :=
  ∀ c ∈ x.head?, c.isDigit = false ∧ c ≠ '.' ∧ c ≠ 'e' ∧ c ≠ 'E'

theorem closes_nil : Closes [] := fun _ h => by cases h

theorem closes_cons {c : Char} (hdigit : c.isDigit = false) (h : c ≠ '.' ∧ c ≠ 'e' ∧ c ≠ 'E')
    (x : List Char) : Closes (c :: x) := by
  intro d hd
  cases hd
  exact ⟨hdigit, h⟩

/-- What the parts of a number stand for. -/
def ofParts (negative : Bool) (whole places : List Char) (power : Option Int) : Json :=
  let n := Decimal.Scaled.ofWhole (digitValues whole)
  if places.isEmpty ∧ power.isNone then integer negative n
  else real negative ((n.withPlaces (digitValues places)).shift (power.getD 0))

/-- Splits a minus sign off a text. -/
def splitMinus : List Char → Bool × List Char
  | '-' :: r => (true, r)
  | r => (false, r)

/-- **Numbers.** A number is a sign, digits, perhaps places and perhaps an exponent. -/
theorem readNumber_eq_some_iff : readNumber s = some (v, r) ↔ ∃ whole t places u power,
    readWhole (splitMinus s).2 = some (whole, t) ∧ readPlaces t = some (places, u) ∧
      readPower u = some (power, r) ∧ ofParts (splitMinus s).1 whole places power = v := by
  unfold readNumber
  split
  rename_i negative rest hsplit
  have hsplit : splitMinus s = (negative, rest) := hsplit
  simp only [hsplit]
  constructor
  · intro h
    split at h
    · cases h
    · rename_i whole t hwhole
      split at h
      · cases h
      · rename_i places u hplaces
        split at h
        · cases h
        · rename_i power r' hpower
          refine ⟨whole, t, places, u, power, hwhole, hplaces, ?_⟩
          unfold ofParts
          split at h
          · cases h
            rename_i hinteger
            exact ⟨hpower, if_pos hinteger⟩
          · cases h
            rename_i hreal
            exact ⟨hpower, if_neg hreal⟩
  · rintro ⟨whole, t, places, u, power, hwhole, hplaces, hpower, rfl⟩
    simp only [hwhole, hplaces, hpower, ofParts]
    split <;> rfl

section

variable {d : List Char}

theorem splitDigits_append (hx : Closes x) (s : List Char) :
    Decimal.splitDigits (s ++ x) = ((Decimal.splitDigits s).1, (Decimal.splitDigits s).2 ++ x) := by
  induction s with
  | nil =>
    -- The digits end where the text does, as no digit follows.
    cases x with
    | nil => rfl
    | cons c x => simp [Decimal.splitDigits, (hx c rfl).1]
  | cons c s ih =>
    simp only [Decimal.splitDigits, Prod.mk.injEq] at ih
    cases hc : c.isDigit <;> simp [Decimal.splitDigits, hc, ih]

theorem length_of_splitDigits (s : List Char) :
    (Decimal.splitDigits s).2.length ≤ s.length := (List.dropWhile_suffix _).length_le

/-- Without a leading zero the integer part is all digits. -/
theorem readWhole_of_ne (hs : s.head? ≠ some '0') : readWhole s =
    if (Decimal.splitDigits s).1.isEmpty then none else some (Decimal.splitDigits s) := by
  rw [readWhole]
  rintro r rfl
  exact hs rfl

theorem exists_of_readWhole (h : readWhole s = some (d, r)) :
    ∃ c t, s = c :: t ∧ c.isDigit = true := by
  cases s with
  | nil => cases h
  | cons c t =>
    refine ⟨c, t, rfl, ?_⟩
    by_cases hc : c = '0'
    · rw [hc]
      rfl
    · rw [readWhole_of_ne (by simpa using hc)] at h
      by_contra hdigit
      simp [Decimal.splitDigits, hdigit] at h

theorem length_of_readWhole (h : readWhole s = some (d, r)) : r.length < s.length := by
  obtain ⟨c, t, rfl, hc⟩ := exists_of_readWhole h
  by_cases hzero : c = '0'
  · subst hzero
    cases h
    exact Nat.lt_succ_self _
  · rw [readWhole_of_ne (by simpa using hzero)] at h
    split at h
    · cases h
    · have hr : (Decimal.splitDigits (c :: t)).2 = r := congrArg Prod.snd (Option.some.inj h)
      rw [← hr, Decimal.splitDigits, List.dropWhile_cons_of_pos hc]
      exact Nat.lt_succ_of_le (length_of_splitDigits t)

theorem readWhole_append (hx : Closes x) (h : readWhole s = some (d, r)) :
    readWhole (s ++ x) = some (d, r ++ x) := by
  obtain ⟨c, t, rfl, hc⟩ := exists_of_readWhole h
  by_cases hzero : c = '0'
  · -- A leading zero is the integer part, whatever follows it.
    subst hzero
    cases h
    rfl
  · rw [readWhole_of_ne (by simpa using hzero)] at h
    rw [readWhole_of_ne (by simpa using hzero), splitDigits_append hx]
    split at h
    · cases h
    · rename_i hsome
      rw [if_neg hsome, Option.some.inj h]

theorem length_of_readPlaces (h : readPlaces s = some (d, r)) : r.length ≤ s.length := by
  unfold readPlaces at h
  split at h
  · rename_i t
    simp only at h
    split at h
    · cases h
    · cases h
      exact Nat.le_succ_of_le (length_of_splitDigits t)
  · cases h
    exact Nat.le_refl _

theorem readPlaces_of_ne (hs : s.head? ≠ some '.') : readPlaces s = some ([], s) := by
  rw [readPlaces]
  rintro r rfl
  exact hs rfl

theorem readPlaces_append (hx : Closes x) (h : readPlaces s = some (d, r)) :
    readPlaces (s ++ x) = some (d, r ++ x) := by
  by_cases hs : s.head? = some '.'
  · obtain ⟨t, rfl⟩ := List.head?_eq_some_iff.mp hs
    simp only [readPlaces, List.cons_append, splitDigits_append hx] at h ⊢
    split at h
    · cases h
    · rename_i hsome
      cases h
      rw [if_neg hsome]
  · rw [readPlaces_of_ne hs] at h
    cases h
    refine readPlaces_of_ne ?_
    cases s with
    | nil => exact fun hdot => (hx _ hdot).2.1 rfl
    | cons c t => exact hs

theorem splitSign_append (hs : s ≠ []) (x : List Char) :
    Decimal.splitSign (s ++ x) = ((Decimal.splitSign s).1, (Decimal.splitSign s).2 ++ x) := by
  cases s with
  | nil => exact absurd rfl hs
  | cons c t =>
    by_cases hminus : c = '-'
    · subst hminus
      rfl
    · by_cases hplus : c = '+'
      · subst hplus
        rfl
      · simp [Decimal.splitSign, hminus, hplus]

theorem length_of_splitSign (s : List Char) : (Decimal.splitSign s).2.length ≤ s.length := by
  unfold Decimal.splitSign
  split
  · exact Nat.le_succ _
  · exact Nat.le_succ _
  · exact Nat.le_refl _

theorem readPower_of_ne (hs : ∀ c ∈ s.head?, c ≠ 'e' ∧ c ≠ 'E') : readPower s = some (none, s) := by
  cases s with
  | nil => rfl
  | cons c t =>
    obtain ⟨he, hE⟩ := hs c rfl
    rw [readPower, if_neg (not_or.mpr ⟨he, hE⟩)]

/-- An exponent is a letter, perhaps a sign, and digits. -/
theorem readPower_of_eq {c : Char} (hc : c = 'e' ∨ c = 'E') (t : List Char) : readPower (c :: t) =
    (Text.readDigits 10 (Decimal.splitDigits (Decimal.splitSign t).2).1).map fun n =>
      (some (if (Decimal.splitSign t).1 then -(n : Int) else n),
        (Decimal.splitDigits (Decimal.splitSign t).2).2) := by
  rw [readPower, if_pos hc]

theorem length_of_readPower {power : Option Int} (h : readPower s = some (power, r)) :
    r.length ≤ s.length := by
  cases s with
  | nil =>
    cases h
    exact Nat.le_refl _
  | cons c t =>
    by_cases hc : c = 'e' ∨ c = 'E'
    · rw [readPower_of_eq hc] at h
      obtain ⟨n, -, heq⟩ := Option.map_eq_some_iff.mp h
      cases heq
      exact Nat.le_succ_of_le (Nat.le_trans (length_of_splitDigits _) (length_of_splitSign t))
    · rw [readPower, if_neg hc] at h
      cases h
      exact Nat.le_refl _

theorem readPower_append (hx : Closes x) {power : Option Int}
    (h : readPower s = some (power, r)) : readPower (s ++ x) = some (power, r ++ x) := by
  cases s with
  | nil =>
    cases h
    exact readPower_of_ne fun c hc => (hx c hc).2.2
  | cons c t =>
    by_cases hc : c = 'e' ∨ c = 'E'
    · rw [readPower_of_eq hc] at h
      obtain ⟨n, hn, heq⟩ := Option.map_eq_some_iff.mp h
      cases heq
      -- An exponent has digits.
      have ht : t ≠ [] := by
        rintro rfl
        cases hn
      rw [List.cons_append, readPower_of_eq hc, splitSign_append ht, splitDigits_append hx, hn]
      rfl
    · rw [readPower, if_neg hc] at h
      cases h
      rw [List.cons_append, readPower, if_neg hc]

end

/-- A number starts with a minus sign or a digit. -/
theorem exists_of_readNumber (h : readNumber s = some (v, r)) :
    ∃ c t, s = c :: t ∧ (c = '-' ∨ c.isDigit = true) := by
  obtain ⟨whole, t, -, -, -, hwhole, -⟩ := readNumber_eq_some_iff.mp h
  unfold splitMinus at hwhole
  split at hwhole
  · exact ⟨_, _, rfl, .inl rfl⟩
  · obtain ⟨c, t, rfl, hc⟩ := exists_of_readWhole hwhole
    exact ⟨c, t, rfl, .inr hc⟩

theorem length_of_splitMinus (s : List Char) : (splitMinus s).2.length ≤ s.length := by
  unfold splitMinus
  split
  · exact Nat.le_succ _
  · exact Nat.le_refl _

theorem length_of_readNumber (h : readNumber s = some (v, r)) : r.length < s.length := by
  obtain ⟨whole, t, places, u, power, hwhole, hplaces, hpower, -⟩ := readNumber_eq_some_iff.mp h
  have h₁ := length_of_readPower hpower
  have h₂ := length_of_readPlaces hplaces
  have h₃ := length_of_readWhole hwhole
  have h₄ := length_of_splitMinus s
  omega

theorem splitMinus_append (hs : s ≠ []) (x : List Char) :
    splitMinus (s ++ x) = ((splitMinus s).1, (splitMinus s).2 ++ x) := by
  cases s with
  | nil => exact absurd rfl hs
  | cons c t =>
    by_cases hminus : c = '-'
    · subst hminus
      rfl
    · simp [splitMinus, hminus]

theorem readNumber_append (hx : Closes x) (h : readNumber s = some (v, r)) :
    readNumber (s ++ x) = some (v, r ++ x) := by
  obtain ⟨c, t, hs, -⟩ := exists_of_readNumber h
  obtain ⟨whole, t, places, u, power, hwhole, hplaces, hpower, rfl⟩ := readNumber_eq_some_iff.mp h
  rw [readNumber_eq_some_iff, splitMinus_append (hs ▸ List.cons_ne_nil _ _)]
  exact ⟨whole, _, places, _, power, readWhole_append hx hwhole, readPlaces_append hx hplaces,
    readPower_append hx hpower, rfl⟩

end TxLoad.Json
