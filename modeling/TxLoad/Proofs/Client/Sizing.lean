import TxLoad.Proofs.Client.Capacity
import Mathlib.Data.Nat.Log
import Mathlib.Order.Bounds.Basic

namespace TxLoad.KeyValue

/-!
# The least width for keys

The width of the suffixes follows from the least length with more texts than transactions, where
texts are counted without any bound. The search for it counts in 64-bit words and stops at a product
that is none: what it returns then is the same.

* `KeyValue.wordSearch`: the search in words, which tells how it ends.
* `KeyValue.suffixSearch_eq`: it is the search for the width.
* `KeyValue.wordSearch_eq`: the end of the search, in terms of the least length.
* `KeyValue.isExact_suffixLength`: the width for every number of symbols and of transactions, and
  the configurations that have room for it.
-/

variable {symbols count capacity : UInt64} {l : Nat}

/-! ### The least length -/

/-- The lengths of which there are more texts than `count`. -/
def Sufficient (symbols count : Nat) : Set Nat := {l | 1 ≤ l ∧ count < symbols ^ l}

/-- The least of them. -/
def leastLength (symbols count : Nat) : Nat := Nat.log symbols count + 1

theorem lt_pow_iff {symbols count : Nat} (hsymbols : 2 ≤ symbols) (hcount : 1 ≤ count) :
    count < symbols ^ l ↔ leastLength symbols count ≤ l :=
  (Nat.log_lt_iff_lt_pow (by omega) (by omega)).symm

theorem isLeast_leastLength {symbols count : Nat} (hsymbols : 2 ≤ symbols) (hcount : 1 ≤ count) :
    IsLeast (Sufficient symbols count) (leastLength symbols count) :=
  ⟨⟨Nat.succ_pos _, (lt_pow_iff hsymbols hcount).mpr le_rfl⟩,
    fun _ h => (lt_pow_iff hsymbols hcount).mp h.2⟩

/-- The more transactions, the longer. -/
theorem leastLength_mono {symbols count more : Nat} (h : count ≤ more) :
    leastLength symbols count ≤ leastLength symbols more :=
  Nat.succ_le_succ (Nat.log_mono_right h)

/-- The more symbols, the shorter. -/
theorem leastLength_anti {symbols fewer count : Nat} (hfewer : 2 ≤ fewer) (h : fewer ≤ symbols) :
    leastLength symbols count ≤ leastLength fewer count :=
  Nat.succ_le_succ (Nat.log_anti_left (by omega) h)

/-! ### The search in words -/

/-- How a search for a length ends. -/
inductive SearchEnd where
  /-- At a length of which there are texts enough. -/
  | enough (length : Nat)
  /-- At a length of which there are more texts than words can count. -/
  | beyond (length : Nat)
  /-- Without a length. -/
  | exhausted
  deriving DecidableEq, Repr

/-- The width that is returned: one symbol of margin more. -/
def SearchEnd.width? : SearchEnd → Option Nat
  | enough length | beyond length => some (length + 1)
  | exhausted => none

/-- The product of two words, if it is one. -/
def product? (a b : UInt64) : Option UInt64 :=
  if a.toNat * b.toNat ≤ Text.wordMax then some (a * b) else none

/-- The search for a length from `length` on, where `capacity` counts the texts that are shorter by
    one symbol; `fuel` lengths may be tried. -/
def wordSearch (symbols count : UInt64) : (fuel length : Nat) → (capacity : UInt64) → SearchEnd
  | 0, _, _ => .exhausted
  | fuel + 1, length, capacity =>
    match product? capacity symbols with
    | none => .beyond length
    | some capacity =>
      if count < capacity then .enough length
      else wordSearch symbols count fuel (length + 1) capacity

theorem product?_of_le {a b : UInt64} (h : a.toNat * b.toNat ≤ Text.wordMax) :
    ∃ c, product? a b = some c ∧ c.toNat = a.toNat * b.toNat := by
  refine ⟨a * b, if_pos h, ?_⟩
  rw [UInt64.toNat_mul]
  exact Nat.mod_eq_of_lt (Nat.lt_of_le_of_lt h (by decide))

theorem product?_of_lt {a b : UInt64} (h : Text.wordMax < a.toNat * b.toNat) :
    product? a b = none :=
  if_neg (Nat.not_le.mpr h)

/-- The search for the width is the search in words. -/
theorem suffixSearch_eq (symbols count : UInt64) (fuel length : Nat) (capacity : UInt64) :
    suffixSearch symbols.toNat count.toNat fuel length capacity.toNat =
      (wordSearch symbols count fuel length capacity).width? := by
  induction fuel generalizing length capacity with
  | zero => rfl
  | succ fuel ih =>
    by_cases hword : capacity.toNat * symbols.toNat ≤ Text.wordMax
    · obtain ⟨next, hnext, hvalue⟩ := product?_of_le hword
      simp only [suffixSearch, wordSearch, hnext, UInt64.lt_iff_toNat_lt, ← hvalue]
      have hbound : ¬ Text.wordMax < next.toNat := by omega
      by_cases henough : count.toNat < next.toNat
      · rw [if_pos (.inr henough), if_pos henough]
        rfl
      · rw [if_neg (not_or.mpr ⟨hbound, henough⟩), if_neg henough, ih]
    · have hbound := Nat.lt_of_not_le hword
      rw [suffixSearch, wordSearch, product?_of_lt hbound, if_pos (.inl hbound)]
      rfl

/-- **The end of the search.** It comes at the least length, if that is tried at all, and tells
    whether words can count the texts of this length. -/
theorem wordSearch_eq (hsymbols : 2 ≤ symbols.toNat) (hcount : 1 ≤ count.toNat) {fuel length : Nat}
    (hlength : 1 ≤ length) (hle : length ≤ leastLength symbols.toNat count.toNat)
    (hcapacity : capacity.toNat = symbols.toNat ^ (length - 1)) :
    wordSearch symbols count fuel length capacity =
      let least := leastLength symbols.toNat count.toNat
      if least < length + fuel then
        if symbols.toNat ^ least ≤ Text.wordMax then .enough least else .beyond least
      else .exhausted := by
  induction fuel generalizing length capacity with
  | zero => exact (if_neg (by omega)).symm
  | succ fuel ih =>
    have hpow : capacity.toNat * symbols.toNat = symbols.toNat ^ length := by
      rw [hcapacity, ← Nat.pow_add_one, Nat.sub_add_cancel hlength]
    have hfound : count.toNat < symbols.toNat ^ length →
        leastLength symbols.toNat count.toNat = length := fun h =>
      Nat.le_antisymm ((lt_pow_iff hsymbols hcount).mp h) hle
    by_cases hword : symbols.toNat ^ length ≤ Text.wordMax
    · obtain ⟨next, hnext, hvalue⟩ := product?_of_le (hpow ▸ hword)
      simp only [wordSearch, hnext, UInt64.lt_iff_toNat_lt, hvalue, hpow]
      by_cases henough : count.toNat < symbols.toNat ^ length
      · rw [if_pos henough, hfound henough, if_pos (by omega), if_pos hword]
      · have hnext_le : length + 1 ≤ leastLength symbols.toNat count.toNat := by
          have hnot := mt (lt_pow_iff (l := length) hsymbols hcount).mpr henough
          omega
        rw [if_neg henough, ih (by omega) hnext_le (by rw [hvalue, hpow, Nat.add_sub_cancel])]
        simp only [Nat.add_right_comm length 1 fuel, Nat.add_assoc]
    · -- Words cannot count the texts, but the count of the transactions is a word.
      have hbeyond := Nat.lt_of_not_le hword
      have henough := Nat.lt_of_le_of_lt (Nat.le_pred_of_lt count.toNat_lt) hbeyond
      simp only [wordSearch, product?_of_lt (hpow ▸ hbeyond), hfound henough]
      rw [if_pos (by omega), if_neg hword]

/-! ### The width -/

/-- The search of the factory, which tries every length below the longest width. -/
def search (symbols count : UInt64) : SearchEnd :=
  wordSearch symbols count (maxSuffixLength - 1) 1 1

theorem search_eq (hsymbols : 2 ≤ symbols) (hcount : 1 ≤ count) :
    search symbols count =
      let least := leastLength symbols.toNat count.toNat
      if least ≤ 15 then
        if symbols.toNat ^ least ≤ Text.wordMax then .enough least else .beyond least
      else .exhausted := by
  have hle : 1 ≤ leastLength symbols.toNat count.toNat := Nat.succ_pos _
  rw [search, wordSearch_eq (UInt64.le_iff_toNat_le.mp hsymbols) (UInt64.le_iff_toNat_le.mp hcount)
    le_rfl hle (by simp)]
  simp only [show maxSuffixLength - 1 = 15 from rfl, Nat.add_comm 1 15, Nat.lt_succ_iff]

/-- Numbers that can be sized up are sized up by the search. -/
theorem suffixLength_eq_search (hsymbols : 2 ≤ symbols) (hcount : 1 ≤ count) :
    suffixLength symbols count =
      match (search symbols count).width? with
      | some width => .ok width
      | none => .error (.tooManyTransactions count.toNat) := by
  have hsymbols' : ¬ symbols < 2 := UInt64.not_lt.mpr hsymbols
  have hcount' : count ≠ 0 := by
    rintro rfl
    exact absurd hcount (by decide)
  rw [suffixLength, if_neg hsymbols', if_neg hcount', search, ← suffixSearch_eq]
  rfl

theorem suffixLength_eq (hsymbols : 2 ≤ symbols) (hcount : 1 ≤ count) :
    suffixLength symbols count =
      let least := leastLength symbols.toNat count.toNat
      if least ≤ 15 then .ok (least + 1) else .error (.tooManyTransactions count.toNat) := by
  rw [suffixLength_eq_search hsymbols hcount, search_eq hsymbols hcount]
  by_cases hleast : leastLength symbols.toNat count.toNat ≤ 15
  · by_cases hword : symbols.toNat ^ leastLength symbols.toNat count.toNat ≤ Text.wordMax
    · simp [hleast, hword, SearchEnd.width?]
    · simp [hleast, hword, SearchEnd.width?]
  · simp [hleast, SearchEnd.width?]

theorem suffixLength_eq_ok_iff (hsymbols : 2 ≤ symbols) (hcount : 1 ≤ count) {width : Nat} :
    suffixLength symbols count = .ok width ↔
      leastLength symbols.toNat count.toNat ≤ 15 ∧
        width = leastLength symbols.toNat count.toNat + 1 := by
  rw [suffixLength_eq hsymbols hcount]
  by_cases hleast : leastLength symbols.toNat count.toNat ≤ 15
  · simp [hleast, eq_comm]
  · simp [hleast]

/-- The width is defined for fewer transactions too, and not greater. -/
theorem exists_le_of_le {more : UInt64} {width' : Nat} (hsymbols : 2 ≤ symbols) (hcount : 1 ≤ count)
    (hmore : count ≤ more) (h : suffixLength symbols more = .ok width') :
    ∃ width ≤ width', suffixLength symbols count = .ok width := by
  obtain ⟨hdefined, rfl⟩ :=
    (suffixLength_eq_ok_iff hsymbols (UInt64.le_trans hcount hmore)).mp h
  have hle : leastLength symbols.toNat count.toNat ≤ leastLength symbols.toNat more.toNat :=
    leastLength_mono (UInt64.le_iff_toNat_le.mp hmore)
  exact ⟨_, Nat.succ_le_succ hle,
    (suffixLength_eq_ok_iff hsymbols hcount).mpr ⟨hle.trans hdefined, rfl⟩⟩

/-- The width is defined for more symbols too, and not greater. -/
theorem exists_le_of_fewer {fewer : UInt64} {width' : Nat} (hcount : 1 ≤ count)
    (htwo : 2 ≤ fewer) (hfewer : fewer ≤ symbols) (h : suffixLength fewer count = .ok width') :
    ∃ width ≤ width', suffixLength symbols count = .ok width := by
  obtain ⟨hdefined, rfl⟩ := (suffixLength_eq_ok_iff htwo hcount).mp h
  have hle : leastLength symbols.toNat count.toNat ≤ leastLength fewer.toNat count.toNat :=
    leastLength_anti (UInt64.le_iff_toNat_le.mp htwo) (UInt64.le_iff_toNat_le.mp hfewer)
  exact ⟨_, Nat.succ_le_succ hle,
    (suffixLength_eq_ok_iff (UInt64.le_trans htwo hfewer) hcount).mpr ⟨hle.trans hdefined, rfl⟩⟩

/-- How a number of transactions is sized up for a number of symbols. -/
structure IsExact (symbols count : UInt64) : Prop where
  exists_least : ∃ least, IsLeast (Sufficient symbols.toNat count.toNat) least
  /-- The least sufficient length and one symbol of margin, if that is within the longest width. -/
  width_eq : ∀ least, IsLeast (Sufficient symbols.toNat count.toNat) least →
    suffixLength symbols count =
      if least ≤ 15 then .ok (least + 1) else .error (.tooManyTransactions count.toNat)
  /-- The search in words comes to that width. -/
  searched : (suffixLength symbols count).toOption = (search symbols count).width?
  /-- Where it leaves off beyond the words, it does so at the least sufficient length. -/
  least_of_beyond : ∀ length, search symbols count = .beyond length →
    IsLeast (Sufficient symbols.toNat count.toNat) length ∧ length ≤ 15
  mono : ∀ more, count ≤ more → ∀ width', suffixLength symbols more = .ok width' →
    ∃ width ≤ width', suffixLength symbols count = .ok width
  anti : ∀ fewer, 2 ≤ fewer → fewer ≤ symbols → ∀ width', suffixLength fewer count = .ok width' →
    ∃ width ≤ width', suffixLength symbols count = .ok width

theorem isExact (hsymbols : 2 ≤ symbols) (hcount : 1 ≤ count) : IsExact symbols count := by
  have hleast := isLeast_leastLength (UInt64.le_iff_toNat_le.mp hsymbols)
    (UInt64.le_iff_toNat_le.mp hcount)
  refine
    { exists_least := ⟨_, hleast⟩
      width_eq := fun least h => ?_
      searched := ?_
      least_of_beyond := fun length h => ?_
      mono := fun more hmore _ => exists_le_of_le hsymbols hcount hmore
      anti := fun fewer htwo hfewer _ => exists_le_of_fewer hcount htwo hfewer }
  · rw [h.unique hleast]
    exact suffixLength_eq hsymbols hcount
  · rw [suffixLength_eq_search hsymbols hcount]
    cases (search symbols count).width? <;> rfl
  · rw [search_eq hsymbols hcount] at h
    by_cases hle : leastLength symbols.toNat count.toNat ≤ 15
    · by_cases hword : symbols.toNat ^ leastLength symbols.toNat count.toNat ≤ Text.wordMax
      · simp [hle, hword] at h
      · simp only [hle, hword, if_true, if_false, SearchEnd.beyond.injEq] at h
        exact h ▸ ⟨hleast, hle⟩
    · simp [hle] at h

/-! ### Configurations -/

/-- Eleven symbols of the alphabet suffice for every word. -/
theorem leastLength_base_le {count : Nat} (hpos : 1 ≤ count) (hle : count ≤ Text.wordMax) :
    leastLength base count ≤ 11 :=
  (lt_pow_iff (by decide) hpos).mp (Nat.lt_of_le_of_lt hle (by decide))

theorem suffixLengthFor_eq {cfg : Config} (hcount : 1 ≤ cfg.maxTransactions) :
    suffixLengthFor cfg = .ok (leastLength base cfg.maxTransactions + 1) := by
  have hle := cfg.maxTransactions_le
  have hvalue : (UInt64.ofNat cfg.maxTransactions).toNat = cfg.maxTransactions :=
    UInt64.toNat_ofNat_of_lt' (Nat.lt_of_le_of_lt hle (by decide))
  have hcount' : 1 ≤ UInt64.ofNat cfg.maxTransactions := by
    rw [UInt64.le_iff_toNat_le, hvalue]
    exact hcount
  have heleven := leastLength_base_le hcount hle
  rw [suffixLengthFor, suffixLength_eq_ok_iff (by decide) hcount', hvalue]
  exact ⟨heleven.trans (by decide), rfl⟩

/-- The check compares the size with the least one and has nothing else to refuse. -/
theorem check_eq {cfg : Config} (hcount : 1 ≤ cfg.maxTransactions) :
    check cfg =
      let least := 5 + (leastLength base cfg.maxTransactions + 1) + 1 + 1
      if least ≤ cfg.size.toNat then .ok () else .error (.tooSmall cfg.size.toNat least) := by
  simp only [check, leastSize, suffixLengthFor_eq hcount, Except.map, bind, Except.bind, idLength,
    minValueLength]
  by_cases hsize :
      5 + (leastLength base cfg.maxTransactions + 1) + 1 + 1 ≤ cfg.size.toNat
  · rw [if_neg (Nat.not_lt.mpr hsize), if_pos hsize]
    rfl
  · rw [if_pos (Nat.lt_of_not_le hsize), if_neg hsize]
    rfl

/-- How a configuration is checked whose connections may send something. -/
structure IsChecked (cfg : Config) : Prop where
  accepts : ∀ least, IsLeast (Sufficient 62 cfg.maxTransactions) least →
    (check cfg = .ok () ↔ 5 + (least + 1) + 1 + 1 ≤ cfg.size.toNat)
  refuses : ∀ least, IsLeast (Sufficient 62 cfg.maxTransactions) least →
    cfg.size.toNat < 5 + (least + 1) + 1 + 1 →
      check cfg = .error (.tooSmall cfg.size.toNat (5 + (least + 1) + 1 + 1))
  ne_tooMany : ∀ count, check cfg ≠ .error (.tooManyTransactions count)

theorem isChecked {cfg : Config} (hcount : 1 ≤ cfg.maxTransactions) : IsChecked cfg := by
  have hcheck : ∀ least, IsLeast (Sufficient 62 cfg.maxTransactions) least → check cfg =
      if 5 + (least + 1) + 1 + 1 ≤ cfg.size.toNat then .ok ()
      else .error (.tooSmall cfg.size.toNat (5 + (least + 1) + 1 + 1)) := by
    intro least h
    rw [h.unique (isLeast_leastLength (by decide) hcount)]
    exact check_eq hcount
  refine ⟨fun least h => ?_, fun least h hsize => ?_, fun count h => ?_⟩
  · rw [hcheck least h]
    split
    · rename_i hsize
      exact iff_of_true rfl hsize
    · rename_i hsize
      exact iff_of_false nofun hsize
  · rw [hcheck least h, if_neg (Nat.not_le.mpr hsize)]
  · rw [hcheck _ (isLeast_leastLength (by decide) hcount)] at h
    split at h
    · cases h
    · cases h

/-- **Exact widths.** Every number of symbols and of transactions is sized up exactly, and every
    configuration that allows a transaction is checked against the width for its bound. -/
theorem isExact_suffixLength (hsymbols : 2 ≤ symbols) (hcount : 1 ≤ count) :
    IsExact symbols count ∧ ∀ cfg : Config, 1 ≤ cfg.maxTransactions → IsChecked cfg :=
  ⟨isExact hsymbols hcount, fun _ => isChecked⟩

/-- With 2 ^ 33 symbols the square is beyond the words, and two symbols suffice for the greatest
    word. A connection that may send 62 transactions needs three of the alphabet. -/
theorem isExact_suffixLength_beyond :
    search 8589934592 18446744073709551615 = .beyond 2 ∧
      suffixLength 8589934592 18446744073709551615 = .ok 3 ∧
      check { count := some 62, size := 10 } = .ok () ∧
      check { count := some 62, size := 9 } ≠ .ok () := by
  have hbeyond : search 8589934592 18446744073709551615 = .beyond 2 := by decide
  have hsymbols : (2 : UInt64) ≤ 8589934592 := by decide
  have hcount : (1 : UInt64) ≤ 18446744073709551615 := by decide
  obtain ⟨hexact, hconfigs⟩ := isExact_suffixLength hsymbols hcount
  have hleast : IsLeast (Sufficient 62 62) 2 := isLeast_leastLength (by decide) (by decide)
  refine ⟨hbeyond, ?_, ?_, ?_⟩
  · obtain ⟨htwo, -⟩ := hexact.least_of_beyond 2 hbeyond
    exact hexact.width_eq 2 htwo
  · exact ((hconfigs { count := some 62, size := 10 } (by decide)).accepts 2 hleast).mpr (by decide)
  · have haccepts := (hconfigs { count := some 62, size := 9 } (by decide)).accepts 2 hleast
    exact mt haccepts.mp (by decide)

end TxLoad.KeyValue
