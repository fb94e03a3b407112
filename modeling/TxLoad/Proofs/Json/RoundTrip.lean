import TxLoad.Json.Printer
import TxLoad.Proofs.Json.Grammar
import TxLoad.Proofs.Text.Numeral
import Mathlib.Algebra.Group.Int.Defs
import Mathlib.Algebra.GroupWithZero.Nat

namespace TxLoad.Json

/-!
# Reading undoes writing

The text of a value that is made of words, strings and truth values is read as that value.

* `Json.readString_renderChars`: strings.
* `Json.readNumber_integerText`, `Json.word?_ofInt`: integers of any length, of which those that
  fit are words.
* `Json.isPlain`: a value without doubles, negative numbers and flaws.
* `Json.parse_render`: reading undoes writing on plain values.
* `Json.isPrintable_renderChars`: the text of a plain value has no control characters.
-/

variable {s t r x : List Char} {v : Json}

/-! ### Strings -/

/-- A unit outside the surrogates is a character of its own. -/
theorem joinPieces_unit {n : Nat} (hn : n < 0xD800) (ps : List Piece) :
    joinPieces (.unit n :: ps) = (joinPieces ps).map (Char.ofNat n :: ·) := by
  have hlow : ¬ (0xD800 ≤ n ∧ n < 0xDC00) := by omega
  have hhigh : ¬ (0xDC00 ≤ n ∧ n < 0xE000) := by omega
  have hnone : ¬ (0xD800 ≤ n ∧ n < 0xE000) := by omega
  cases ps with
  | nil => simp [joinPieces, hnone]
  | cons p ps =>
    cases p with
    | char c => simp [joinPieces, hnone]
    | unit m => rw [joinPieces, if_neg hlow, if_neg hhigh]

/-- The digits of a control character are its number. -/
theorem readDigits_hexPadded {n : Nat} (hn : n < 0x20) :
    Text.readDigits 16 (Text.hexPadded 4 n) = some n := by
  have hall : ∀ n : Fin 0x20, Text.readDigits 16 (Text.hexPadded 4 n) = some n.val := by decide
  exact hall ⟨n, hn⟩

/-- A character is read as one piece. -/
theorem readPieces_renderChar (c : Char) {ps : List Piece} (h : readPieces t = some (ps, r)) :
    ∃ p, readPieces (renderChar c ++ t) = some (p :: ps, r) ∧
      joinPieces (p :: ps) = (joinPieces ps).map (c :: ·) := by
  have hescape : ∀ e, escapedChar? e = some c → renderChar c = ['\\', e] →
      ∃ p, readPieces (renderChar c ++ t) = some (p :: ps, r) ∧
        joinPieces (p :: ps) = (joinPieces ps).map (c :: ·) := by
    intro e he hc
    rw [hc]
    exact ⟨.char c, readPieces_escape he h, rfl⟩
  unfold renderChar
  split
  · rename_i hc
    subst hc
    exact hescape '"' rfl rfl
  split
  · rename_i hc
    subst hc
    exact hescape '\\' rfl rfl
  split
  · rename_i hc
    subst hc
    exact hescape 'n' rfl rfl
  split
  · rename_i hc
    subst hc
    exact hescape 'r' rfl rfl
  split
  · rename_i hc
    subst hc
    exact hescape 't' rfl rfl
  split
  · rename_i hc
    subst hc
    exact hescape 'b' rfl rfl
  split
  · rename_i hc
    subst hc
    exact hescape 'f' rfl rfl
  split
  · rename_i hc
    refine ⟨.unit c.toNat, readPieces_unit (readDigits_hexPadded hc) h, ?_⟩
    rw [joinPieces_unit (by omega), Char.ofNat_toNat]
  · rename_i hquote hslash _ _ _ _ _ hc
    refine ⟨.char c, readPieces_char hquote ?_ h, rfl⟩
    exact not_or.mpr ⟨hc, hslash⟩

/-- **Strings.** -/
theorem readString_renderChars (cs : List Char) (x : List Char) :
    readString (cs.flatMap renderChar ++ '"' :: x) = some (some (String.ofList cs), x) := by
  obtain ⟨ps, hread, hjoin⟩ : ∃ ps, readPieces (cs.flatMap renderChar ++ '"' :: x) =
      some (ps, x) ∧ joinPieces ps = some cs := by
    induction cs with
    | nil => exact ⟨[], rfl, rfl⟩
    | cons c cs ih =>
      obtain ⟨ps, hread, hjoin⟩ := ih
      obtain ⟨p, hread', hjoin'⟩ := readPieces_renderChar c hread
      refine ⟨p :: ps, ?_, ?_⟩
      · rw [List.flatMap_cons, List.append_assoc]
        exact hread'
      · rw [hjoin', hjoin]
        rfl
  rw [readString, hread, Option.map_some, hjoin]
  rfl

/-! ### Integers -/

/-- No numeral but zero starts with zero. -/
theorem head?_numeral {n : Nat} (hn : 0 < n) : (Text.numeral n).head? ≠ some '0' := by
  induction n using Nat.strongRecOn with
  | _ n ih =>
    rw [Text.numeral]
    split
    · rename_i hlt
      have hall : ∀ d : Fin 10, 0 < d.val → Text.digitChar d ≠ '0' := by decide
      exact fun h => hall ⟨n, hlt⟩ hn (Option.some.inj h)
    · obtain ⟨c, t, hct⟩ := List.exists_cons_of_ne_nil (Text.numeral_ne_nil (n / 10))
      have hhead := ih (n / 10) (by omega) (by omega)
      rw [hct] at hhead ⊢
      exact hhead

/-- The word of a numeral is its number, as long as it fits. -/
theorem ofWhole_numeral {n : Nat} (hn : n ≤ Text.wordMax) :
    Decimal.Scaled.ofWhole (digitValues (Text.numeral n)) = { word := n } := by
  have hpush : ∀ m d, m * 10 + d ≤ Text.wordMax →
      Decimal.Scaled.pushWhole { word := m } d = { word := m * 10 + d } := by
    intro m d hle
    simp [Decimal.Scaled.pushWhole, Decimal.Scaled.push?, Nat.not_lt.mpr hle]
  induction n using Nat.strongRecOn with
  | _ n ih =>
    rw [Text.numeral]
    split
    · rename_i hlt
      have hdigit := Text.digitValue?_digitChar hlt
      have hzero := hpush 0 n (by omega)
      simpa [digitValues, hdigit, Decimal.Scaled.ofWhole] using hzero
    · have hrest := ih (n / 10) (by omega) (by omega)
      have hdigit := Text.digitValue?_digitChar (Nat.mod_lt n (by omega : 10 > 0))
      have hnext := hpush (n / 10) (n % 10) (by omega)
      simp only [digitValues, Decimal.Scaled.ofWhole, List.filterMap_append, List.foldl_append,
        List.filterMap_cons, hdigit, List.filterMap_nil, List.foldl_cons, List.foldl_nil] at hrest ⊢
      rw [hrest, hnext]
      congr 1
      omega

/-- A number that does not fit into a word is full. -/
theorem full_ofWhole_numeral {n : Nat} (hn : Text.wordMax < n) :
    (Decimal.Scaled.ofWhole (digitValues (Text.numeral n))).full = true := by
  induction n using Nat.strongRecOn with
  | _ n ih =>
    rw [Text.numeral]
    split
    · rename_i hlt
      have hmax : (10 : Nat) ≤ Text.wordMax := by decide
      omega
    · have hdigit := Text.digitValue?_digitChar (Nat.mod_lt n (by omega : 10 > 0))
      simp only [digitValues, Decimal.Scaled.ofWhole, List.filterMap_append, List.foldl_append,
        List.filterMap_cons, hdigit, List.filterMap_nil, List.foldl_cons, List.foldl_nil]
      rcases Nat.lt_or_ge Text.wordMax (n / 10) with hlt | hle
      · have hrest := ih (n / 10) (by omega) hlt
        simp only [digitValues, Decimal.Scaled.ofWhole] at hrest
        rw [Decimal.Scaled.pushWhole_of_full hrest]
        exact hrest
      -- The digits before still fit, and the last one is the first that does not.
      · have hrest := ofWhole_numeral hle
        simp only [digitValues, Decimal.Scaled.ofWhole] at hrest
        rw [hrest]
        have hlast : Text.wordMax < n / 10 * 10 + n % 10 := by omega
        simp [Decimal.Scaled.pushWhole, Decimal.Scaled.push?, hlast]

/-- An integer in base ten. -/
def integerText (i : Int) : List Char := Decimal.sign (i < 0) ++ Text.numeral i.natAbs

/-- The value of an integer in base ten. -/
def ofInt (i : Int) : Json :=
  integer (i < 0) (Decimal.Scaled.ofWhole (digitValues (Text.numeral i.natAbs)))

theorem splitMinus_integerText (i : Int) :
    splitMinus (integerText i) = (decide (i < 0), Text.numeral i.natAbs) := by
  unfold integerText Decimal.sign
  split
  · rename_i hneg
    rw [hneg]
    rfl
  · rename_i hneg
    rw [Bool.not_eq_true] at hneg
    rw [hneg, List.nil_append, splitMinus]
    intro t ht
    cases Text.isDigit_of_mem_numeral i.natAbs '-' (ht ▸ List.mem_cons_self)

/-- **Integers.** An integer of any length is read as its value. -/
theorem readNumber_integerText (i : Int) (hx : Closes x) :
    readNumber (integerText i ++ x) = some (ofInt i, x) := by
  have hdigits := Text.isDigit_of_mem_numeral i.natAbs
  have hsplit : Decimal.splitDigits (Text.numeral i.natAbs) = (Text.numeral i.natAbs, []) := by
    rw [Decimal.splitDigits, List.takeWhile_eq_self_iff.mpr hdigits,
      List.dropWhile_eq_nil_iff.mpr hdigits]
  -- Zero is the only numeral that starts with a zero.
  have hwhole : readWhole (Text.numeral i.natAbs) = some (Text.numeral i.natAbs, []) := by
    cases hn : i.natAbs with
    | zero =>
      have hzero : Text.numeral 0 = ['0'] := by
        rw [Text.numeral, if_pos (by decide)]
        rfl
      rw [hzero]
      rfl
    | succ m =>
      rw [hn] at hsplit
      rw [readWhole_of_ne (head?_numeral (Nat.succ_pos m)), hsplit,
        if_neg (by simp [Text.numeral_ne_nil])]
  refine readNumber_append (r := []) hx (readNumber_eq_some_iff.mpr ?_)
  rw [splitMinus_integerText]
  exact ⟨_, _, _, _, _, hwhole, rfl, rfl, rfl⟩

theorem spells_integerText (i : Int) (hx : Closes x) :
    Spells (integerText i ++ x) (.value (ofInt i)) x := by
  have hread := readNumber_integerText i hx
  obtain ⟨c, t, hct, hc⟩ := exists_of_readNumber hread
  have hspace : isSpace c = false := by
    simp only [isSpace, Bool.or_eq_false_iff, beq_eq_false_iff_ne]
    refine ⟨⟨⟨?_, ?_⟩, ?_⟩, ?_⟩ <;>
    · rintro rfl
      rcases hc with hc | hc <;> cases hc
  refine .number ?_
  rw [hct, skipSpace_cons hspace, ← hct]
  exact hread

/-- A double, or what would be one, is no word. -/
theorem word?_real (negative : Bool) (n : Decimal.Scaled) : (real negative n).word? = none := by
  unfold real
  split <;> rfl

/-- **Words.** An integer is a word exactly if it is not negative and fits into 64 bits. -/
theorem word?_ofInt (i : Int) :
    (ofInt i).word? = if 0 ≤ i ∧ i < 2 ^ 64 then some (UInt64.ofNat i.natAbs) else none := by
  have hmax : Text.wordMax = 2 ^ 64 - 1 := rfl
  unfold ofInt
  rcases Nat.lt_or_ge Text.wordMax i.natAbs with hlt | hle
  · rw [if_neg (by omega), integer, if_pos (full_ofWhole_numeral hlt), word?_real]
  · rw [ofWhole_numeral hle, integer, if_neg (by simp)]
    rcases Int.lt_or_le i 0 with hneg | hpos
    · have hout : ¬ (0 ≤ i ∧ i < 2 ^ 64) := by omega
      rw [if_neg (by simpa using hneg), if_neg hout]
      split
      · rfl
      · rw [word?_real]
    · rw [if_pos (by simpa using hpos), if_pos (by omega)]
      rfl

theorem depth_ofInt (i : Int) : (ofInt i).depth = 0 := by
  have hreal : ∀ negative n, (real negative n).depth = 0 := by
    intro negative n
    unfold real
    split <;> rfl
  unfold ofInt integer
  split
  · exact hreal _ _
  · split
    · rfl
    · split
      · rfl
      · exact hreal _ _

/-- The integers of 64 bits, with a sign or without, have a value. -/
theorem isSound_ofInt {i : Int} (h : -2 ^ 63 ≤ i) (h' : i < 2 ^ 64) : (ofInt i).isSound = true := by
  have hmax : Text.wordMax = 2 ^ 64 - 1 := rfl
  rw [ofInt, ofWhole_numeral (by omega), integer, if_neg (by simp)]
  split
  · rfl
  · rename_i hneg
    have hneg : i < 0 := by simpa using hneg
    have hpow : Nat.pow 2 63 = 2 ^ 63 := rfl
    have hnat : 0 < i.natAbs ∧ i.natAbs ≤ Nat.pow 2 63 := by omega
    rw [if_pos hnat]
    rfl

theorem ofInt_toNat (n : UInt64) : ofInt n.toNat = .number (.word n) := by
  have hle : n.toNat ≤ Text.wordMax := Nat.le_pred_of_lt n.toNat_lt
  simp [ofInt, integer, ofWhole_numeral hle]

theorem integerText_toNat (n : UInt64) : integerText n.toNat = Text.numeral n.toNat := by
  simp [integerText, Decimal.sign]

/-! ### Values -/

mutual

/-- Whether a value is made of words, strings and truth values alone. -/
def isPlain : Json → Bool
  | null | bool _ | string _ | number (.word _) => true
  | array items => isPlainItems items
  | object members => isPlainMembers members
  | number _ | flawed => false

def isPlainItems : List Json → Bool
  | [] => true
  | v :: r => v.isPlain && isPlainItems r

def isPlainMembers : List (String × Json) → Bool
  | [] => true
  | (_, v) :: r => v.isPlain && isPlainMembers r

end

theorem ofMembers_some (ms : List (String × Json)) :
    ofMembers (ms.map fun m => (some m.1, m.2)) = .object ms := by
  have hmap : (ms.map fun m => (some m.1, m.2)).mapM
      (fun m : Option String × Json => m.1.map fun name => (name, m.2)) = some ms := by
    induction ms with
    | nil => rfl
    | cons m ms ih => simp [List.mapM_cons, ih]
  rw [ofMembers, hmap]

/-- A member is written as its name in quotes, a colon and its value. -/
theorem spells_member {name : String} (h : Spells (t ++ x) (.value v) x) :
    Spells (renderString name ++ ':' :: t ++ x) (.member (some name, v)) x := by
  have hname := readString_renderChars name.toList (':' :: (t ++ x))
  rw [String.ofList_toList] at hname
  refine .member ?_ hname (skipSpace_cons rfl _) h
  rw [← skipSpace_cons (c := '"') rfl]
  simp [renderString]

mutual

/-- **Values.** The text of a plain value spells it, whatever follows that does not go on with a
    number. -/
theorem spells_renderChars : ∀ v : Json, v.isPlain = true → ∀ {x}, Closes x →
    Spells (v.renderChars ++ x) (.value v) x
  | .null, _, _, _ => .null (skipSpace_cons rfl _)
  | .bool true, _, _, _ => .true (skipSpace_cons rfl _)
  | .bool false, _, _, _ => .false (skipSpace_cons rfl _)
  | .number (.word n), _, _, hx => by
    have hspells := spells_integerText n.toNat hx
    rwa [ofInt_toNat, integerText_toNat] at hspells
  | .string s, _, x, _ => by
    have hread := readString_renderChars s.toList x
    rw [String.ofList_toList] at hread
    refine .string (o := some s) ?_ hread
    rw [← skipSpace_cons (c := '"') rfl]
    simp [renderChars, renderString]
  | .array [], _, _, _ => .emptyArray (skipSpace_cons rfl _) (skipSpace_cons rfl _)
  -- The bracket closes what stands before it, so that nothing has to be known of what follows.
  | .array (v :: vs), h, x, _ => by
    have hitems := spells_renderItems (v :: vs) (by simp) h (x := x)
    rw [renderChars, List.cons_append, List.cons_append, List.append_assoc]
    exact .array (skipSpace_cons rfl _) hitems.skip
  | .object [], _, _, _ => .emptyObject (skipSpace_cons rfl _) (skipSpace_cons rfl _)
  | .object (m :: ms), h, x, _ => by
    have hmembers := spells_renderMembers (m :: ms) (by simp) h (x := x)
    have hobject := Spells.object (skipSpace_cons (c := '\x7b') rfl _) hmembers.skip
    rw [ofMembers_some] at hobject
    rwa [renderChars, List.cons_append, List.cons_append, List.append_assoc]

theorem spells_renderItems : ∀ vs : List Json, vs ≠ [] → isPlainItems vs = true → ∀ {x},
    Spells (renderItems vs ++ ']' :: x) (.items vs) x
  | [], h, _, _ => absurd rfl h
  | [v], _, h, x => by
    obtain ⟨hv, -⟩ := Bool.and_eq_true_iff.mp h
    have hvalue := spells_renderChars v hv (closes_cons (c := ']') rfl (by decide) x)
    exact .lastItem hvalue (skipSpace_cons rfl x)
  | v :: w :: vs, _, h, x => by
    obtain ⟨hv, hvs⟩ := Bool.and_eq_true_iff.mp h
    have hvalue := spells_renderChars v hv
      (closes_cons (c := ',') rfl (by decide) (renderItems (w :: vs) ++ ']' :: x))
    have hitems := spells_renderItems (w :: vs) (by simp) hvs (x := x)
    rw [renderItems, List.append_assoc]
    · exact .item hvalue (skipSpace_cons rfl _) hitems
    · simp

theorem spells_renderMembers : ∀ ms : List (String × Json), ms ≠ [] → isPlainMembers ms = true →
    ∀ {x}, Spells (renderMembers ms ++ '\x7d' :: x)
      (.members (ms.map fun m => (some m.1, m.2))) x
  | [], h, _, _ => absurd rfl h
  | [(name, v)], _, h, x => by
    obtain ⟨hv, -⟩ := Bool.and_eq_true_iff.mp h
    have hvalue := spells_renderChars v hv (closes_cons (c := '\x7d') rfl (by decide) x)
    exact .lastMember (spells_member hvalue) (skipSpace_cons rfl x)
  | (name, v) :: m :: ms, _, h, x => by
    obtain ⟨hv, hms⟩ := Bool.and_eq_true_iff.mp h
    have hvalue := spells_renderChars v hv
      (closes_cons (c := ',') rfl (by decide) (renderMembers (m :: ms) ++ '\x7d' :: x))
    have hmembers := spells_renderMembers (m :: ms) (by simp) hms (x := x)
    rw [renderMembers, List.append_assoc]
    · exact .nextMember (spells_member hvalue) (skipSpace_cons rfl _) hmembers
    · simp

end

/-- **Round trip.** The text of a plain value is read as the value. -/
theorem parse_render (h : v.isPlain = true) : parse v.render = some v := by
  rw [parse_eq_some_iff, render, String.toList_ofList]
  have hspells := spells_renderChars v h closes_nil
  rw [List.append_nil] at hspells
  exact ⟨[], hspells, rfl⟩

/-! ### One line -/

/-- A text without control characters, and so a single line. -/
def IsPrintable (s : List Char) : Prop := ∀ c ∈ s, 0x20 ≤ c.toNat

theorem isPrintable_of_all (h : (s.all fun c => 0x20 ≤ c.toNat) = true) : IsPrintable s :=
  fun c hc => of_decide_eq_true (List.all_eq_true.mp h c hc)

theorem IsPrintable.append (hs : IsPrintable s) (ht : IsPrintable t) : IsPrintable (s ++ t) :=
  fun c hc => (List.mem_append.mp hc).elim (hs c) (ht c)

theorem IsPrintable.cons {c : Char} (hc : 0x20 ≤ c.toNat) (hs : IsPrintable s) :
    IsPrintable (c :: s) := List.forall_mem_cons.mpr ⟨hc, hs⟩

theorem isPrintable_nil : IsPrintable [] := List.forall_mem_nil _

theorem isPrintable_hexPadded (width n : Nat) : IsPrintable (Text.hexPadded width n) := by
  have hdigit : ∀ d : Fin 16, 0x20 ≤ (Text.digitChar d).toNat := by decide
  induction width generalizing n with
  | zero => exact isPrintable_nil
  | succ width ih =>
    exact (ih (n / 16)).append
      (isPrintable_nil.cons (hdigit ⟨n % 16, Nat.mod_lt n (by omega)⟩))

theorem isPrintable_numeral (n : Nat) : IsPrintable (Text.numeral n) := by
  intro c hc
  have hdigit := Text.isDigit_of_mem_numeral n c hc
  simp only [Char.isDigit, Bool.and_eq_true, decide_eq_true_eq] at hdigit
  exact Nat.le_trans (by decide) (UInt32.le_iff_toNat_le.mp hdigit.1)

/-- Whatever is a control character is written by others. -/
theorem isPrintable_renderChar (c : Char) : IsPrintable (renderChar c) := by
  have hescape : ∀ e : Char, 0x20 ≤ e.toNat → IsPrintable ['\\', e] := fun e he =>
    (isPrintable_nil.cons he).cons (by decide)
  unfold renderChar
  repeat' split
  · exact hescape '"' (by decide)
  · exact hescape '\\' (by decide)
  · exact hescape 'n' (by decide)
  · exact hescape 'r' (by decide)
  · exact hescape 't' (by decide)
  · exact hescape 'b' (by decide)
  · exact hescape 'f' (by decide)
  · exact ((isPrintable_hexPadded 4 c.toNat).cons (by decide)).cons (by decide)
  · rename_i hc
    exact isPrintable_nil.cons (Nat.not_lt.mp hc)

theorem isPrintable_renderString (s : String) : IsPrintable (renderString s) := by
  have hinside : IsPrintable (s.toList.flatMap renderChar) := by
    intro c hc
    obtain ⟨d, -, hd⟩ := List.mem_flatMap.mp hc
    exact isPrintable_renderChar d c hd
  exact (hinside.cons (by decide)).append (isPrintable_nil.cons (by decide))

mutual

/-- The text of a plain value has no control characters. -/
theorem isPrintable_renderChars : ∀ v : Json, v.isPlain = true → IsPrintable v.renderChars
  | .null, _ | .bool true, _ | .bool false, _ => isPrintable_of_all rfl
  | .number (.word n), _ => isPrintable_numeral n.toNat
  | .string s, _ => isPrintable_renderString s
  | .array vs, h => ((isPrintable_renderItems vs h).cons (by decide)).append
      (isPrintable_nil.cons (by decide))
  | .object ms, h => ((isPrintable_renderMembers ms h).cons (by decide)).append
      (isPrintable_nil.cons (by decide))

theorem isPrintable_renderItems : ∀ vs : List Json, isPlainItems vs = true →
    IsPrintable (renderItems vs)
  | [], _ => isPrintable_nil
  | [v], h => isPrintable_renderChars v (Bool.and_eq_true_iff.mp h).1
  | v :: w :: vs, h => by
    obtain ⟨hv, hvs⟩ := Bool.and_eq_true_iff.mp h
    have hitems := isPrintable_renderItems (w :: vs) hvs
    exact (isPrintable_renderChars v hv).append (hitems.cons (by decide))

theorem isPrintable_renderMembers : ∀ ms : List (String × Json), isPlainMembers ms = true →
    IsPrintable (renderMembers ms)
  | [], _ => isPrintable_nil
  | [(name, v)], h => by
    have hv := isPrintable_renderChars v (Bool.and_eq_true_iff.mp h).1
    exact (isPrintable_renderString name).append (hv.cons (by decide))
  | (name, v) :: m :: ms, h => by
    obtain ⟨hv, hms⟩ := Bool.and_eq_true_iff.mp h
    have hvalue := isPrintable_renderChars v hv
    have hmembers := isPrintable_renderMembers (m :: ms) hms
    exact ((isPrintable_renderString name).append (hvalue.cons (by decide))).append
      (hmembers.cons (by decide))

end

end TxLoad.Json
