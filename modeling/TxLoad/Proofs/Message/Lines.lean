import TxLoad.Message.Stream
import Mathlib.Data.List.Basic

namespace TxLoad.Message

/-!
# Texts as bytes, bytes as lines

* `Message.ofUtf8?_utf8`: the bytes of a text are read as the text.
* `Message.mem_toList_of_mem_utf8`: a byte below 128 stands for its own character, so that a line
  feed among the bytes of a text is one of its characters.
* `Message.splitLines_append`: bytes are split in the same way however they are cut into pieces.
* `Message.splitLines_line`: a line with its line feed, and perhaps a carriage return before it.
-/

variable {s : String} {b : UInt8} {l : List UInt8}

/-! ### Texts as bytes -/

theorem toList_loop (bytes : ByteArray) (i : Nat) (r : List UInt8) :
    ByteArray.toList.loop bytes i r = r.reverse ++ bytes.data.toList.drop i := by
  fun_induction ByteArray.toList.loop bytes i r with
  | case1 i r hlt ih =>
    have hlength : i < bytes.data.toList.length := by simpa using hlt
    have hget : bytes.get! i = bytes.data.toList[i] := by
      cases bytes
      exact getElem!_pos _ i hlt
    rw [ih, List.drop_eq_getElem_cons hlength, hget, List.reverse_cons, List.append_assoc]
    rfl
  | case2 i r hge =>
    rw [List.drop_eq_nil_of_le (by simpa using Nat.le_of_not_lt hge), List.append_nil]

/-- The bytes of a text are those of its characters. -/
theorem utf8_eq (s : String) : utf8 s = s.toList.flatMap String.utf8EncodeChar := by
  rw [utf8, ByteArray.toList, toList_loop, String.toUTF8_eq_toByteArray, ← String.utf8Encode_toList]
  simp [List.utf8Encode]

theorem utf8_append (s t : String) : utf8 (s ++ t) = utf8 s ++ utf8 t := by
  simp [utf8_eq, String.toList_append]

/-- The bytes of a text are read as the text. -/
theorem ofUtf8?_utf8 (s : String) : ofUtf8? (utf8 s) = some s := by
  have hbytes : (⟨(utf8 s).toArray⟩ : ByteArray) = s.toByteArray := by
    rw [utf8, ByteArray.toList, toList_loop]
    simp
  rw [ofUtf8?, hbytes, String.fromUTF8?, dif_pos s.isValidUTF8]
  rfl

/-- Bytes that are read as a text are its bytes. -/
theorem eq_utf8_of_ofUtf8? (h : ofUtf8? l = some s) : l = utf8 s := by
  rw [ofUtf8?, String.fromUTF8?] at h
  split at h
  · cases h
    rw [utf8, ByteArray.toList, toList_loop]
    rfl
  · cases h

/-- A byte below 128 stands for the character of its number, and for nothing else. -/
theorem utf8EncodeChar_of_mem {c : Char} (hb : b ∈ String.utf8EncodeChar c) (hlow : b.toNat < 128) :
    String.utf8EncodeChar c = [b] ∧ c.toNat = b.toNat := by
  have hhigh : ∀ n, 128 ≤ n → n < 256 → b ≠ UInt8.ofNat n := by
    rintro n hn hlt rfl
    rw [UInt8.toNat_ofNat', Nat.mod_eq_of_lt hlt] at hlow
    omega
  unfold String.utf8EncodeChar at hb ⊢
  simp only at hb ⊢
  split at hb
  · rename_i hle
    obtain rfl := List.mem_singleton.mp hb
    rw [if_pos hle]
    refine ⟨rfl, ?_⟩
    rw [UInt8.toNat_ofNat', Nat.mod_eq_of_lt (Nat.lt_of_le_of_lt hle (by decide))]
    rfl
  -- Every other byte is 128 at least.
  split at hb
  · simp only [List.mem_cons, List.not_mem_nil, or_false] at hb
    rcases hb with hb | hb <;> exact absurd hb (hhigh _ (by omega) (by omega))
  split at hb
  · simp only [List.mem_cons, List.not_mem_nil, or_false] at hb
    rcases hb with hb | hb | hb <;> exact absurd hb (hhigh _ (by omega) (by omega))
  · simp only [List.mem_cons, List.not_mem_nil, or_false] at hb
    rcases hb with hb | hb | hb | hb <;> exact absurd hb (hhigh _ (by omega) (by omega))

theorem mem_toList_of_mem_utf8 {c : Char} (hb : b ∈ utf8 s) (hlow : b.toNat < 128)
    (hc : c.toNat = b.toNat) : c ∈ s.toList := by
  rw [utf8_eq] at hb
  obtain ⟨d, hd, hb⟩ := List.mem_flatMap.mp hb
  have hnat := (utf8EncodeChar_of_mem hb hlow).2
  rwa [Char.toNat_inj.mp (hc.trans hnat.symm)]

/-- A text that ends with a byte below 128 ends with its character. -/
theorem exists_of_getLast?_utf8 {c : Char} (hb : (utf8 s).getLast? = some b) (hlow : b.toNat < 128)
    (hc : c.toNat = b.toNat) : ∃ cs, s.toList = cs ++ [c] := by
  rw [utf8_eq] at hb
  rcases List.eq_nil_or_concat' s.toList with hs | ⟨cs, d, hs⟩
  · rw [hs] at hb
    cases hb
  · rw [hs, List.flatMap_append, List.flatMap_singleton,
      List.getLast?_append_of_ne_nil _ String.utf8EncodeChar_ne_nil] at hb
    have hnat := (utf8EncodeChar_of_mem (List.mem_of_getLast? hb) hlow).2
    exact ⟨cs, by rw [hs, Char.toNat_inj.mp (hc.trans hnat.symm)]⟩

/-! ### Bytes as lines -/

/-- Bytes are split in the same way however they are cut into pieces. -/
theorem splitLines_append (line as bs : List UInt8) : splitLines line (as ++ bs) =
    ((splitLines line as).1 ++ (splitLines (splitLines line as).2.reverse bs).1,
      (splitLines (splitLines line as).2.reverse bs).2) := by
  induction as generalizing line with
  | nil => simp [splitLines]
  | cons a as ih =>
    by_cases ha : a = 10
    · simp [splitLines, ha, ih]
    · simp [splitLines, ha, ih]

/-- A line without the carriage return at its end. -/
def chomp (l : List UInt8) : List UInt8 := if l.getLast? = some 13 then l.dropLast else l

theorem splitLines_of_not_mem (line : List UInt8) (hl : 10 ∉ l) :
    splitLines line l = ([], line.reverse ++ l) := by
  induction l generalizing line with
  | nil => simp [splitLines]
  | cons a l ih =>
    rw [List.mem_cons, not_or] at hl
    obtain ⟨ha, hl⟩ := hl
    simp [splitLines, Ne.symm ha, ih _ hl]

/-- **Lines.** A line ends with its line feed. -/
theorem splitLines_line (hl : 10 ∉ l) : splitLines [] (l ++ [10]) = ([chomp l], []) := by
  rw [splitLines_append, splitLines_of_not_mem [] hl]
  rcases List.eq_nil_or_concat' l with rfl | ⟨front, a, rfl⟩
  · rfl
  · by_cases ha : a = 13
    · simp [splitLines, chomp, ha]
    · simp [splitLines, chomp, ha]

end TxLoad.Message
