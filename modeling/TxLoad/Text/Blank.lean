namespace TxLoad.Text

/-!
# White space

The characters of the Unicode property `White_Space`, and the removal of such characters at the
two ends of a text.

* `isBlank` contains every character that the core library calls white space
  (`isBlank_of_isWhitespace`);
* `trim` leaves a text without blanks at its ends untouched.
-/

/-- Whether a character has the Unicode property `White_Space`. -/
def isBlank (c : Char) : Bool :=
  let n := c.toNat
  (9 ≤ n && n ≤ 13) || n == 0x20 || n == 0x85 || n == 0xA0 || n == 0x1680 ||
    (0x2000 ≤ n && n ≤ 0x200A) || n == 0x2028 || n == 0x2029 || n == 0x202F || n == 0x205F ||
    n == 0x3000

theorem isBlank_of_isWhitespace {c : Char} (h : c.isWhitespace = true) : isBlank c = true := by
  simp only [Char.isWhitespace, Bool.or_eq_true, decide_eq_true_eq] at h
  rcases h with ((rfl | rfl) | rfl) | rfl <;> rfl

/-- A text without the blanks at its start. -/
def trimStart (s : List Char) : List Char := s.dropWhile isBlank

/-- A text without the blanks at its end. -/
def trimEnd (s : List Char) : List Char := (s.reverse.dropWhile isBlank).reverse

/-- A text without the blanks at its two ends. -/
def trim (s : List Char) : List Char := trimEnd (trimStart s)

/-- A text that starts and ends with characters that are not blank is its own trimmed form. -/
theorem trim_eq_self {s : List Char} (hs : ∀ c ∈ s.head?, isBlank c = false)
    (he : ∀ c ∈ s.getLast?, isBlank c = false) : trim s = s := by
  have h1 : trimStart s = s := by
    cases s with
    | nil => rfl
    | cons c r => simp [trimStart, hs c (by simp)]
  rw [trim, h1, trimEnd]
  have h2 : s.reverse.dropWhile isBlank = s.reverse := by
    cases hr : s.reverse with
    | nil => rfl
    | cons c r =>
      have : c ∈ s.getLast? := by
        rw [List.getLast?_eq_head?_reverse, hr]
        rfl
      simp [he c this]
  rw [h2, List.reverse_reverse]

end TxLoad.Text
