import TxLoad.Stats.Summary
import TxLoad.Proofs.Text.Numeral
import Mathlib.Data.List.TakeWhile

namespace TxLoad

/-!
# Tables are read back

The table of a summary is read back as the summary, and so is any text that is made of its lines in
some order, with blanks around them, whatever lines that say nothing stand between them, and however
the lines end.

That a figure which is no whole number is read back from its text is a matter of its digits alone,
and is supposed here.

* `Text.trim_append`: blanks around a text do not matter.
* `Summary.exists_lines_eq`: a text is split into its lines, up to blanks at their ends.
* `Summary.readRow_rowOf`: a row of the table stores its own figure and nothing else.
* `Summary.ofTable_table`: the table is read as the summary.
* `Summary.ofTable_of_perm`: every such text is.
-/

/-! ### Blanks -/

namespace Text

variable {p q s : List Char} {c : Char}

theorem trimStart_append (hp : ∀ c ∈ p, isBlank c = true) (s : List Char) :
    trimStart (p ++ s) = trimStart s := List.dropWhile_append_of_pos hp

theorem trimEnd_append (s : List Char) (hq : ∀ c ∈ q, isBlank c = true) :
    trimEnd (s ++ q) = trimEnd s := by
  have hq' : ∀ c ∈ q.reverse, isBlank c = true := fun c hc => hq c (List.mem_reverse.mp hc)
  rw [trimEnd, List.reverse_append, List.dropWhile_append_of_pos hq', trimEnd]

theorem trimStart_eq_nil_of_blank (hp : ∀ c ∈ p, isBlank c = true) : trimStart p = [] := by
  rw [← List.append_nil p, trimStart_append hp]
  rfl

/-- **Blanks.** Those around a text do not matter. -/
theorem trim_append (hp : ∀ c ∈ p, isBlank c = true) (s : List Char)
    (hq : ∀ c ∈ q, isBlank c = true) : trim (p ++ s ++ q) = trim s := by
  rw [trim, trim, List.append_assoc, trimStart_append hp]
  by_cases hs : trimStart s = []
  · have hblank : ∀ c ∈ s, isBlank c = true := List.dropWhile_eq_nil_iff.mp hs
    rw [trimStart_append hblank, trimStart_eq_nil_of_blank hq, hs]
  · have hsplit : trimStart (s ++ q) = trimStart s ++ q := by
      rw [trimStart, List.dropWhile_append, if_neg (by simpa [trimStart] using hs)]
      rfl
    rw [hsplit, trimEnd_append _ hq]

end Text

namespace Summary

/-! ### Lines -/

/-- What may stand around a row: blanks other than the end of a line, such as spaces and tabs. -/
def isPad (c : Char) : Bool := Text.isBlank c && c != '\n'

/-- The two ends of a line. -/
inductive IsEnd : List Char → Prop where
  | feed : IsEnd ['\n']
  | returnFeed : IsEnd ['\r', '\n']

/-- A line without the carriage return at its end. -/
def chomp (line : List Char) : List Char :=
  match line.reverse with
  | '\r' :: l => l.reverse
  | l => l.reverse

theorem trim_chomp (line : List Char) : Text.trim (chomp line) = Text.trim line := by
  unfold chomp
  split
  · rename_i l hl
    have hline : line = [] ++ l.reverse ++ ['\r'] := by
      rw [← List.reverse_reverse line, hl]
      simp
    rw [hline, Text.trim_append (by simp) _ (by simp; decide)]
  · rw [List.reverse_reverse]

theorem splitLines_append {line : List Char} (hline : '\n' ∉ line) (acc r : List Char) :
    splitLines acc (line ++ '\n' :: r) =
      chomp (acc.reverse ++ line) :: splitLines [] r := by
  induction line generalizing acc with
  | nil =>
    rw [List.append_nil, chomp, List.reverse_reverse]
    rfl
  | cons c line ih =>
    rw [List.mem_cons, not_or] at hline
    rw [List.cons_append, splitLines, ih hline.2]
    · simp
    · exact fun h => hline.1 h.symm

/-- **Lines.** A text is split after its first line, which loses at most a blank at its end. -/
theorem exists_lines_eq {line e : List Char} (hline : '\n' ∉ line) (he : IsEnd e) (r : List Char) :
    ∃ line', lines (line ++ e ++ r) = line' :: lines r ∧ Text.trim line' = Text.trim line := by
  cases he with
  | feed =>
    refine ⟨chomp line, ?_, trim_chomp line⟩
    rw [lines, List.append_assoc]
    exact splitLines_append hline [] r
  | returnFeed =>
    have hline' : '\n' ∉ line ++ ['\r'] := by simp [hline]
    refine ⟨chomp (line ++ ['\r']), ?_, ?_⟩
    · have hsplit := splitLines_append hline' [] r
      simpa [lines] using hsplit
    · have hreturn := Text.trim_append (p := []) (by simp) line (q := ['\r']) (by simp; decide)
      rw [trim_chomp]
      simpa using hreturn

/-! ### Lines that say nothing -/

/-- The figures of a summary. -/
inductive Figure where
  | time
  | transactions
  | bytes
  | transactionRate
  | dataRate

def Figure.all : List Figure := [.time, .transactions, .bytes, .transactionRate, .dataRate]

def Figure.label : Figure → String
  | time => "total_time"
  | transactions => "total_txs"
  | bytes => "total_bytes"
  | transactionRate => "avg_tx_rate"
  | dataRate => "avg_data_rate"

def Figure.unit : Figure → String
  | time => "seconds"
  | transactions => "count"
  | bytes => "bytes"
  | transactionRate => "transactions per second"
  | dataRate => "bytes per second"

/-- A row with blanks around it. -/
def Pads (row line : List Char) : Prop :=
  ∃ p q, line = p ++ row ++ q ∧ p.all isPad = true ∧ q.all isPad = true

/-- A line that says nothing of a summary. -/
inductive IsIdle : List Char → Prop where
  | blank {line : List Char} (h : Pads [] line) : IsIdle line
  | header {line : List Char} (h : Pads header.toList line) : IsIdle line
  /-- Whatever follows a label that is none of a figure. -/
  | foreign {line label rest : List Char} (hline : '\n' ∉ line)
    (htrim : Text.trim line = label ++ ',' :: rest) (hcomma : ',' ∉ label)
    (hlabel : ∀ f : Figure, String.ofList label ≠ f.label) : IsIdle line

variable {s t : Summary} {line label row : List Char}

theorem isBlank_of_all {p : List Char} (h : p.all isPad = true) :
    ∀ c ∈ p, Text.isBlank c = true := by
  intro c hc
  have hpad := List.all_eq_true.mp h c hc
  simp only [isPad, Bool.and_eq_true] at hpad
  exact hpad.1

theorem Pads.refl (row : List Char) : Pads row row := ⟨[], [], by simp, rfl, rfl⟩

theorem Pads.trim_eq (h : Pads row line) : Text.trim line = Text.trim row := by
  obtain ⟨p, q, rfl, hp, hq⟩ := h
  exact Text.trim_append (isBlank_of_all hp) row (isBlank_of_all hq)

theorem Pads.not_mem (h : Pads row line) (hrow : '\n' ∉ row) : '\n' ∉ line := by
  obtain ⟨p, q, rfl, hp, hq⟩ := h
  have hnot : ∀ l : List Char, l.all isPad = true → '\n' ∉ l := fun l hl hmem =>
    Bool.noConfusion (List.all_eq_true.mp hl _ hmem)
  simp [hnot p hp, hnot q hq, hrow]

/-- Only the trimmed line counts. -/
theorem readRow_congr {line' : List Char} (h : Text.trim line = Text.trim line') (t : Summary) :
    readRow t line = readRow t line' := by
  simp only [readRow, h]

theorem cut_append (hlabel : ',' ∉ label) (rest : List Char) :
    cut (label ++ ',' :: rest) = (label, some rest) := by
  have hall : ∀ c ∈ label, (c != ',') = true := fun c hc => by
    simpa using fun heq : c = ',' => hlabel (heq ▸ hc)
  simp [cut, List.takeWhile_append_of_pos hall, List.dropWhile_append_of_pos hall]

theorem setField_of_foreign {name : String} (h : ∀ f : Figure, name ≠ f.label)
    (value : List Char) : t.setField name value = some t := by
  unfold setField
  simp only
  split
  · exact absurd rfl (h .time)
  · exact absurd rfl (h .transactions)
  · exact absurd rfl (h .bytes)
  · exact absurd rfl (h .transactionRate)
  · exact absurd rfl (h .dataRate)
  · rfl

theorem IsIdle.not_mem (h : IsIdle line) : '\n' ∉ line := by
  cases h with
  | blank h => exact h.not_mem (by simp)
  | header h => exact h.not_mem (by decide)
  | foreign hline => exact hline

/-- **Idle lines.** They are passed over. -/
theorem readRow_of_isIdle (h : IsIdle line) (t : Summary) : readRow t line = .ok t := by
  cases h with
  | blank h =>
    rw [readRow_congr h.trim_eq]
    rfl
  | header h =>
    rw [readRow_congr h.trim_eq]
    have htrim : Text.trim header.toList = header.toList := by decide
    rw [readRow, htrim]
    simp
  | foreign _ htrim hcomma hlabel =>
    by_cases hheader : String.ofList (Text.trim line) = header
    · simp [readRow, hheader]
    · simp only [readRow, hheader, or_false]
      rw [htrim, cut_append hcomma, if_neg (by simp)]
      simp [setField_of_foreign hlabel]

/-! ### Rows of figures -/

/-- The text of a figure. -/
def Figure.value (s : Summary) : Figure → String
  | time => Decimal.display s.time
  | transactions => Text.decimal s.transactions.toNat
  | bytes => Text.decimal s.bytes.toNat
  | transactionRate => Decimal.display s.transactionRate
  | dataRate => Decimal.display s.dataRate

/-- The row of a figure. -/
def rowOf (s : Summary) (f : Figure) : String := f.label ++ "," ++ f.value s ++ "," ++ f.unit

/-- The summary `t` with a figure of `s`. -/
def Figure.copy (s t : Summary) : Figure → Summary
  | time => { t with time := s.time }
  | transactions => { t with transactions := s.transactions }
  | bytes => { t with bytes := s.bytes }
  | transactionRate => { t with transactionRate := s.transactionRate }
  | dataRate => { t with dataRate := s.dataRate }

theorem rows_eq (s : Summary) : s.rows = header :: Figure.all.map s.rowOf := by
  simp [rows, Figure.all, rowOf, Figure.label, Figure.unit, Figure.value, ← String.toList_inj]

/-- The characters of a figure. -/
def isFigureChar (c : Char) : Bool := c.isDigit || "-.infNa".toList.contains c

theorem isFigureChar_of_isDigit {c : Char} (hc : c.isDigit = true) : isFigureChar c = true := by
  simp [isFigureChar, hc]

/-- A figure has no comma, no blank and no end of a line. -/
theorem clean_of_isFigureChar {c : Char} (hc : isFigureChar c = true) :
    c ≠ ',' ∧ c ≠ '\n' ∧ Text.isBlank c = false := by
  simp only [isFigureChar, Bool.or_eq_true] at hc
  rcases hc with hc | hc
  · have hrange := Char.isDigit_iff_toNat.mp hc
    have hlow : 48 ≤ c.toNat := hrange.1
    have hhigh : c.toNat ≤ 57 := hrange.2
    refine ⟨?_, ?_, ?_⟩
    · rintro rfl
      exact absurd hc (by decide)
    · rintro rfl
      exact absurd hc (by decide)
    · simp only [Text.isBlank, Bool.or_eq_false_iff, Bool.and_eq_false_iff, decide_eq_false_iff_not,
        beq_eq_false_iff_ne]
      omega
  · have hall : "-.infNa".toList.all (fun c => c != ',' && c != '\n' && !Text.isBlank c) = true := by
      decide
    simpa [and_assoc] using List.all_eq_true.mp hall c (List.contains_iff_mem.mp hc)

theorem isFigureChar_of_mem_numeral (n : Nat) : ∀ c ∈ Text.numeral n, isFigureChar c = true :=
  fun c hc => isFigureChar_of_isDigit (Text.isDigit_of_mem_numeral n c hc)

theorem isFigureChar_of_mem_positional (d : Nat) (j : Int) :
    ∀ c ∈ Decimal.positional d j, isFigureChar c = true := by
  have hpadded : ∀ n, ∀ c ∈ List.replicate n '0' ++ Text.numeral d, isFigureChar c = true := by
    intro n c hc
    rcases List.mem_append.mp hc with hc | hc
    · rw [List.eq_of_mem_replicate hc]
      rfl
    · exact isFigureChar_of_mem_numeral d c hc
  intro c hc
  unfold Decimal.positional at hc
  simp only at hc
  split at hc
  · exact hpadded _ c (List.mem_append.mpr (List.mem_append.mp hc).symm)
  · rcases List.mem_append.mp hc with hc | hc
    · exact hpadded _ c (List.mem_of_mem_take hc)
    · rcases List.mem_cons.mp hc with rfl | hc
      · rfl
      · exact hpadded _ c (List.mem_of_mem_drop hc)

theorem isFigureChar_of_mem_display (x : Float) :
    ∀ c ∈ (Decimal.display x).toList, isFigureChar c = true := by
  have hsign : ∀ negative, ∀ c ∈ Decimal.sign negative, isFigureChar c = true := by
    intro negative
    cases negative <;> exact List.all_eq_true.mp rfl
  unfold Decimal.display
  split
  · exact List.all_eq_true.mp rfl
  · rename_i negative _
    rw [String.toList_ofList]
    exact List.forall_mem_append.mpr ⟨hsign negative, List.all_eq_true.mp rfl⟩
  · rename_i negative m e _
    rw [String.toList_ofList]
    refine List.forall_mem_append.mpr ⟨hsign negative, ?_⟩
    split
    · exact List.all_eq_true.mp rfl
    · exact isFigureChar_of_mem_positional _ _

theorem isFigureChar_of_mem_value (s : Summary) (f : Figure) :
    ∀ c ∈ (f.value s).toList, isFigureChar c = true := by
  cases f with
  | time => exact isFigureChar_of_mem_display s.time
  | transactionRate => exact isFigureChar_of_mem_display s.transactionRate
  | dataRate => exact isFigureChar_of_mem_display s.dataRate
  | transactions | bytes =>
    rw [Figure.value, Text.decimal, String.toList_ofList]
    exact isFigureChar_of_mem_numeral _

theorem trim_value (s : Summary) (f : Figure) :
    Text.trim (f.value s).toList = (f.value s).toList :=
  Text.trim_eq_self
    (fun c hc => (clean_of_isFigureChar
      (isFigureChar_of_mem_value s f c (List.mem_of_mem_head? hc))).2.2)
    (fun c hc => (clean_of_isFigureChar
      (isFigureChar_of_mem_value s f c (List.mem_of_getLast? hc))).2.2)

/-- A number is read back from its text. -/
def ReadsBack (x : Float) : Prop := Decimal.read (Decimal.display x).toList = some x

instance (x : Float) : Decidable (ReadsBack x) :=
  inferInstanceAs (Decidable (Decimal.read (Decimal.display x).toList = some x))

/-- The numbers of a summary are read back from their texts. -/
structure IsLegible (s : Summary) : Prop where
  time : ReadsBack s.time
  transactionRate : ReadsBack s.transactionRate
  dataRate : ReadsBack s.dataRate

/-- The value of a figure is stored in its field. -/
theorem setField_value (hs : IsLegible s) (t : Summary) (f : Figure) :
    t.setField f.label (f.value s).toList = some (f.copy s t) := by
  have hword : ∀ n : UInt64, (Text.readNumeral Text.wordMax (Text.decimal n.toNat).toList).map
      UInt64.ofNat = some n := Text.readWord_decimal
  unfold setField
  simp only [trim_value]
  cases f with
  | time => exact congrArg (Option.map _) hs.time
  | transactionRate => exact congrArg (Option.map _) hs.transactionRate
  | dataRate => exact congrArg (Option.map _) hs.dataRate
  | transactions => exact congrArg (Option.map _) (hword s.transactions)
  | bytes => exact congrArg (Option.map _) (hword s.bytes)

theorem toList_rowOf (s : Summary) (f : Figure) : (s.rowOf f).toList =
    f.label.toList ++ ',' :: ((f.value s).toList ++ ',' :: f.unit.toList) := by
  simp [rowOf]

/-- A row starts with a label and ends with a unit. -/
theorem trim_rowOf (s : Summary) (f : Figure) :
    Text.trim (s.rowOf f).toList = (s.rowOf f).toList := by
  have hlabel : ∃ c r, f.label.toList = c :: r ∧ Text.isBlank c = false := by
    cases f <;> exact ⟨_, _, rfl, rfl⟩
  have hunit : ∃ c, f.unit.toList.getLast? = some c ∧ Text.isBlank c = false := by
    cases f <;> exact ⟨_, rfl, rfl⟩
  obtain ⟨c, r, hc, hblank⟩ := hlabel
  obtain ⟨u, hu, hblank'⟩ := hunit
  refine Text.trim_eq_self ?_ ?_
  · rw [toList_rowOf, hc]
    rintro d hd
    cases hd
    exact hblank
  · have hsplit : (s.rowOf f).toList =
        f.label.toList ++ ',' :: (f.value s).toList ++ [','] ++ f.unit.toList := by
      simp [toList_rowOf]
    rw [hsplit, List.getLast?_append, hu]
    rintro d hd
    cases hd
    exact hblank'

theorem comma_not_mem_label (f : Figure) : ',' ∉ f.label.toList := by
  cases f <;> decide

theorem comma_not_mem_value (s : Summary) (f : Figure) : ',' ∉ (f.value s).toList :=
  fun hmem => (clean_of_isFigureChar (isFigureChar_of_mem_value s f _ hmem)).1 rfl

theorem feed_not_mem_rowOf (s : Summary) (f : Figure) : '\n' ∉ (s.rowOf f).toList := by
  have hvalue : '\n' ∉ (f.value s).toList :=
    fun hmem => (clean_of_isFigureChar (isFigureChar_of_mem_value s f _ hmem)).2.1 rfl
  have hlabel : '\n' ∉ f.label.toList := by cases f <;> decide
  have hunit : '\n' ∉ f.unit.toList := by cases f <;> decide
  simp [toList_rowOf, hvalue, hlabel, hunit]

/-- **Rows.** A row stores its own figure and leaves the others. -/
theorem readRow_rowOf (hs : IsLegible s) (t : Summary) (f : Figure) :
    readRow t (s.rowOf f).toList = .ok (f.copy s t) := by
  have hheader : s.rowOf f ≠ header := by
    intro heq
    have hhead := congrArg (fun r : String => r.toList.head?) heq
    simp only [toList_rowOf] at hhead
    cases f <;> cases hhead
  have hne : (s.rowOf f).toList ≠ [] := by simp [toList_rowOf]
  simp only [readRow, trim_rowOf, String.ofList_toList]
  rw [if_neg (by simpa [hheader] using hne), toList_rowOf, cut_append (comma_not_mem_label f)]
  simp only [cut_append (comma_not_mem_value s f), String.ofList_toList, setField_value hs]

/-! ### Texts -/

/-- A text lays out some rows, each in a line of its own, with lines between them that say
    nothing. -/
inductive LaysOut : List String → List Char → Prop where
  | nil : LaysOut [] []
  | row {row : String} {rows : List String} {line e text : List Char}
    (hline : Pads row.toList line) (he : IsEnd e) (h : LaysOut rows text) :
    LaysOut (row :: rows) (line ++ e ++ text)
  | idle {rows : List String} {line e text : List Char} (hline : IsIdle line) (he : IsEnd e)
    (h : LaysOut rows text) : LaysOut rows (line ++ e ++ text)

/-- A text is read row by row. -/
theorem foldlM_lines {rows : List String} {text : List Char} (h : LaysOut rows text)
    (hfeed : ∀ row ∈ rows, '\n' ∉ row.toList) (t : Summary) :
    (lines text).foldlM readRow t = rows.foldlM (fun t row => readRow t row.toList) t := by
  induction h generalizing t with
  | nil => rfl
  | @row row rows line e text hline he _ ih =>
    obtain ⟨hrow, hrows⟩ := List.forall_mem_cons.mp hfeed
    obtain ⟨line', hlines, htrim⟩ := exists_lines_eq (hline.not_mem hrow) he text
    rw [hlines, List.foldlM_cons, List.foldlM_cons, readRow_congr (htrim.trans hline.trim_eq)]
    exact bind_congr fun u => ih hrows u
  | @idle rows line e text hline he _ ih =>
    obtain ⟨line', hlines, htrim⟩ := exists_lines_eq hline.not_mem he text
    rw [hlines, List.foldlM_cons, readRow_congr htrim, readRow_of_isIdle hline]
    exact ih hfeed t

/-! ### Any order -/

theorem foldlM_perm {α β ε : Type} {f : β → α → Except ε β} {l l' : List α} (h : l.Perm l')
    (hcomm : ∀ a ∈ l, ∀ b ∈ l, ∀ t, (f t a >>= fun u => f u b) = (f t b >>= fun u => f u a))
    (t : β) : l.foldlM f t = l'.foldlM f t := by
  induction h generalizing t with
  | nil => rfl
  | cons a h ih =>
    simp only [List.foldlM_cons]
    exact bind_congr fun u => ih (fun b hb c hc =>
      hcomm b (List.mem_cons_of_mem a hb) c (List.mem_cons_of_mem a hc)) u
  | swap a b l =>
    simp only [List.foldlM_cons, ← bind_assoc]
    rw [hcomm b (by simp) a (by simp)]
  | trans h h' ih ih' =>
    exact (ih hcomm t).trans (ih' (fun a ha b hb =>
      hcomm a (h.mem_iff.mpr ha) b (h.mem_iff.mpr hb)) t)

theorem Figure.copy_comm (s t : Summary) (f g : Figure) :
    g.copy s (f.copy s t) = f.copy s (g.copy s t) := by
  cases f <;> cases g <;> rfl

theorem readRow_header (t : Summary) : readRow t header.toList = .ok t :=
  readRow_of_isIdle (.header (.refl _)) t

/-- **Order.** Of two rows of the table it does not matter which is read first. -/
theorem readRow_comm (hs : IsLegible s) {row row' : String} (h : row ∈ s.rows) (h' : row' ∈ s.rows)
    (t : Summary) : (readRow t row.toList >>= fun u => readRow u row'.toList) =
      (readRow t row'.toList >>= fun u => readRow u row.toList) := by
  rw [rows_eq, List.mem_cons, List.mem_map] at h h'
  rcases h with rfl | ⟨f, -, rfl⟩ <;> rcases h' with rfl | ⟨g, -, rfl⟩
  · rfl
  · simp only [readRow_header, readRow_rowOf hs]
    rfl
  · simp only [readRow_header, readRow_rowOf hs]
    rfl
  · simp only [readRow_rowOf hs]
    exact congrArg Except.ok (Figure.copy_comm s t f g)

/-- The rows of the table make the summary. -/
theorem foldlM_rows (hs : IsLegible s) :
    s.rows.foldlM (fun t row => readRow t row.toList) {} = .ok s := by
  simp only [rows_eq, Figure.all, List.map_cons, List.map_nil, List.foldlM_cons, List.foldlM_nil,
    readRow_header, readRow_rowOf hs]
  rfl

theorem feed_not_mem_rows {row : String} (h : row ∈ s.rows) : '\n' ∉ row.toList := by
  rw [rows_eq, List.mem_cons, List.mem_map] at h
  rcases h with rfl | ⟨f, -, rfl⟩
  · decide
  · exact feed_not_mem_rowOf s f

/-! ### Main results -/

theorem laysOut_join (rows : List String) :
    LaysOut rows (String.join (rows.map (· ++ "\n"))).toList := by
  induction rows with
  | nil => exact .nil
  | cons row rows ih =>
    have hrest := LaysOut.row (.refl row.toList) .feed ih
    rw [String.toList_join] at hrest ⊢
    rwa [List.map_cons, List.flatMap_cons, String.toList_append]

/-- **Round trip.** The table of a summary is read as the summary. -/
theorem ofTable_table (hs : IsLegible s) : ofTable s.table = .ok s :=
  (foldlM_lines (laysOut_join s.rows) (fun _ => feed_not_mem_rows) {}).trans (foldlM_rows hs)

/-- **Tables.** A text that lays out the rows of a summary in any order is read as the summary, if
its numbers are read back from their texts. -/
theorem ofTable_of_perm (hs : IsLegible s) {rows : List String} (hperm : rows.Perm s.rows)
    {text : String} (h : LaysOut rows text.toList) : ofTable text = .ok s := by
  have hfeed : ∀ row ∈ rows, '\n' ∉ row.toList := fun row hrow =>
    feed_not_mem_rows (hperm.mem_iff.mp hrow)
  have horder : ∀ row ∈ s.rows, ∀ row' ∈ s.rows, ∀ t, _ := fun row hrow row' hrow' =>
    readRow_comm hs hrow hrow'
  calc ofTable text
      = rows.foldlM (fun t row => readRow t row.toList) {} := foldlM_lines h hfeed {}
    _ = s.rows.foldlM (fun t row => readRow t row.toList) {} :=
        (foldlM_perm hperm.symm horder {}).symm
    _ = .ok s := foldlM_rows hs

/-- A run of 50 transactions in half a second. -/
def briefRun : Summary where
  transactions := 50
  bytes := 12500
  time := Float.ofBits 0x3FE0000000000000
  transactionRate := Float.ofBits 0x4059000000000000
  dataRate := Float.ofBits 0x40D86A0000000000

/-- Its table with the rows in another order, other lines between them, blanks around some and both
    ends of lines. -/
def briefText : String := String.join
  ["  total_bytes,12500,bytes\t", "\r\n",
   "", "\n",
   "latency,3,ms,per transaction", "\n",
   "avg_data_rate,25000,bytes per second", "\n",
   " Parameter,Value,Units", "\r\n",
   "total_time,0.5,seconds", "\r\n",
   " \t", "\n",
   header, "\n",
   "avg_tx_rate,100,transactions per second", "\n",
   "total_txs,50,count", "\n"]

/-- A text of such a kind that is read. -/
theorem ofTable_of_perm_brief : ofTable briefText = .ok briefRun := by
  have hlegible : IsLegible briefRun := by
    constructor <;> decide +kernel
  have hrows : briefRun.rows = [header, "total_time,0.5,seconds", "total_txs,50,count",
      "total_bytes,12500,bytes", "avg_tx_rate,100,transactions per second",
      "avg_data_rate,25000,bytes per second"] := by decide +kernel
  have hperm : List.Perm ["total_bytes,12500,bytes",
      "avg_data_rate,25000,bytes per second", "total_time,0.5,seconds", header,
      "avg_tx_rate,100,transactions per second", "total_txs,50,count"]
      briefRun.rows := by
    rw [hrows]
    decide
  have hbytes : Pads "total_bytes,12500,bytes".toList "  total_bytes,12500,bytes\t".toList :=
    ⟨"  ".toList, "\t".toList, rfl, by decide, by decide⟩
  have hforeign : IsIdle "latency,3,ms,per transaction".toList := by
    have htrim : Text.trim "latency,3,ms,per transaction".toList =
        "latency".toList ++ ',' :: "3,ms,per transaction".toList := by decide
    refine .foreign (by decide) htrim (by decide) fun f => ?_
    cases f <;> decide
  have hheader : IsIdle " Parameter,Value,Units".toList :=
    .header ⟨" ".toList, [], rfl, by decide, by decide⟩
  have hblank : IsIdle " \t".toList := .blank ⟨" \t".toList, [], rfl, by decide, by decide⟩
  have hlays : LaysOut _ _ :=
    .row hbytes .returnFeed <| .idle (.blank (.refl [])) .feed <| .idle hforeign .feed <|
    .row (.refl "avg_data_rate,25000,bytes per second".toList) .feed <|
    .idle hheader .returnFeed <| .row (.refl "total_time,0.5,seconds".toList) .returnFeed <|
    .idle hblank .feed <| .row (.refl header.toList) .feed <|
    .row (.refl "avg_tx_rate,100,transactions per second".toList) .feed <|
    .row (.refl "total_txs,50,count".toList) .feed .nil
  obtain ⟨text, htext, hlays⟩ : ∃ text, briefText.toList = text ∧ LaysOut _ text := by
    refine ⟨_, ?_, hlays⟩
    simp only [briefText, String.toList_join, List.flatMap_cons, List.flatMap_nil,
      List.append_assoc]
    rfl
  exact ofTable_of_perm hlegible hperm (htext ▸ hlays)

end Summary

end TxLoad
