import TxLoad.Proofs.Message.Lines
import TxLoad.Proofs.Message.RoundTrip

namespace TxLoad

/-!
# Messages between other lines

Between the frames of messages there may be blank lines, which mean nothing, and lines that are no
messages, each of which is a fault of its own. None of them affects the messages around it.

* `Message.ofWire?_of_return`: a carriage return at the end of a line neither makes nor breaks a
  message.
* `Message.Line` is a message, a blank line or noise; `Message.Line.reading?` is what is read of it.
* `Message.readLine_chomp`: a line is read as what it is.
* `Message.readAll_stream`: a stream of lines is read line by line, in whatever pieces it arrives.
-/

namespace Json

/-- A carriage return behind a text changes nothing. -/
theorem parse_of_return {text text' : String} (h : text'.toList = text.toList ++ ['\r']) {v : Json}
    (hv : parse text = some v) : parse text' = some v := by
  obtain ⟨r, hspells, hr⟩ := parse_eq_some_iff.mp hv
  have hclosed : Closes ['\r'] := closes_cons rfl (by decide) []
  rw [parse_eq_some_iff, h]
  refine ⟨r ++ ['\r'], hspells.append hclosed, ?_⟩
  have hblank : ∀ c ∈ r, isSpace c = true := List.dropWhile_eq_nil_iff.mp hr
  refine List.dropWhile_eq_nil_iff.mpr fun c hc => ?_
  rcases List.mem_append.mp hc with hc | hc
  · exact hblank c hc
  · rw [List.mem_singleton.mp hc]
    rfl

end Json

namespace Text

/-- Nothing is left of a text without its blanks if it has nothing else. -/
theorem isEmpty_trim (s : List Char) : (trim s).isEmpty = s.all isBlank := by
  rw [Bool.eq_iff_iff, List.isEmpty_iff, List.all_eq_true, trim, trimEnd, trimStart,
    List.reverse_eq_nil_iff, List.dropWhile_eq_nil_iff]
  constructor
  · intro h c hc
    rw [← List.takeWhile_append_dropWhile (p := isBlank) (l := s)] at hc
    rcases List.mem_append.mp hc with hc | hc
    · exact List.mem_takeWhile_imp hc
    · exact h c (List.mem_reverse.mpr hc)
  · intro h c hc
    exact h c ((List.dropWhile_suffix isBlank).subset (List.mem_reverse.mp hc))

end Text

namespace Message

/-- A carriage return at the end of a line neither makes nor breaks a message. -/
theorem ofWire?_of_return {text text' : String} (h : text'.toList = text.toList ++ ['\r'])
    (hnone : ofWire? text' = none) : ofWire? text = none := by
  cases hm : ofWire? text with
  | none => rfl
  | some m =>
    obtain ⟨v, hv, hread⟩ := Option.bind_eq_some_iff.mp hm
    rw [ofWire?, Json.parse_of_return h hv, Option.bind_some, hread] at hnone
    cases hnone

/-! ### Lines -/

/-- A line of a stream: a message, blanks alone, or a text that is not blank and no message. -/
inductive Line where
  | message (m : Message)
  | blank (text : String) (hline : '\n' ∉ text.toList)
    (hblank : text.toList.all Text.isBlank = true)
  | noise (text : String) (hline : '\n' ∉ text.toList)
    (hblank : text.toList.all Text.isBlank = false) (hnone : ofWire? text = none)

namespace Line

/-- The text of a line. -/
def text : Line → String
  | message m => m.wire
  | blank text _ _ | noise text _ _ _ => text

/-- The bytes of a line with its line feed; those of a message are its frame. -/
def bytes : Line → List UInt8
  | message m => m.frame
  | blank text _ _ | noise text _ _ _ => utf8 (text ++ "\n")

/-- What is read of a line. -/
def reading? : Line → Option Reading
  | message m => some (.message m)
  | blank _ _ _ => none
  | noise _ _ _ _ => some .malformed

theorem bytes_eq (l : Line) : l.bytes = utf8 l.text ++ [10] := by
  have hfeed : utf8 "\n" = [10] := by rw [utf8_eq]; decide
  rw [← hfeed, ← utf8_append]
  cases l <;> rfl

/-- No line holds a line feed. -/
theorem not_mem_text (l : Line) : '\n' ∉ l.text.toList := by
  cases l with
  | message m =>
    intro hmem
    exact absurd (m.isPrintable_wire '\n' hmem) (by decide)
  | blank _ hline _ | noise _ hline _ _ => exact hline

end Line

/-- A line without its end is a text, perhaps without the carriage return behind it. -/
theorem chomp_utf8 (s : String) : chomp (utf8 s) = utf8 s ∨
    ∃ t : String, s.toList = t.toList ++ ['\r'] ∧ chomp (utf8 s) = utf8 t := by
  by_cases hlast : (utf8 s).getLast? = some 13
  · obtain ⟨cs, hs⟩ := exists_of_getLast?_utf8 (c := '\r') hlast (by decide) rfl
    refine .inr ⟨String.ofList cs, by rw [hs, String.toList_ofList], ?_⟩
    have hbytes : utf8 s = utf8 (String.ofList cs) ++ [13] := by
      have hreturn : String.utf8EncodeChar '\r' = [13] := by decide
      simp [utf8_eq, hs, String.toList_ofList, hreturn]
    rw [chomp, if_pos hlast, hbytes, List.dropLast_concat]
  · exact .inl (if_neg hlast)

/-- The bytes of a text are a blank line, a message or a fault. -/
theorem readLine_utf8 (s : String) : readLine (utf8 s) =
    if s.toList.all Text.isBlank then none
    else some ((ofWire? s).elim .malformed .message) := by
  rw [readLine, ofUtf8?_utf8]
  simp only [Text.isEmpty_trim]
  split
  · rfl
  · cases ofWire? s <;> rfl

/-- **Lines.** A line is read as what it is. -/
theorem readLine_chomp (l : Line) : readLine (chomp (utf8 l.text)) = l.reading? := by
  cases l with
  | message m =>
    have hprintable := m.isPrintable_wire
    have hwire : m.wire.toList.all Text.isBlank = false := by
      rw [wire, Json.render, String.toList_ofList]
      rfl
    rcases chomp_utf8 m.wire with hchomp | ⟨t, ht, -⟩
    · rw [Line.text, hchomp, readLine_utf8, hwire, ofWire?_wire]
      rfl
    · have hmem : '\r' ∈ m.wire.toList := ht ▸ List.mem_append_right _ (List.mem_singleton_self _)
      exact absurd (hprintable '\r' hmem) (by decide)
  | blank text hline hblank =>
    rcases chomp_utf8 text with hchomp | ⟨t, ht, hchomp⟩
    · rw [Line.text, hchomp, readLine_utf8, hblank]
      rfl
    · -- What is left of the line without its carriage return is still blank.
      rw [ht, List.all_append, Bool.and_eq_true] at hblank
      rw [Line.text, hchomp, readLine_utf8, hblank.1]
      rfl
  | noise text hline hblank hnone =>
    rcases chomp_utf8 text with hchomp | ⟨t, ht, hchomp⟩
    · rw [Line.text, hchomp, readLine_utf8, hblank, hnone]
      rfl
    · have hreturn : ['\r'].all Text.isBlank = true := rfl
      rw [ht, List.all_append, hreturn, Bool.and_true] at hblank
      rw [Line.text, hchomp, readLine_utf8, hblank, ofWire?_of_return ht hnone]
      rfl

/-! ### Streams -/

/-- The bytes of lines, one after the other. -/
def stream (lines : List Line) : List UInt8 := lines.flatMap Line.bytes

/-- What is read of lines, in order. -/
def readings (lines : List Line) : List Reading := lines.filterMap Line.reading?

/-- Takes pieces of bytes as they arrive. -/
def feedAll (pending : List UInt8) : List (List UInt8) → List Reading × List UInt8
  | [] => ([], pending)
  | piece :: pieces =>
    let (rs, pending) := feed pending piece
    let (rs', pending) := feedAll pending pieces
    (rs ++ rs', pending)

/-- **Pieces.** It does not matter in which pieces bytes arrive. -/
theorem feedAll_eq (pending : List UInt8) (pieces : List (List UInt8)) :
    feedAll pending pieces = feed pending pieces.flatten := by
  induction pieces generalizing pending with
  | nil => simp [feedAll, feed, splitLines]
  | cons piece pieces ih =>
    simp only [feedAll, ih, List.flatten_cons]
    simp [feed, splitLines_append]

theorem feed_line (l : Line) : feed [] l.bytes = (l.reading?.toList, []) := by
  have hline : 10 ∉ utf8 l.text := fun hmem =>
    l.not_mem_text (mem_toList_of_mem_utf8 hmem (by decide) rfl)
  rw [feed, l.bytes_eq, List.reverse_nil, splitLines_line hline]
  simp only [List.filterMap_cons, List.filterMap_nil, readLine_chomp]
  cases l.reading? <;> rfl

theorem feed_stream (lines : List Line) : feed [] (stream lines) = (readings lines, []) := by
  have hpieces : feedAll [] (lines.map Line.bytes) = (readings lines, []) := by
    induction lines with
    | nil => rfl
    | cons l lines ih =>
      simp only [List.map_cons, feedAll, feed_line, ih]
      cases h : l.reading? <;> simp [readings, h]
  rw [← hpieces, feedAll_eq, ← List.flatMap_def]
  rfl

theorem untilFault_of_not_mem {rs : List Reading} (h : .unreadable ∉ rs) : untilFault rs = rs := by
  induction rs with
  | nil => rfl
  | cons r rs ih =>
    rw [List.mem_cons, not_or] at h
    obtain ⟨hr, hrs⟩ := h
    cases r with
    | unreadable => exact absurd rfl hr
    | _ => rw [untilFault, ih hrs]; simp

/-- **Streams.** A message is read as itself, from a single line. A stream of messages with blank
    lines and noise between them is read as those messages in order, with one fault in the place of
    each line of noise, and then its end; in whatever pieces it arrives. -/
theorem readAll_stream :
    (∀ m : Message, ofWire? m.wire = some m ∧ '\n' ∉ m.wire.toList) ∧
      (∀ lines : List Line, readAll (stream lines) = readings lines ++ [.ended] ∧
        feed [] (stream lines) = (readings lines, [])) ∧
      ∀ pieces : List (List UInt8), feedAll [] pieces = feed [] pieces.flatten := by
  refine ⟨fun m => ⟨m.ofWire?_wire, (Line.message m).not_mem_text⟩, fun lines => ?_, feedAll_eq []⟩
  -- Nothing that is read of a line ends the reading.
  have hfault : .unreadable ∉ readings lines ++ [.ended] := by
    intro hmem
    rcases List.mem_append.mp hmem with hmem | hmem
    · obtain ⟨l, -, hl⟩ := List.mem_filterMap.mp hmem
      cases l <;> cases hl
    · cases List.mem_singleton.mp hmem
  refine ⟨?_, feed_stream lines⟩
  rw [readAll, feed_stream]
  exact untilFault_of_not_mem hfault

/-- A message that is cut short is a fault, and the next one is read. -/
example : readings [.noise "\x7b\"type" (by decide) (by decide) (by decide +kernel),
    .blank "\r" (by decide) (by decide), .message .start] = [.malformed, .message .start] := rfl

end Message

end TxLoad
