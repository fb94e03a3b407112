import TxLoad.Proofs.Json.Scanning
import Mathlib.Data.List.DropRight

namespace TxLoad.Json

/-!
# What the reader of JSON texts accepts

The reader's fuel and its order of attempts are taken out of the picture: a text starts with a
spelling of a value, or it does not.

* `Json.Spells`: a text starts with a spelling of a value, of items or of members, and this is what
  follows it.
* `Json.spells_of_isRead`: what the reader returns is spelled there.
* `Json.Spells.isRead`: with fuel enough, the reader returns what is spelled.
* `Json.parse_eq_some_iff`: a whole text is read as the value that it spells.
* `Json.Spells.append`: what follows a part does not change it.
-/

variable {s t r : List Char} {v : Json} {fuel : Nat}

/-! ### Spellings -/

/-- What a piece of a text can be: a value, the items of an array or the members of an object
    through the closing bracket, or a single member. -/
inductive Part where
  | value (v : Json)
  | items (vs : List Json)
  | member (m : Option String × Json)
  | members (ms : List (Option String × Json))

/-- A text starts with a spelling of a part, blanks before it included. -/
inductive Spells : List Char → Part → List Char → Prop where
  | null {s r : List Char} (hs : skipSpace s = 'n' :: 'u' :: 'l' :: 'l' :: r) :
    Spells s (.value .null) r
  | true {s r : List Char} (hs : skipSpace s = 't' :: 'r' :: 'u' :: 'e' :: r) :
    Spells s (.value (.bool .true)) r
  | false {s r : List Char} (hs : skipSpace s = 'f' :: 'a' :: 'l' :: 's' :: 'e' :: r) :
    Spells s (.value (.bool .false)) r
  | number {s r : List Char} {v : Json} (h : readNumber (skipSpace s) = some (v, r)) :
    Spells s (.value v) r
  | string {s t r : List Char} {o : Option String} (hs : skipSpace s = '"' :: t)
    (h : readString t = some (o, r)) : Spells s (.value ((o.map Json.string).getD .flawed)) r
  | emptyArray {s t r : List Char} (hs : skipSpace s = '[' :: t) (ht : skipSpace t = ']' :: r) :
    Spells s (.value (.array [])) r
  | array {s t r : List Char} {vs : List Json} (hs : skipSpace s = '[' :: t)
    (h : Spells (skipSpace t) (.items vs) r) : Spells s (.value (.array vs)) r
  | emptyObject {s t r : List Char} (hs : skipSpace s = '\x7b' :: t)
    (ht : skipSpace t = '\x7d' :: r) : Spells s (.value (.object [])) r
  | object {s t r : List Char} {ms : List (Option String × Json)} (hs : skipSpace s = '\x7b' :: t)
    (h : Spells (skipSpace t) (.members ms) r) : Spells s (.value (ofMembers ms)) r
  | lastItem {s t r : List Char} {v : Json} (h : Spells s (.value v) t)
    (ht : skipSpace t = ']' :: r) : Spells s (.items [v]) r
  | item {s t u r : List Char} {v : Json} {vs : List Json} (h : Spells s (.value v) t)
    (ht : skipSpace t = ',' :: u) (hu : Spells u (.items vs) r) : Spells s (.items (v :: vs)) r
  | member {s t u w r : List Char} {name : Option String} {v : Json} (hs : skipSpace s = '"' :: t)
    (hname : readString t = some (name, u)) (hu : skipSpace u = ':' :: w)
    (h : Spells w (.value v) r) : Spells s (.member (name, v)) r
  | lastMember {s t r : List Char} {m : Option String × Json} (h : Spells s (.member m) t)
    (ht : skipSpace t = '\x7d' :: r) : Spells s (.members [m]) r
  | nextMember {s t u r : List Char} {m : Option String × Json} {ms : List (Option String × Json)}
    (h : Spells s (.member m) t) (ht : skipSpace t = ',' :: u) (hu : Spells u (.members ms) r) :
    Spells s (.members (m :: ms)) r

/-- Whether the reader finds a part at the start of a text. -/
def Part.IsRead (fuel : Nat) (s : List Char) : Part → List Char → Prop
  | .value v, r => parseValue fuel s = some (v, r)
  | .items vs, r => parseItems fuel s = some (vs, r)
  | .member (name, v), r => ∃ t u w, skipSpace s = '"' :: t ∧ readString t = some (name, u) ∧
      skipSpace u = ':' :: w ∧ parseValue fuel w = some (v, r)
  | .members ms, r => parseMembers fuel s = some (ms, r)

/-! ### What is read is spelled -/

section

variable (ih : ∀ s p r, Part.IsRead fuel s p r → Spells s p r)

include ih

theorem spells_of_parseValue (h : parseValue (fuel + 1) s = some (v, r)) :
    Spells s (.value v) r := by
  rw [parseValue] at h
  split at h
  · rename_i t hs
    obtain ⟨⟨o, r'⟩, hread, heq⟩ := Option.map_eq_some_iff.mp h
    cases heq
    exact .string hs hread
  · rename_i t hs
    split at h
    · rename_i ht
      cases h
      exact .emptyArray hs ht
    · obtain ⟨⟨vs, r'⟩, hread, heq⟩ := Option.map_eq_some_iff.mp h
      cases heq
      exact .array hs (ih _ (.items vs) _ hread)
  · rename_i t hs
    split at h
    · rename_i ht
      cases h
      exact .emptyObject hs ht
    · obtain ⟨⟨ms, r'⟩, hread, heq⟩ := Option.map_eq_some_iff.mp h
      cases heq
      exact .object hs (ih _ (.members ms) _ hread)
  · rename_i hs
    cases h
    exact .null hs
  · rename_i hs
    cases h
    exact .true hs
  · rename_i hs
    cases h
    exact .false hs
  · exact .number h

theorem spells_of_parseItems {vs : List Json} (h : parseItems (fuel + 1) s = some (vs, r)) :
    Spells s (.items vs) r := by
  rw [parseItems] at h
  split at h
  · cases h
  · rename_i v t hread
    have hv := ih _ (.value v) _ hread
    split at h
    · rename_i u ht
      obtain ⟨⟨vs, r'⟩, hread, heq⟩ := Option.map_eq_some_iff.mp h
      cases heq
      exact .item hv ht (ih _ (.items vs) _ hread)
    · rename_i ht
      cases h
      exact .lastItem hv ht
    · cases h

theorem spells_of_parseMembers {ms : List (Option String × Json)}
    (h : parseMembers (fuel + 1) s = some (ms, r)) : Spells s (.members ms) r := by
  rw [parseMembers] at h
  split at h
  · rename_i t hs
    split at h
    · cases h
    · rename_i name u hname
      split at h
      · rename_i w hu
        split at h
        · cases h
        · rename_i v x hread
          have hm := ih _ (.member (name, v)) _ ⟨_, _, _, hs, hname, hu, hread⟩
          split at h
          · rename_i y hx
            obtain ⟨⟨ms, r'⟩, hread, heq⟩ := Option.map_eq_some_iff.mp h
            cases heq
            exact .nextMember hm hx (ih _ (.members ms) _ hread)
          · rename_i y hx
            cases h
            exact .lastMember hm hx
          · cases h
      · cases h
  · cases h

end

/-- **Soundness.** Whatever the reader returns, the text spells it. -/
theorem spells_of_isRead (fuel : Nat) : ∀ s p r, Part.IsRead fuel s p r → Spells s p r := by
  -- A member is read with the fuel of its value.
  have hmember : ∀ fuel, (∀ s v r, parseValue fuel s = some (v, r) → Spells s (.value v) r) →
      ∀ s m r, Part.IsRead fuel s (.member m) r → Spells s (.member m) r :=
    fun _ hvalue _ _ _ ⟨_, _, _, hs, hname, hu, hv⟩ => .member hs hname hu (hvalue _ _ _ hv)
  induction fuel with
  | zero =>
    intro s p r h
    cases p with
    | member m => exact hmember 0 (fun _ _ _ h => by cases h) s m r h
    | _ => cases h
  | succ fuel ih =>
    intro s p r h
    cases p with
    | value v => exact spells_of_parseValue ih h
    | items vs => exact spells_of_parseItems ih h
    | member m => exact hmember _ (fun _ _ _ h => spells_of_parseValue ih h) s m r h
    | members ms => exact spells_of_parseMembers ih h

/-! ### What is spelled is read -/

theorem skipSpace_cons {c : Char} (hc : isSpace c = false) (t : List Char) :
    skipSpace (c :: t) = c :: t := by
  simp [skipSpace, hc]

theorem skipSpace_skipSpace (s : List Char) : skipSpace (skipSpace s) = skipSpace s :=
  List.dropWhile_idempotent isSpace s

theorem length_skipSpace_le (s : List Char) : (skipSpace s).length ≤ s.length :=
  (List.dropWhile_suffix _).length_le

theorem length_of_skipSpace {c : Char} (h : skipSpace s = c :: t) : t.length < s.length := by
  have hle := length_skipSpace_le s
  rw [h, List.length_cons] at hle
  omega

/-- Blanks before a part do not matter. -/
theorem Spells.skip {p : Part} (h : Spells s p r) : Spells (skipSpace s) p r := by
  induction h with
  | null hs => exact .null ((skipSpace_skipSpace _).trans hs)
  | true hs => exact .true ((skipSpace_skipSpace _).trans hs)
  | false hs => exact .false ((skipSpace_skipSpace _).trans hs)
  | @number s _ _ h => exact .number (by rwa [skipSpace_skipSpace])
  | string hs h => exact .string ((skipSpace_skipSpace _).trans hs) h
  | emptyArray hs ht => exact .emptyArray ((skipSpace_skipSpace _).trans hs) ht
  | array hs h => exact .array ((skipSpace_skipSpace _).trans hs) h
  | emptyObject hs ht => exact .emptyObject ((skipSpace_skipSpace _).trans hs) ht
  | object hs h => exact .object ((skipSpace_skipSpace _).trans hs) h
  | member hs hname hu h => exact .member ((skipSpace_skipSpace _).trans hs) hname hu h
  | lastItem _ ht ih => exact .lastItem ih ht
  | item _ ht hu ih => exact .item ih ht hu
  | lastMember _ ht ih => exact .lastMember ih ht
  | nextMember _ ht hu ih => exact .nextMember ih ht hu

/-- A part takes at least one character. -/
theorem Spells.length_lt {p : Part} (h : Spells s p r) : r.length < s.length := by
  induction h with
  | null hs | true hs | false hs =>
    have hlt := length_of_skipSpace hs
    simp only [List.length_cons] at hlt
    omega
  | @number s _ _ h => exact Nat.lt_of_lt_of_le (length_of_readNumber h) (length_skipSpace_le s)
  | string hs h => exact Nat.lt_trans (length_of_readString h) (length_of_skipSpace hs)
  | emptyArray hs ht | emptyObject hs ht =>
    exact Nat.lt_trans (length_of_skipSpace ht) (length_of_skipSpace hs)
  | @array _ t _ _ hs _ ih | @object _ t _ _ hs _ ih =>
    exact Nat.lt_trans (Nat.lt_of_lt_of_le ih (length_skipSpace_le t)) (length_of_skipSpace hs)
  | lastItem _ ht ih | lastMember _ ht ih => exact Nat.lt_trans (length_of_skipSpace ht) ih
  | item _ ht _ ih ihu | nextMember _ ht _ ih ihu =>
    exact Nat.lt_trans (Nat.lt_trans ihu (length_of_skipSpace ht)) ih
  | member hs hname hu _ ih =>
    have hv := Nat.lt_trans ih (length_of_skipSpace hu)
    exact Nat.lt_trans (Nat.lt_trans hv (length_of_readString hname)) (length_of_skipSpace hs)

/-- No part starts with a closing bracket. -/
theorem Spells.ne_bracket {p : Part} (h : Spells s p r) {c : Char} (hc : skipSpace s = c :: t) :
    c ≠ ']' ∧ c ≠ '\x7d' := by
  induction h with
  | null hs | true hs | false hs | string hs | emptyArray hs | array hs | emptyObject hs
  | object hs | member hs =>
    rw [hs] at hc
    cases hc
    exact ⟨by decide, by decide⟩
  | number h =>
    obtain ⟨d, t', hs, hd⟩ := exists_of_readNumber h
    rw [hs] at hc
    cases hc
    constructor
    all_goals
      rintro rfl
      rcases hd with hd | hd <;> cases hd
  | lastItem _ _ ih | item _ _ _ ih | lastMember _ _ ih | nextMember _ _ _ ih => exact ih hc

/-! One more unit of fuel than its pieces take is enough for a part. -/

theorem parseValue_number (h : readNumber (skipSpace s) = some (v, r)) :
    parseValue (fuel + 1) s = some (v, r) := by
  obtain ⟨c, t, hs, hc⟩ := exists_of_readNumber h
  rw [parseValue]
  -- A number starts with none of the characters that the reader looks for before.
  split
  all_goals
    rename_i hs'
    first
      | exact h
      | rw [hs] at hs'
        cases hs'
        rcases hc with hc | hc <;> cases hc

-- That the bracket is not closed at once rules the other reading out.
theorem parseValue_array {vs : List Json} (hs : skipSpace s = '[' :: t)
    (ht : ∀ u, skipSpace t ≠ ']' :: u) (h : parseItems fuel (skipSpace t) = some (vs, r)) :
    parseValue (fuel + 1) s = some (.array vs, r) := by
  rw [parseValue, hs]
  simp only [h, Option.map_some]

theorem parseValue_object {ms : List (Option String × Json)} (hs : skipSpace s = '\x7b' :: t)
    (ht : ∀ u, skipSpace t ≠ '\x7d' :: u) (h : parseMembers fuel (skipSpace t) = some (ms, r)) :
    parseValue (fuel + 1) s = some (ofMembers ms, r) := by
  rw [parseValue, hs]
  simp only [h, Option.map_some]

theorem parseItems_last (h : parseValue fuel s = some (v, t)) (ht : skipSpace t = ']' :: r) :
    parseItems (fuel + 1) s = some ([v], r) := by
  rw [parseItems, h]
  simp only [ht]

theorem parseItems_next {u : List Char} {vs : List Json} (h : parseValue fuel s = some (v, t))
    (ht : skipSpace t = ',' :: u) (hu : parseItems fuel u = some (vs, r)) :
    parseItems (fuel + 1) s = some (v :: vs, r) := by
  rw [parseItems, h]
  simp only [ht, hu, Option.map_some]

theorem parseMembers_last {m : Option String × Json} (h : Part.IsRead fuel s (.member m) t)
    (ht : skipSpace t = '\x7d' :: r) : parseMembers (fuel + 1) s = some ([m], r) := by
  obtain ⟨t', u, w, hs, hname, hu, hv⟩ := h
  rw [parseMembers, hs]
  simp only [hname, hu, hv, ht]

theorem parseMembers_next {u : List Char} {m : Option String × Json}
    {ms : List (Option String × Json)} (h : Part.IsRead fuel s (.member m) t)
    (ht : skipSpace t = ',' :: u) (hu : parseMembers fuel u = some (ms, r)) :
    parseMembers (fuel + 1) s = some (m :: ms, r) := by
  obtain ⟨t', u', w, hs, hname, hu', hv⟩ := h
  rw [parseMembers, hs]
  simp only [hname, hu', hv, ht, hu, Option.map_some]

/-- The fuel that a part takes beyond twice its length. -/
def Part.extra : Part → Nat
  | .items _ | .members _ => 1
  | .value _ | .member _ => 0

/-- **Completeness.** With fuel for twice the length of a part, the reader finds it. -/
theorem Spells.isRead {p : Part} (h : Spells s p r) :
    ∀ fuel, 2 * s.length + p.extra ≤ 2 * r.length + fuel → p.IsRead fuel s r := by
  -- What is read at all is longer than nothing, so that there is fuel for it.
  have hstep : ∀ {s r p}, Spells s p r →
      (∀ fuel, 2 * s.length + p.extra ≤ 2 * r.length + (fuel + 1) → p.IsRead (fuel + 1) s r) →
      ∀ fuel, 2 * s.length + p.extra ≤ 2 * r.length + fuel → p.IsRead fuel s r := by
    intro s r p h hsucc fuel hfuel
    have hlt := h.length_lt
    obtain ⟨fuel, rfl⟩ : ∃ n, fuel = n + 1 := ⟨fuel - 1, by omega⟩
    exact hsucc fuel hfuel
  induction h with
  | null hs | true hs | false hs =>
    refine hstep (by constructor; exact hs) fun fuel _ => ?_
    rw [Part.IsRead, parseValue, hs]
    rfl
  | number h => exact hstep (.number h) fun fuel _ => parseValue_number h
  | string hs h =>
    refine hstep (.string hs h) fun fuel _ => ?_
    rw [Part.IsRead, parseValue, hs]
    simp only [h, Option.map_some]
  | emptyArray hs ht =>
    refine hstep (.emptyArray hs ht) fun fuel _ => ?_
    rw [Part.IsRead, parseValue, hs]
    simp only [ht]
  | emptyObject hs ht =>
    refine hstep (.emptyObject hs ht) fun fuel _ => ?_
    rw [Part.IsRead, parseValue, hs]
    simp only [ht]
  | @array s t r vs hs h ih =>
    refine hstep (.array hs h) fun fuel hfuel => ?_
    have hlt := length_of_skipSpace hs
    have hle := length_skipSpace_le t
    have hopen : ∀ u, skipSpace t ≠ ']' :: u := fun u hu =>
      (h.ne_bracket ((skipSpace_skipSpace t).trans hu)).1 rfl
    refine parseValue_array hs hopen (ih fuel ?_)
    simp only [Part.extra] at hfuel ⊢
    omega
  | @object s t r ms hs h ih =>
    refine hstep (.object hs h) fun fuel hfuel => ?_
    have hlt := length_of_skipSpace hs
    have hle := length_skipSpace_le t
    have hopen : ∀ u, skipSpace t ≠ '\x7d' :: u := fun u hu =>
      (h.ne_bracket ((skipSpace_skipSpace t).trans hu)).2 rfl
    refine parseValue_object hs hopen (ih fuel ?_)
    simp only [Part.extra] at hfuel ⊢
    omega
  | lastItem h ht ih =>
    refine hstep (.lastItem h ht) fun fuel hfuel => ?_
    have hlt := length_of_skipSpace ht
    refine parseItems_last (ih fuel ?_) ht
    simp only [Part.extra] at hfuel ⊢
    omega
  | item h ht hu ih ihu =>
    refine hstep (.item h ht hu) fun fuel hfuel => ?_
    have hlt := length_of_skipSpace ht
    have hv := h.length_lt
    have hvs := hu.length_lt
    refine parseItems_next (ih fuel ?_) ht (ihu fuel ?_)
    all_goals
      simp only [Part.extra] at hfuel ⊢
      omega
  | member hs hname hu h ih =>
    intro fuel hfuel
    have hlt := length_of_skipSpace hs
    have hlt' := length_of_readString hname
    have hlt'' := length_of_skipSpace hu
    refine ⟨_, _, _, hs, hname, hu, ih fuel ?_⟩
    simp only [Part.extra] at hfuel ⊢
    omega
  | lastMember h ht ih =>
    refine hstep (.lastMember h ht) fun fuel hfuel => ?_
    have hlt := length_of_skipSpace ht
    refine parseMembers_last (ih fuel ?_) ht
    simp only [Part.extra] at hfuel ⊢
    omega
  | nextMember h ht hu ih ihu =>
    refine hstep (.nextMember h ht hu) fun fuel hfuel => ?_
    have hlt := length_of_skipSpace ht
    have hm := h.length_lt
    have hms := hu.length_lt
    refine parseMembers_next (ih fuel ?_) ht (ihu fuel ?_)
    all_goals
      simp only [Part.extra] at hfuel ⊢
      omega

/-- **Whole texts.** A text is read as the value that it spells, if only blanks follow. -/
theorem parse_eq_some_iff {text : String} :
    parse text = some v ↔ ∃ r, Spells text.toList (.value v) r ∧ skipSpace r = [] := by
  simp only [parse]
  constructor
  · intro h
    split at h
    · rename_i w r hread
      split at h
      · rename_i hempty
        cases h
        exact ⟨r, spells_of_isRead _ _ (.value v) _ hread, List.isEmpty_iff.mp hempty⟩
      · cases h
    · cases h
  · rintro ⟨r, h, hr⟩
    have hread : parseValue (fuelFor text.toList) text.toList = some (v, r) :=
      h.isRead _ (by simp only [Part.extra, fuelFor]; omega)
    simp only [hread, hr]
    rfl

/-! ### What follows -/

theorem skipSpace_append {c : Char} (h : skipSpace s = c :: t) (x : List Char) :
    skipSpace (s ++ x) = c :: (t ++ x) := by
  induction s with
  | nil => cases h
  | cons d s ih =>
    cases hd : isSpace d with
    | true =>
      simp only [skipSpace, List.cons_append, List.dropWhile_cons_of_pos hd] at h ⊢
      exact ih h
    | false =>
      rw [skipSpace_cons hd] at h
      cases h
      exact skipSpace_cons hd _

theorem Spells.skipSpace_eq_append {p : Part} (h : Spells (skipSpace s) p r) (x : List Char) :
    skipSpace (s ++ x) = skipSpace s ++ x := by
  cases hs : skipSpace s with
  | nil =>
    have hlt := h.length_lt
    rw [hs] at hlt
    cases hlt
  | cons c t => exact skipSpace_append hs x

/-- **Locality.** A text spells the same when something follows that does not go on with a
    number. -/
theorem Spells.append {p : Part} (h : Spells s p r) {x : List Char} (hx : Closes x) :
    Spells (s ++ x) p (r ++ x) := by
  induction h with
  | null hs => exact .null (skipSpace_append hs x)
  | true hs => exact .true (skipSpace_append hs x)
  | false hs => exact .false (skipSpace_append hs x)
  | number h =>
    obtain ⟨c, t, hs, -⟩ := exists_of_readNumber h
    rw [hs] at h
    have hread := readNumber_append hx h
    rw [List.cons_append, ← skipSpace_append hs] at hread
    exact .number hread
  | string hs h => exact .string (skipSpace_append hs x) (readString_append h x)
  | emptyArray hs ht => exact .emptyArray (skipSpace_append hs x) (skipSpace_append ht x)
  | emptyObject hs ht => exact .emptyObject (skipSpace_append hs x) (skipSpace_append ht x)
  | array hs h ih =>
    rw [← h.skipSpace_eq_append] at ih
    exact .array (skipSpace_append hs x) ih
  | object hs h ih =>
    rw [← h.skipSpace_eq_append] at ih
    exact .object (skipSpace_append hs x) ih
  | lastItem _ ht ih => exact .lastItem ih (skipSpace_append ht x)
  | item _ ht _ ih ihu => exact .item ih (skipSpace_append ht x) ihu
  | member hs hname hu _ ih =>
    exact .member (skipSpace_append hs x) (readString_append hname x) (skipSpace_append hu x) ih
  | lastMember _ ht ih => exact .lastMember ih (skipSpace_append ht x)
  | nextMember _ ht _ ih ihu => exact .nextMember ih (skipSpace_append ht x) ihu

end TxLoad.Json
