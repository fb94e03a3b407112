import TxLoad.Rpc.Basic
import TxLoad.Proofs.Json.Grammar
import TxLoad.Proofs.Message.Lines

namespace TxLoad.Rpc

/-!
# Bodies that are no text

A body is read even if some of its bytes belong to no character, so that a reader can pass over
them. Nothing that is kept as a whole comes out of such a body.

* `Rpc.Garbled`: a text with something in it that stands for a byte of no character.
* `Rpc.garbled_legible`: the characters of a body that is not UTF-8 are such a text.
* `Rpc.Garbled.of_spells`: no sound value is spelled across such a place.
* `Rpc.valueOf?_eq_some_iff`: the sound values of bodies are those of UTF-8 texts.
-/

open Json (Spells Part Piece skipSpace)

variable {s t r : List Char} {escaped : Bool} {v : Json}

/-- A text that holds, at a place where an escape may start or inside an escape that has just
    started, what a byte of no character is read as. -/
inductive Garbled : Bool → List Char → Prop where
  | here {escaped : Bool} {s r : List Char} (hs : s = unreadable escaped ++ r) : Garbled escaped s
  | later {escaped : Bool} {c : Char} {r : List Char} (h : Garbled (c == '\\' && !escaped) r) :
    Garbled escaped (c :: r)

/-! ### From bytes to characters -/

theorem legible_skip (escaped : Bool) (n : Nat) (bytes : List UInt8) :
    legible escaped n bytes = legible escaped 0 (bytes.drop n) := by
  induction bytes generalizing n with
  | nil => cases n <;> rfl
  | cons b r ih =>
    cases n with
    | zero => rfl
    | succ n => exact ih n

/-- A character at the start of some bytes takes its own bytes, at least one. -/
theorem take_of_charAtStart? {bytes : List UInt8} {c : Char} {n : Nat}
    (h : charAtStart? bytes = some (c, n)) :
    0 < n ∧ bytes.take n = Message.utf8 (String.ofList [c]) := by
  obtain ⟨k, hk, hsome⟩ := List.exists_of_findSome?_eq_some h
  split at hsome
  · rename_i d hd
    cases hsome
    obtain ⟨text, htext, hlist⟩ := Option.map_eq_some_iff.mp hd
    have hpos : ∀ k ∈ [1, 2, 3, 4], 0 < k := by decide
    refine ⟨hpos _ hk, ?_⟩
    rw [Message.eq_utf8_of_ofUtf8? htext, ← hlist, String.ofList_toList]
  · cases hsome

/-- **Garbling.** Bytes that are not UTF-8 are read as a garbled text. -/
theorem garbled_legible {bytes : List UInt8} (h : Message.ofUtf8? bytes = none) :
    Garbled escaped (legible escaped 0 bytes) := by
  -- By the number of bytes, as a character takes up to four of them.
  induction hn : bytes.length using Nat.strongRecOn generalizing bytes escaped with
  | _ n ih =>
    cases bytes with
    | nil =>
      have hempty := Message.ofUtf8?_utf8 ""
      rw [show Message.utf8 "" = [] by rw [Message.utf8_eq]; rfl, h] at hempty
      cases hempty
    | cons b r =>
      rw [legible]
      cases hchar : charAtStart? (b :: r) with
      | none => exact .here rfl
      | some p =>
        obtain ⟨c, k⟩ := p
        obtain ⟨hk, htake⟩ := take_of_charAtStart? hchar
        obtain ⟨k, rfl⟩ : ∃ m, k = m + 1 := ⟨k - 1, by omega⟩
        -- What follows the character is not UTF-8 either.
        have hrest : Message.ofUtf8? (r.drop k) = none := by
          cases hdrop : Message.ofUtf8? (r.drop k) with
          | none => rfl
          | some text =>
            have hsplit : b :: r = (b :: r).take (k + 1) ++ r.drop k :=
              (List.take_append_drop (k + 1) (b :: r)).symm
            rw [htake, Message.eq_utf8_of_ofUtf8? hdrop, ← Message.utf8_append] at hsplit
            rw [hsplit, Message.ofUtf8?_utf8] at h
            cases h
        refine .later ?_
        rw [Nat.add_sub_cancel, legible_skip]
        refine ih _ ?_ hrest rfl
        rw [← hn, List.length_drop, List.length_cons]
        omega

/-! ### Reading over a garbled place -/

theorem not_garbled_nil : ¬ Garbled escaped [] := by
  rintro ⟨hs⟩
  cases escaped <;> cases hs

/-- A garbled place outside an escape starts with a backslash. -/
theorem Garbled.tail {c : Char} (h : Garbled false (c :: r)) (hc : c ≠ '\\') : Garbled false r := by
  cases h with
  | here hs => exact absurd (List.cons.inj hs).1 hc
  | later h => rwa [beq_eq_false_iff_ne.mpr hc] at h

/-- A text goes on with another after characters none of which is a backslash. -/
def GoesOn (s r : List Char) : Prop := ∃ d, s = d ++ r ∧ '\\' ∉ d

theorem GoesOn.refl (s : List Char) : GoesOn s s := ⟨[], rfl, List.not_mem_nil⟩

theorem GoesOn.trans (h : GoesOn s t) (h' : GoesOn t r) : GoesOn s r := by
  obtain ⟨d, rfl, hd⟩ := h
  obtain ⟨d', rfl, hd'⟩ := h'
  exact ⟨d ++ d', (List.append_assoc ..).symm, by simp [hd, hd']⟩

theorem goesOn_cons {c : Char} (hc : c ≠ '\\') (r : List Char) : GoesOn (c :: r) r :=
  ⟨[c], rfl, by simpa using hc.symm⟩

theorem goesOn_dropWhile {p : Char → Bool} (hp : p '\\' = false) (s : List Char) :
    GoesOn s (s.dropWhile p) := by
  refine ⟨s.takeWhile p, List.takeWhile_append_dropWhile.symm, fun hmem => ?_⟩
  rw [List.mem_takeWhile_imp hmem] at hp
  cases hp

theorem goesOn_skipSpace (s : List Char) : GoesOn s (skipSpace s) := goesOn_dropWhile rfl s

theorem goesOn_of_skipSpace {c : Char} (hs : skipSpace s = c :: t) (hc : c ≠ '\\') :
    GoesOn s t := by
  have hskip := goesOn_skipSpace s
  rw [hs] at hskip
  exact hskip.trans (goesOn_cons hc t)

theorem Garbled.goesOn (h : Garbled false s) (hs : GoesOn s r) : Garbled false r := by
  obtain ⟨d, rfl, hd⟩ := hs
  induction d with
  | nil => exact h
  | cons c d ih =>
    rw [List.mem_cons, not_or] at hd
    exact ih hd.2 (h.tail (Ne.symm hd.1))

/-! A number has no backslash. -/

theorem goesOn_of_readWhole {d : List Char} (h : Json.readWhole s = some (d, r)) : GoesOn s r := by
  by_cases hzero : s.head? = some '0'
  · obtain ⟨t, rfl⟩ := List.head?_eq_some_iff.mp hzero
    cases h
    exact goesOn_cons (by decide) r
  · rw [Json.readWhole_of_ne hzero] at h
    split at h
    · cases h
    · cases h
      exact goesOn_dropWhile rfl s

theorem goesOn_of_readPlaces {d : List Char} (h : Json.readPlaces s = some (d, r)) :
    GoesOn s r := by
  unfold Json.readPlaces at h
  split at h
  · rename_i t
    simp only at h
    split at h
    · cases h
    · cases h
      exact (goesOn_cons (by decide) t).trans (goesOn_dropWhile rfl t)
  · cases h
    exact .refl s

theorem goesOn_splitSign (s : List Char) : GoesOn s (Decimal.splitSign s).2 := by
  unfold Decimal.splitSign
  split
  · exact goesOn_cons (by decide) _
  · exact goesOn_cons (by decide) _
  · exact .refl s

theorem goesOn_of_readPower {power : Option Int} (h : Json.readPower s = some (power, r)) :
    GoesOn s r := by
  cases s with
  | nil =>
    cases h
    exact .refl []
  | cons c t =>
    by_cases hc : c = 'e' ∨ c = 'E'
    · rw [Json.readPower_of_eq hc] at h
      obtain ⟨n, -, heq⟩ := Option.map_eq_some_iff.mp h
      cases heq
      have hletter : c ≠ '\\' := by
        rintro rfl
        rcases hc with hc | hc <;> cases hc
      exact ((goesOn_cons hletter t).trans (goesOn_splitSign t)).trans (goesOn_dropWhile rfl _)
    · rw [Json.readPower, if_neg hc] at h
      cases h
      exact .refl _

theorem goesOn_splitMinus (s : List Char) : GoesOn s (Json.splitMinus s).2 := by
  unfold Json.splitMinus
  split
  · exact goesOn_cons (by decide) _
  · exact .refl s

theorem goesOn_of_readNumber (h : Json.readNumber s = some (v, r)) : GoesOn s r := by
  obtain ⟨whole, t, places, u, power, hwhole, hplaces, hpower, -⟩ :=
    Json.readNumber_eq_some_iff.mp h
  have hdigits := (goesOn_splitMinus s).trans (goesOn_of_readWhole hwhole)
  exact (hdigits.trans (goesOn_of_readPlaces hplaces)).trans (goesOn_of_readPower hpower)

/-! A string that is garbled has half a surrogate pair before a blank. -/

/-- Pieces with half a surrogate pair in them that no other half follows. -/
def IsHalved (ps : List Piece) : Prop := ∃ a b, ps = a ++ .unit 0xd800 :: .char ' ' :: b

theorem IsHalved.cons {ps : List Piece} (h : IsHalved ps) (p : Piece) : IsHalved (p :: ps) := by
  obtain ⟨a, b, rfl⟩ := h
  exact ⟨p :: a, b, rfl⟩

theorem IsHalved.of_cons {p : Piece} {ps : List Piece} (h : IsHalved (p :: ps)) :
    (p = .unit 0xd800 ∧ ∃ b, ps = .char ' ' :: b) ∨ IsHalved ps := by
  obtain ⟨a, b, heq⟩ := h
  cases a with
  | nil =>
    cases heq
    exact .inl ⟨rfl, b, rfl⟩
  | cons q a =>
    cases heq
    exact .inr ⟨a, b, rfl⟩

theorem IsHalved.joinPieces {ps : List Piece} (h : IsHalved ps) : Json.joinPieces ps = none := by
  fun_induction Json.joinPieces ps with
  | case1 =>
    obtain ⟨a, b, heq⟩ := h
    cases a <;> cases heq
  | case2 c r ih =>
    obtain ⟨hc, -⟩ | hr := h.of_cons
    · cases hc
    · rw [ih hr]
      rfl
  | case3 n m r hhigh hlow ih =>
    -- A pair of both halves ends before the one that has no other.
    obtain ⟨-, b, hb⟩ | hr := h.of_cons
    · cases hb
    · obtain ⟨hm, -⟩ | hr := hr.of_cons
      · cases hm
        omega
      · rw [ih hr]
        rfl
  | case4 | case5 | case7 => rfl
  | case6 n m r hhigh hlow ih =>
    obtain ⟨-, b, hb⟩ | hr := h.of_cons
    · cases hb
    · rw [ih hr]
      rfl
  | case8 n r hunit hout ih =>
    obtain ⟨hn, -⟩ | hr := h.of_cons
    · cases hn
      omega
    · rw [ih hr]
      rfl

/-- The digits of a unit are no backslashes. -/
theorem goesOn_of_readDigits {a b c d : Char} {n : Nat}
    (h : Text.readDigits 16 [a, b, c, d] = some n) (r : List Char) :
    GoesOn (a :: b :: c :: d :: r) r := by
  refine ⟨[a, b, c, d], rfl, fun hmem => ?_⟩
  have hnone : Text.digitValue? 16 '\\' = none := by decide
  simp only [List.mem_cons, List.not_mem_nil, or_false] at hmem
  rcases hmem with rfl | rfl | rfl | rfl <;>
    simp [Text.readDigits, Text.pushDigit, hnone] at h

/-- An escape in a garbled text is half a pair, or what is garbled comes after it. -/
theorem Garbled.of_escape {e : Char} (h : Garbled false ('\\' :: e :: r)) (he : e ≠ '\x00') :
    (e = 'u' ∧ ∃ x, r = 'd' :: '8' :: '0' :: '0' :: ' ' :: x) ∨ Garbled false r := by
  cases h with
  | @here _ _ x hs =>
    have hs : '\\' :: e :: r = '\\' :: 'u' :: 'd' :: '8' :: '0' :: '0' :: ' ' :: x := hs
    cases hs
    exact .inl ⟨rfl, x, rfl⟩
  | later h =>
    cases h with
    | here hs => exact absurd (List.cons.inj hs).1 he
    | later h =>
      have hplain : (e == '\\' && !('\\' == '\\' && !false)) = false := Bool.and_false _
      rw [hplain] at h
      exact .inr h

/-- **Strings.** Reading a garbled string halves a pair or leaves the garbled place behind. -/
theorem Garbled.of_readPieces {ps : List Piece} (h : Garbled false s)
    (hread : Json.readPieces s = some (ps, r)) : IsHalved ps ∨ Garbled false r := by
  fun_induction Json.readPieces s generalizing ps r with
  | case1 | case4 | case6 | case7 => cases hread
  | case2 t =>
    cases hread
    exact .inr (h.tail (by decide))
  | case3 a b c d t n hn ih =>
    obtain ⟨⟨qs, r'⟩, hqs, heq⟩ := Option.map_eq_some_iff.mp hread
    cases heq
    obtain ⟨-, x, hx⟩ | ht := h.of_escape (by decide)
    · -- The escape is the garbled place, so that the piece after it is the blank.
      cases hx
      have hblank : Json.readPieces (' ' :: x) =
          (Json.readPieces x).map fun p => (.char ' ' :: p.1, p.2) := by
        rw [Json.readPieces, if_neg (by decide)] <;> simp
      rw [hblank] at hqs
      obtain ⟨⟨b, r''⟩, -, heq⟩ := Option.map_eq_some_iff.mp hqs
      cases heq
      have hunit : Text.readDigits 16 ['d', '8', '0', '0'] = some 0xd800 := by decide
      cases hn.symm.trans hunit
      exact .inl ⟨[], b, rfl⟩
    · exact (ih (ht.goesOn (goesOn_of_readDigits hn t)) hqs).imp_left (IsHalved.cons · _)
  | case5 e t _ c hc ih =>
    obtain ⟨⟨qs, r'⟩, hqs, heq⟩ := Option.map_eq_some_iff.mp hread
    cases heq
    obtain ⟨rfl, -⟩ | ht := h.of_escape (by rintro rfl; cases hc)
    · cases hc
    · exact (ih ht hqs).imp_left (IsHalved.cons · _)
  | case8 c t hquote _ _ hc ih =>
    obtain ⟨⟨qs, r'⟩, hqs, heq⟩ := Option.map_eq_some_iff.mp hread
    cases heq
    exact (ih (h.tail fun h => hc (.inr h)) hqs).imp_left (IsHalved.cons · _)

/-- A string with characters is read across no garbled place. -/
theorem Garbled.of_readString {text : String} (h : Garbled false s)
    (hread : Json.readString s = some (some text, r)) : Garbled false r := by
  obtain ⟨⟨ps, r'⟩, hps, heq⟩ := Option.map_eq_some_iff.mp hread
  rcases h.of_readPieces hps with hhalved | hr
  · rw [hhalved.joinPieces] at heq
    cases heq
  · obtain ⟨-, rfl⟩ := Prod.mk.inj heq
    exact hr

/-! ### Sound values -/

/-- Whether every piece of a part has a value. -/
def IsSound : Part → Prop
  | .value v => v.isSound = true
  | .items vs => Json.isSoundItems vs = true
  | .member m => m.1 ≠ none ∧ m.2.isSound = true
  | .members ms => ∀ m ∈ ms, m.1 ≠ none ∧ m.2.isSound = true

theorem isSound_ofMembers {ms : List (Option String × Json)}
    (h : (Json.ofMembers ms).isSound = true) : IsSound (.members ms) := by
  unfold Json.ofMembers at h
  split at h
  · rename_i members hmembers
    rw [Json.isSound] at h
    induction ms generalizing members with
    | nil => exact List.forall_mem_nil _
    | cons m ms ih =>
      rw [List.mapM_cons] at hmembers
      obtain ⟨first, hfirst, hmembers⟩ := Option.bind_eq_some_iff.mp hmembers
      obtain ⟨rest, hrest, heq⟩ := Option.bind_eq_some_iff.mp hmembers
      cases heq
      obtain ⟨name, hname, rfl⟩ := Option.map_eq_some_iff.mp hfirst
      obtain ⟨hm, hms⟩ := Bool.and_eq_true_iff.mp h
      exact List.forall_mem_cons.mpr ⟨⟨by simp [hname], hm⟩, ih rest hrest hms⟩
  · cases h

/-- **Values.** A part that is sound is spelled across no garbled place. -/
theorem Garbled.of_spells {p : Part} (h : Spells s p r) (hs : Garbled false s) (hp : IsSound p) :
    Garbled false r := by
  induction h with
  | null h =>
    have hletter := hs.goesOn (goesOn_of_skipSpace h (by decide))
    exact hletter.goesOn ⟨['u', 'l', 'l'], rfl, by decide⟩
  | true h =>
    have hletter := hs.goesOn (goesOn_of_skipSpace h (by decide))
    exact hletter.goesOn ⟨['r', 'u', 'e'], rfl, by decide⟩
  | false h =>
    have hletter := hs.goesOn (goesOn_of_skipSpace h (by decide))
    exact hletter.goesOn ⟨['a', 'l', 's', 'e'], rfl, by decide⟩
  | number h => exact (hs.goesOn (goesOn_skipSpace _)).goesOn (goesOn_of_readNumber h)
  | @string s t r o hs' h =>
    cases o with
    -- Half a pair has no value.
    | none => cases hp
    | some text => exact (hs.goesOn (goesOn_of_skipSpace hs' (by decide))).of_readString h
  | emptyArray h h' | emptyObject h h' =>
    have hopen := hs.goesOn (goesOn_of_skipSpace h (by decide))
    exact hopen.goesOn (goesOn_of_skipSpace h' (by decide))
  | array h _ ih =>
    have hopen := hs.goesOn (goesOn_of_skipSpace h (by decide))
    exact ih (hopen.goesOn (goesOn_skipSpace _)) hp
  | object h _ ih =>
    have hopen := hs.goesOn (goesOn_of_skipSpace h (by decide))
    exact ih (hopen.goesOn (goesOn_skipSpace _)) (isSound_ofMembers hp)
  | lastItem _ h ih =>
    obtain ⟨hv, -⟩ := Bool.and_eq_true_iff.mp hp
    exact (ih hs hv).goesOn (goesOn_of_skipSpace h (by decide))
  | item _ h _ ih ih' =>
    obtain ⟨hv, hvs⟩ := Bool.and_eq_true_iff.mp hp
    exact ih' ((ih hs hv).goesOn (goesOn_of_skipSpace h (by decide))) hvs
  | @member s t u w r name v h hname hu _ ih =>
    obtain ⟨hsome, hv⟩ := hp
    cases name with
    | none => exact absurd rfl hsome
    | some text =>
      have hopen := hs.goesOn (goesOn_of_skipSpace h (by decide))
      exact ih ((hopen.of_readString hname).goesOn (goesOn_of_skipSpace hu (by decide))) hv
  | lastMember _ h ih =>
    exact (ih hs (hp _ List.mem_cons_self)).goesOn (goesOn_of_skipSpace h (by decide))
  | nextMember _ h _ ih ih' =>
    have hm := (ih hs (hp _ List.mem_cons_self)).goesOn (goesOn_of_skipSpace h (by decide))
    exact ih' hm fun m hmem => hp m (List.mem_cons_of_mem _ hmem)

/-- **Bodies.** The value of a body is sound only if the body is UTF-8, and then it is the value of
    its text. -/
theorem valueOf?_eq_some_iff {body : List UInt8} (hv : v.isSound = true) :
    valueOf? body = some v ↔
      ∃ text r, body = Message.utf8 text ∧ Spells text.toList (.value v) r ∧ skipSpace r = [] := by
  constructor
  · intro h
    unfold valueOf? at h
    split at h
    · rename_i text hbody
      obtain ⟨r, hspells, hr⟩ := Json.parse_eq_some_iff.mp h
      exact ⟨text, r, Message.eq_utf8_of_ofUtf8? hbody, hspells, hr⟩
    · rename_i hbody
      obtain ⟨r, hspells, hr⟩ := Json.parse_eq_some_iff.mp h
      rw [String.toList_ofList] at hspells
      have hgarbled := Garbled.of_spells hspells (garbled_legible hbody) hv
      have hend : GoesOn r [] := hr ▸ goesOn_skipSpace r
      exact absurd (hgarbled.goesOn hend) not_garbled_nil
  · rintro ⟨text, r, rfl, hspells, hr⟩
    rw [valueOf?, Message.ofUtf8?_utf8]
    exact Json.parse_eq_some_iff.mpr ⟨r, hspells, hr⟩

end TxLoad.Rpc
