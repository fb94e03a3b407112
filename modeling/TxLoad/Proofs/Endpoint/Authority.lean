import TxLoad.Endpoint.Basic
import TxLoad.Proofs.Text.Numeral
import Mathlib.Data.List.TakeWhile

namespace TxLoad.Uri

/-!
# What the scan of an authority lets through

The scan goes through an authority once and keeps a few marks. What they are worth is said here for
any stretch of text: brackets are counted once and for all, the at sign forgets colons and percent
signs, a closing bracket does too.

* `Uri.Scan.Reads`: what a single character makes of the marks.
* `Uri.Scan.marks_of_over`: the brackets of a stretch of text.
* `Uri.Scan.over_free`: a stretch without brackets and at signs.
* `Uri.splitAuthority_append`, `Uri.isAuthority_of_splitAuthority`: where an authority ends.
* `Uri.isHost_hostOf`: what the host of an authority looks like, and where it stands.
* `Uri.hostOf_append`, `Uri.portOf_append`: the parts of a host with a port.
-/

variable {s a r : List Char} {c : Char} {t t' : Scan}

/-! ### One character -/

/-- A character that leaves no mark. -/
def isPlain (c : Char) : Bool := isUriChar c && c != ':' && c != '[' && c != ']' && c != '@'

/-- Where a scan starts. -/
def Scan.start : Scan := ⟨0, false, false, false, false⟩

/-- What a character makes of the marks. -/
inductive Scan.Reads : Scan → Char → Scan → Prop where
  | colon {t : Scan} (h : t.colons < maxColons) :
    Reads t ':' { t with colons := t.colons + 1, atSign := false }
  | opening {t : Scan} (hpercent : t.percent = false) (hopened : t.opened = false) :
    Reads t '[' { t with opened := true, atSign := false }
  | closing {t : Scan} (hopened : t.opened = true) (hclosed : t.closed = false) :
    Reads t ']' { t with closed := true, colons := 0, percent := false, atSign := false }
  | atSign {t : Scan} : Reads t '@' { t with colons := 0, percent := false, atSign := true }
  | percent {t : Scan} : Reads t '%' { t with percent := true, atSign := false }
  | plain {t : Scan} {c : Char} (h : isPlain c = true) : Reads t c { t with atSign := false }

theorem isPlain_iff : isPlain c = true ↔
    isUriChar c = true ∧ c ≠ ':' ∧ c ≠ '[' ∧ c ≠ ']' ∧ c ≠ '@' := by
  simp [isPlain, and_assoc]

theorem isPlain_of_isAlphanum (hc : c.isAlphanum = true) : isPlain c = true := by
  refine isPlain_iff.mpr ⟨by simp [isUriChar, hc], ?_, ?_, ?_, ?_⟩
  all_goals
    rintro rfl
    exact absurd hc (by decide)

theorem endsAuthority_of_isAlphanum (hc : c.isAlphanum = true) : endsAuthority c = false := by
  simp only [endsAuthority, Bool.or_eq_false_iff, beq_eq_false_iff_ne]
  refine ⟨⟨?_, ?_⟩, ?_⟩
  all_goals
    rintro rfl
    exact absurd hc (by decide)

/-- A percent sign is none of the characters of an authority. -/
theorem ne_percent_of_isPlain (h : isPlain c = true) : c ≠ '%' := by
  rintro rfl
  exact absurd h (by decide)

theorem Scan.reads_of_step (h : t.step c = some t') : t.Reads c t' := by
  unfold Scan.step at h
  split at h
  · rename_i hc
    subst hc
    split at h
    · cases h
    · rename_i hcolons
      cases h
      exact .colon (Nat.lt_of_not_le hcolons)
  split at h
  · rename_i hc
    subst hc
    split at h
    · cases h
    · rename_i hopening
      cases h
      simp only [Bool.or_eq_true, not_or, Bool.not_eq_true] at hopening
      exact .opening hopening.1 hopening.2
  split at h
  · rename_i hc
    subst hc
    split at h
    · cases h
    · rename_i hclosing
      cases h
      simp only [Bool.or_eq_true, not_or, Bool.not_eq_true, Bool.not_eq_false'] at hclosing
      exact .closing hclosing.1 hclosing.2
  split at h
  · rename_i hc
    subst hc
    cases h
    exact .atSign
  split at h
  · rename_i hc
    subst hc
    cases h
    exact .percent
  split at h
  · rename_i hcolon hopening hclosing hat hpercent huri
    cases h
    exact .plain (isPlain_iff.mpr ⟨huri, hcolon, hopening, hclosing, hat⟩)
  · cases h

theorem Scan.Reads.step_eq (h : t.Reads c t') : t.step c = some t' := by
  cases h with
  | colon h => exact if_neg (Nat.not_le.mpr h)
  | opening hpercent hopened => simp [Scan.step, hpercent, hopened]
  | closing hopened hclosed => simp [Scan.step, hopened, hclosed]
  | atSign => simp [Scan.step]
  | percent => simp [Scan.step]
  | plain h =>
    obtain ⟨huri, hcolon, hopening, hclosing, hat⟩ := isPlain_iff.mp h
    simp [Scan.step, huri, hcolon, hopening, hclosing, hat, ne_percent_of_isPlain h]

/-- Whether the character before was an at sign does not matter. -/
theorem Scan.step_setAtSign (t : Scan) (b : Bool) (c : Char) :
    Scan.step { t with atSign := b } c = t.step c := rfl

/-- Without any other mark only the at sign can differ from the start. -/
theorem Scan.start_setAtSign (hcolons : t.colons = 0) (hopened : t.opened = false)
    (hclosed : t.closed = false) (hpercent : t.percent = false) :
    { Scan.start with atSign := t.atSign } = t := by
  cases t
  simp_all [Scan.start]

/-! ### A stretch of text -/

/-- The scan of a stretch of text. -/
def Scan.over (t : Scan) (s : List Char) : Option Scan := s.foldlM Scan.step t

theorem Scan.over_nil (t : Scan) : t.over [] = some t := rfl

theorem Scan.over_cons_of_reads (h : t.Reads c t') (s : List Char) :
    t.over (c :: s) = t'.over s := by
  simp [Scan.over, h.step_eq]

theorem Scan.exists_of_over_cons (h : t.over (c :: s) = some t') :
    ∃ u, t.Reads c u ∧ u.over s = some t' := by
  rw [Scan.over, List.foldlM_cons] at h
  obtain ⟨u, hu, h⟩ := Option.bind_eq_some_iff.mp h
  exact ⟨u, Scan.reads_of_step hu, h⟩

theorem Scan.over_append {u : Scan} (h : t.over s = some u) (r : List Char) :
    t.over (s ++ r) = u.over r := by
  rw [Scan.over] at h
  simp [Scan.over, h]

theorem Scan.exists_of_over_append (h : t.over (s ++ r) = some t') :
    ∃ u, t.over s = some u ∧ u.over r = some t' := by
  rw [Scan.over, List.foldlM_append] at h
  exact Option.bind_eq_some_iff.mp h

theorem Scan.over_setAtSign (b : Bool) (hs : s ≠ []) :
    Scan.over { t with atSign := b } s = t.over s := by
  obtain ⟨c, s, rfl⟩ := List.exists_cons_of_ne_nil hs
  rw [Scan.over, Scan.over, List.foldlM_cons, List.foldlM_cons, Scan.step_setAtSign]

/-- What may stand in an authority. -/
theorem Scan.isUriChar_of_over (h : t.over s = some t') :
    ∀ c ∈ s, isUriChar c = true ∨ c = '%' := by
  induction s generalizing t with
  | nil => simp
  | cons c s ih =>
    obtain ⟨u, hu, h⟩ := Scan.exists_of_over_cons h
    refine List.forall_mem_cons.mpr ⟨?_, ih h⟩
    cases hu with
    | plain hplain => exact .inl (isPlain_iff.mp hplain).1
    | _ => decide

/-- How brackets are marked: each is marked where it occurs, and occurs nowhere else. -/
structure Scan.Marks (t : Scan) (s : List Char) (t' : Scan) : Prop where
  opened_iff : t'.opened = true ↔ t.opened = true ∨ '[' ∈ s
  closed_iff : t'.closed = true ↔ t.closed = true ∨ ']' ∈ s
  not_opened : '[' ∈ s → t.opened = false
  not_closed : ']' ∈ s → t.closed = false
  /-- No bracket is closed that was not opened. -/
  opened_of_closed : (t.closed = true → t.opened = true) → t'.closed = true → t'.opened = true

theorem Scan.marks_of_over (h : t.over s = some t') : t.Marks s t' := by
  induction s generalizing t with
  | nil =>
    cases h
    constructor <;> simp
  | cons c s ih =>
    obtain ⟨u, hu, h⟩ := Scan.exists_of_over_cons h
    obtain ⟨hopened, hclosed, hnot, hnot', himp⟩ := ih h
    cases hu with
    | colon | atSign | percent => constructor <;> simp_all
    | opening _ hfree =>
      have honce : '[' ∉ s := fun hmem => Bool.noConfusion (hnot hmem)
      constructor <;> simp_all
    | closing hfree hfree' =>
      have honce : ']' ∉ s := fun hmem => Bool.noConfusion (hnot' hmem)
      constructor <;> simp_all
    | plain hplain =>
      obtain ⟨-, -, hne, hne', -⟩ := isPlain_iff.mp hplain
      have hopening : '[' ∈ c :: s ↔ '[' ∈ s := by simp [hne.symm]
      have hclosing : ']' ∈ c :: s ↔ ']' ∈ s := by simp [hne'.symm]
      exact ⟨by rw [hopened, hopening], by rw [hclosed, hclosing],
        fun hmem => hnot (hopening.mp hmem), fun hmem => hnot' (hclosing.mp hmem), himp⟩

/-- After an at sign, colons and percent signs are forgotten. -/
theorem Scan.forgets (h : t.over (s ++ ['@']) = some t') :
    t'.colons = 0 ∧ t'.percent = false := by
  obtain ⟨u, -, h⟩ := Scan.exists_of_over_append h
  obtain ⟨w, hw, h⟩ := Scan.exists_of_over_cons h
  cases h
  cases hw with
  | atSign => exact ⟨rfl, rfl⟩
  | plain hplain => exact absurd hplain (by decide)

/-- A percent sign is forgotten at an at sign or at a closing bracket only. -/
theorem Scan.percent_of_over (hat : '@' ∉ s) (hclosing : ']' ∉ s)
    (hpercent : t.percent = true ∨ '%' ∈ s) (h : t.over s = some t') : t'.percent = true := by
  induction s generalizing t with
  | nil =>
    cases h
    simpa using hpercent
  | cons c s ih =>
    obtain ⟨u, hu, h⟩ := Scan.exists_of_over_cons h
    rw [List.mem_cons, not_or] at hat hclosing
    refine ih hat.2 hclosing.2 ?_ h
    cases hu with
    | colon | opening => simpa using hpercent
    | closing => exact absurd rfl hclosing.1
    | atSign => exact absurd rfl hat.1
    | percent => exact .inl rfl
    | plain hplain => simpa [(ne_percent_of_isPlain hplain).symm] using hpercent

/-- Without a colon none is counted. -/
theorem Scan.colons_of_over (hcolon : ':' ∉ s) (hzero : t.colons = 0) (h : t.over s = some t') :
    t'.colons = 0 := by
  induction s generalizing t with
  | nil =>
    cases h
    exact hzero
  | cons c s ih =>
    obtain ⟨u, hu, h⟩ := Scan.exists_of_over_cons h
    have hcolon' := fun hmem => hcolon (List.mem_cons_of_mem c hmem)
    cases hu with
    | colon => exact absurd (List.mem_cons_self ..) hcolon
    | closing | atSign => exact ih hcolon' rfl h
    | opening | percent | plain =>
      refine ih hcolon' ?_ h
      exact hzero

/-- A character that is no bracket and no at sign. -/
def isFree (c : Char) : Bool := c == ':' || c == '%' || isPlain c

/-- **Free text.** It is let through as long as its colons are not too many. -/
theorem Scan.over_free (hs : ∀ c ∈ s, isFree c = true)
    (hcolons : t.colons + s.count ':' ≤ maxColons) :
    t.over s = some
      { t with
        colons := t.colons + s.count ':'
        percent := t.percent || s.contains '%'
        atSign := t.atSign && s.isEmpty } := by
  induction s generalizing t with
  | nil => simp [Scan.over_nil]
  | cons c s ih =>
    obtain ⟨hc, hs'⟩ := List.forall_mem_cons.mp hs
    simp only [isFree, Bool.or_eq_true, beq_iff_eq] at hc
    rcases hc with (rfl | rfl) | hc
    · rw [List.count_cons_self] at hcolons ⊢
      rw [Scan.over_cons_of_reads (.colon (by omega)), ih hs' (by simp only; omega)]
      simp [Nat.add_assoc, Nat.add_comm 1]
    · rw [List.count_cons_of_ne (by decide)] at hcolons ⊢
      rw [Scan.over_cons_of_reads .percent, ih hs' (by exact hcolons)]
      simp
    · have hne := (isPlain_iff.mp hc).2.1
      rw [List.count_cons_of_ne hne] at hcolons ⊢
      rw [Scan.over_cons_of_reads (.plain hc), ih hs' (by exact hcolons)]
      simp [(ne_percent_of_isPlain hc).symm]

/-- Plain text leaves no mark. -/
theorem Scan.over_plain (hs : ∀ c ∈ s, isPlain c = true) (hat : t.atSign = false) :
    t.over s = some t := by
  induction s with
  | nil => rfl
  | cons c s ih =>
    obtain ⟨hc, hs⟩ := List.forall_mem_cons.mp hs
    rw [Scan.over_cons_of_reads (.plain hc), ← hat]
    exact ih hs

/-! ### The authority -/

/-- Whether a text is an authority. -/
def IsAuthority (a : List Char) : Prop :=
  (∀ c ∈ a, endsAuthority c = false) ∧ ∃ t, Scan.start.over a = some t ∧ t.accepts = true

/-- What may follow an authority: nothing, or a character that ends it. -/
def EndsHere (r : List Char) : Prop := ∀ c ∈ r.head?, endsAuthority c = true

theorem splitAuthority_append (ha : IsAuthority a) (hr : EndsHere r) :
    splitAuthority (a ++ r) = some (a, r) := by
  obtain ⟨hends, t, hover, haccepts⟩ := ha
  have htake : (a ++ r).takeWhile (fun c => !endsAuthority c) = a := by
    rw [List.takeWhile_append_of_pos fun c hc => by simp [hends c hc]]
    cases r with
    | nil => simp
    | cons c r => simp [hr c rfl]
  have hover' : a.foldlM Scan.step ⟨0, false, false, false, false⟩ = some t := hover
  simp only [splitAuthority, htake, hover', haccepts, if_true, List.drop_left]

theorem isAuthority_of_splitAuthority (h : splitAuthority s = some (a, r)) :
    IsAuthority a ∧ s = a ++ r ∧ EndsHere r := by
  unfold splitAuthority at h
  simp only at h
  split at h
  · rename_i t hover
    split at h
    · rename_i haccepts
      obtain ⟨rfl, rfl⟩ := Prod.mk.inj (Option.some.inj h)
      have hsplit := List.prefix_iff_eq_append.mp
        (List.takeWhile_prefix (l := s) fun c => !endsAuthority c)
      refine ⟨⟨fun c hc => ?_, t, hover, haccepts⟩, hsplit.symm, fun c hc => ?_⟩
      · simpa using List.mem_takeWhile_imp hc
      · have hdrop := List.append_cancel_left
          (hsplit.trans (List.takeWhile_append_dropWhile (p := fun c => !endsAuthority c)).symm)
        have hhead := List.head?_dropWhile_not (fun c => !endsAuthority c) s
        rw [← hdrop, Option.mem_def.mp hc] at hhead
        simpa using hhead
    · cases h
  · cases h

/-- A text without an end that is no authority does not start with one. -/
theorem splitAuthority_eq_none (hends : ∀ c ∈ s, endsAuthority c = false) (h : ¬ IsAuthority s) :
    splitAuthority s = none := by
  cases hsplit : splitAuthority s with
  | none => rfl
  | some p =>
    obtain ⟨a, r⟩ := p
    obtain ⟨ha, rfl, hr⟩ := isAuthority_of_splitAuthority hsplit
    cases r with
    | nil => exact absurd (by rwa [List.append_nil]) h
    | cons c r =>
      have hnot := hends c (by simp)
      rw [hr c rfl] at hnot
      cases hnot

/-! ### Host and port -/

theorem takeWhile_ne_append {c : Char} (h : c ∉ s) (r : List Char) :
    (s ++ c :: r).takeWhile (· != c) = s := by
  rw [List.takeWhile_append_of_pos fun d hd => by simpa using fun heq : d = c => h (heq ▸ hd)]
  simp

/-- What follows the last occurrence of a character. -/
def behind (c : Char) (s : List Char) : List Char := (s.reverse.takeWhile (· != c)).reverse

theorem behind_append (h : c ∉ r) (s : List Char) : behind c (s ++ c :: r) = r := by
  rw [behind, List.reverse_append, List.reverse_cons, List.append_assoc]
  rw [List.singleton_append, takeWhile_ne_append (by simpa using h), List.reverse_reverse]

theorem behind_of_not_mem (h : c ∉ s) : behind c s = s := by
  have hall : s.reverse.takeWhile (· != c) = s.reverse :=
    List.takeWhile_eq_self_iff.mpr fun d hd => by
      simpa using fun heq : d = c => h (heq ▸ List.mem_reverse.mp hd)
  rw [behind, hall, List.reverse_reverse]

/-- What does not have the character itself belongs to what follows its last occurrence. -/
theorem behind_append_of_not_mem (h : c ∉ r) (s : List Char) :
    behind c (s ++ r) = behind c s ++ r := by
  have hr : ∀ d ∈ r.reverse, (d != c) = true := fun d hd => by
    simpa using fun heq : d = c => h (heq ▸ List.mem_reverse.mp hd)
  rw [behind, behind, List.reverse_append, List.takeWhile_append_of_pos hr, List.reverse_append,
    List.reverse_reverse]

/-- A text is what follows the last occurrence, behind what ends with the character or is
    nothing. -/
theorem exists_append_behind (c : Char) (s : List Char) :
    ∃ u, s = u ++ behind c s ∧ (u = [] ∨ ∃ v, u = v ++ [c]) ∧ c ∉ behind c s := by
  refine ⟨(s.reverse.dropWhile (· != c)).reverse, ?_, ?_, ?_⟩
  · rw [behind, ← List.reverse_append, List.takeWhile_append_dropWhile, List.reverse_reverse]
  · cases hdrop : s.reverse.dropWhile (· != c) with
    | nil => exact .inl rfl
    | cons d l =>
      have hd : (d != c) = false := by
        have hhead := List.head?_dropWhile_not (· != c) s.reverse
        rwa [hdrop] at hhead
      obtain rfl : d = c := by simpa using hd
      exact .inr ⟨l.reverse, by simp⟩
  · intro hmem
    have hne := List.mem_takeWhile_imp (List.mem_reverse.mp hmem)
    simp at hne

/-- The forms of a host: in brackets, or without a colon. -/
inductive IsHost : List Char → Prop where
  | bracketed {s : List Char} (h : ']' ∉ s) : IsHost ('[' :: (s ++ [']']))
  | bare {s : List Char} (hne : s ≠ []) (hhead : s.head? ≠ some '[') (hcolon : ':' ∉ s) : IsHost s

theorem IsHost.ne_nil (h : IsHost s) : s ≠ [] := by
  cases h with
  | bracketed => exact List.cons_ne_nil _ _
  | bare hne => exact hne

theorem hostOf_eq (a : List Char) : hostOf a =
    if (behind '@' a).head? = some '[' then (behind '@' a).takeWhile (· != ']') ++ [']']
    else (behind '@' a).takeWhile (· != ':') := by
  unfold hostOf behind
  generalize (a.reverse.takeWhile (· != '@')).reverse = s
  simp only
  split
  · exact (if_pos rfl).symm
  · rename_i hnot
    refine (if_neg fun hhead => ?_).symm
    obtain ⟨r, rfl⟩ := List.head?_eq_some_iff.mp hhead
    exact hnot r rfl

theorem head?_append_of_ne_nil (hs : s ≠ []) (r : List Char) : (s ++ r).head? = s.head? := by
  obtain ⟨c, s, rfl⟩ := List.exists_cons_of_ne_nil hs
  rfl

/-- **Hosts.** The host of an authority has one of the two forms and stands right behind the user
    information. -/
theorem isHost_hostOf (ha : IsAuthority a) (hne : hostOf a ≠ []) :
    IsHost (hostOf a) ∧ ∃ rest, behind '@' a = hostOf a ++ rest := by
  rw [hostOf_eq] at hne ⊢
  by_cases hhead : (behind '@' a).head? = some '['
  · rw [if_pos hhead]
    obtain ⟨-, t, hover, haccepts⟩ := ha
    obtain ⟨u, hsplit, -, -⟩ := exists_append_behind '@' a
    -- The bracket that is opened here is closed here, since no other is.
    have hmem : ']' ∈ behind '@' a := by
      have hopening : '[' ∈ behind '@' a := List.mem_of_mem_head? hhead
      rw [hsplit] at hover
      obtain ⟨w, hu, hw⟩ := Scan.exists_of_over_append hover
      have hmarks := Scan.marks_of_over hu
      have hmarks' := Scan.marks_of_over hw
      have hboth : t.opened = t.closed := by
        simp only [Scan.accepts, Bool.and_eq_true, beq_iff_eq] at haccepts
        exact haccepts.1.1.1
      have hclosed : t.closed = true := hboth ▸ hmarks'.opened_iff.mpr (.inr hopening)
      refine (hmarks'.closed_iff.mp hclosed).resolve_left fun hw => ?_
      have hopened := hmarks.opened_of_closed nofun hw
      rw [hmarks'.not_opened hopening] at hopened
      cases hopened
    obtain ⟨s, r, hsr, hnot⟩ := List.eq_append_cons_of_mem hmem
    rw [hsr, takeWhile_ne_append hnot]
    rw [hsr] at hhead
    cases s with
    | nil => exact absurd (Option.some.inj hhead) (by decide)
    | cons c s =>
      obtain rfl : c = '[' := by simpa using hhead
      exact ⟨.bracketed fun h => hnot (List.mem_cons_of_mem _ h), r, by simp⟩
  · rw [if_neg hhead] at hne ⊢
    obtain ⟨rest, hrest⟩ := List.takeWhile_prefix (l := behind '@' a) (· != ':')
    refine ⟨.bare hne ?_ fun hmem => ?_, rest, hrest.symm⟩
    · rw [← hrest, head?_append_of_ne_nil hne] at hhead
      exact hhead
    · have hcolon := List.mem_takeWhile_imp hmem
      simp at hcolon

/-- A host alone is its own host. -/
theorem IsHost.hostOf_eq (hs : IsHost s) (hat : '@' ∉ s) : hostOf s = s := by
  rw [Uri.hostOf_eq, behind_of_not_mem hat]
  cases hs with
  | @bracketed s hs =>
    have hs' : ']' ∉ '[' :: s := by simp [hs]
    rw [if_pos (by rfl), ← List.cons_append, takeWhile_ne_append hs']
  | bare hne hhead hcolon =>
    rw [if_neg hhead, List.takeWhile_eq_self_iff.mpr fun c hc => ?_]
    simpa using fun heq : c = ':' => hcolon (heq ▸ hc)

/-- A host with a port is taken apart again. -/
theorem hostOf_append {h p : List Char} (hh : IsHost h) (hat : '@' ∉ h) (hat' : '@' ∉ p) :
    hostOf (h ++ ':' :: p) = h := by
  have hbehind : behind '@' (h ++ ':' :: p) = h ++ ':' :: p :=
    behind_of_not_mem (by simp [hat, hat'])
  rw [hostOf_eq, hbehind]
  cases hh with
  | @bracketed s hs =>
    have hs' : ']' ∉ '[' :: s := by simp [hs]
    have hsplit : '[' :: (s ++ [']']) ++ ':' :: p = '[' :: s ++ ']' :: ':' :: p := by simp
    rw [if_pos (by rfl), hsplit, takeWhile_ne_append hs']
    rfl
  | bare hne hhead hcolon =>
    rw [if_neg (by rwa [head?_append_of_ne_nil hne]), takeWhile_ne_append hcolon]

theorem portOf_append {h p : List Char} (hcolon : ':' ∉ p) :
    portOf (h ++ ':' :: p) = Text.readNumeral 65535 p := by
  have hbehind : ((h ++ ':' :: p).reverse.takeWhile (· != ':')).reverse = p :=
    behind_append hcolon h
  rw [portOf, if_pos (by simp), hbehind]

/-- An authority that ends with its host, or with a colon behind it, has no port. -/
theorem portOf_eq_none (ha : IsAuthority a) (hne : hostOf a ≠ [])
    (h : behind '@' a = hostOf a ∨ behind '@' a = hostOf a ++ [':']) : portOf a = none := by
  obtain ⟨u, hsplit, hu, -⟩ := exists_append_behind '@' a
  -- What stands behind the last colon, if there is one, is no number.
  suffices hread : ':' ∈ a → Text.readNumeral 65535 (behind ':' a) = none by
    unfold portOf
    split
    · rename_i hcolon
      exact hread (by simpa using hcolon)
    · rfl
  rintro hcolon
  rcases h with h | h
  · have hhost := (isHost_hostOf ha hne).1
    rw [← h] at hhost
    have hend : ∃ v c r, a = v ++ c :: r ∧ ':' ∉ c :: r ∧ c.isDigit = false ∧ c ≠ '+' := by
      generalize behind '@' a = host at hsplit hhost
      cases hhost with
      | @bracketed s _ =>
        exact ⟨u ++ '[' :: s, ']', [], by simp [hsplit], by decide, rfl, by decide⟩
      | bare _ _ hnot =>
        rcases hu with rfl | ⟨v, rfl⟩
        · exact absurd (by simpa [hsplit] using hcolon) hnot
        · exact ⟨v, '@', host, by simp [hsplit], by simp [hnot], rfl, by decide⟩
    obtain ⟨v, c, r, rfl, hnot, hdigit, hplus⟩ := hend
    rw [behind_append_of_not_mem hnot]
    exact Text.readNumeral_eq_none (by simp) hdigit hplus
  · rw [hsplit, h, ← List.append_assoc, behind_append (by simp)]
    rfl

/-! ### The whole text -/

/-- What is read comes from an authority in the text. -/
theorem isAuthority_of_parse (h : parse s = some a) : IsAuthority a ∧ a ⊆ s := by
  unfold parse at h
  split at h
  · cases h
  · split at h
    · cases h
    · split at h
      · rename_i hsplit
        cases h
        obtain ⟨ha, rfl, -⟩ := isAuthority_of_splitAuthority hsplit
        exact ⟨ha, List.subset_append_left ..⟩
      · cases h
    · split at h
      · rename_i rest hsplit
        split at h
        · cases h
        · cases h
          obtain ⟨ha, heq, -⟩ := isAuthority_of_splitAuthority hsplit
          refine ⟨ha, fun c hc => List.mem_of_mem_drop (heq ▸ List.mem_append_left rest hc)⟩
      · cases h

/-- Whether a text may stand before `://`. -/
def IsScheme (scheme : List Char) : Prop :=
  scheme.all (fun c => isSchemeChar c && c != ':') = true ∧ scheme.length ≤ maxSchemeLength

theorem schemeLength_append {scheme : List Char} (h : IsScheme scheme) (s : List Char) :
    schemeLength (scheme ++ "://".toList ++ s) = .ok (some scheme.length) := by
  obtain ⟨hchars, hlength⟩ := h
  have htake : (scheme ++ "://".toList ++ s).takeWhile (fun c => isSchemeChar c && c != ':') =
      scheme := by
    rw [List.append_assoc, List.takeWhile_append_of_pos (List.all_eq_true.mp hchars)]
    exact List.append_nil scheme
  have hdrop : (scheme ++ "://".toList ++ s).drop scheme.length = ':' :: '/' :: '/' :: s := by
    rw [List.append_assoc, List.drop_left]
    rfl
  simp only [schemeLength, htake, hdrop, if_neg (Nat.not_lt.mpr hlength)]

/-- **Absolute texts.** A scheme, an authority that is not empty and what follows it. -/
theorem parse_append {scheme : List Char} (hscheme : IsScheme scheme) (s : List Char)
    (hlength : (String.ofList (scheme ++ "://".toList ++ s)).utf8ByteSize ≤ maxLength) :
    parse (scheme ++ "://".toList ++ s) =
      match splitAuthority s with
      | some (a, r) => if a.isEmpty || !isPathAndQuery r then none else some a
      | none => none := by
  have hdrop : (scheme ++ "://".toList ++ s).drop (scheme.length + 3) = s := by
    rw [show scheme.length + 3 = (scheme ++ "://".toList).length by simp]
    exact List.drop_left
  cases hsplit : splitAuthority s with
  | none =>
    simp only [parse, if_neg (Nat.not_lt.mpr hlength), schemeLength_append hscheme, hdrop, hsplit]
  | some p =>
    simp only [parse, if_neg (Nat.not_lt.mpr hlength), schemeLength_append hscheme, hdrop, hsplit]

/-- A scheme with an authority is a URI. -/
theorem parse_append_authority {scheme : List Char} (hscheme : IsScheme scheme)
    (ha : IsAuthority a) (hne : a ≠ [])
    (hlength : (String.ofList (scheme ++ "://".toList ++ a)).utf8ByteSize ≤ maxLength) :
    parse (scheme ++ "://".toList ++ a) = some a := by
  have hsplit := splitAuthority_append (r := []) ha fun c hc => by simp at hc
  rw [List.append_nil] at hsplit
  rw [parse_append hscheme _ hlength, hsplit]
  simp [hne, isPathAndQuery]

end TxLoad.Uri
