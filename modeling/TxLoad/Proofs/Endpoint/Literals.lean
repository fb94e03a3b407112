import TxLoad.Address
import TxLoad.Proofs.Endpoint.Canonical

namespace TxLoad

/-!
# Names and numeric addresses as hosts

The host of an endpoint may be a name, an address of version 4, or one of version 6 in brackets. The
scan of an authority knows nothing of addresses: it counts brackets and colons. That every numeric
address gets through it is a matter of how many colons such an address can have, which are eight.

* `Address.passes_readOctets`, `Address.passes_readV6`: what the text of an address consists of.
* `Endpoint.NamesHost`: the three kinds of hosts.
* `Endpoint.NamesHost.isAuthority`: each is an authority on its own, and whole.
* `Endpoint.parse_append_chars`: a host with a port is read, behind any scheme or none.
-/

namespace Address

variable {s t r : List Char} {c : Char} {m n : Nat}

/-! ### The text of an address -/

/-- The characters of numeric addresses. -/
def isAddressChar (c : Char) : Bool := c.isAlphanum || c == '.' || c == ':'

/-- What was read of a text down to `r` are characters of addresses, at most `n` colons among
    them. -/
def Passes (n : Nat) (s r : List Char) : Prop :=
  ∃ p, s = p ++ r ∧ (∀ c ∈ p, isAddressChar c = true) ∧ p.count ':' ≤ n

theorem Passes.refl (s : List Char) : Passes 0 s s := ⟨[], rfl, by simp, by simp⟩

theorem Passes.trans (h : Passes m s t) (h' : Passes n t r) : Passes (m + n) s r := by
  obtain ⟨p, rfl, hp, hm⟩ := h
  obtain ⟨q, rfl, hq, hn⟩ := h'
  refine ⟨p ++ q, (List.append_assoc ..).symm, ?_, ?_⟩
  · exact List.forall_mem_append.mpr ⟨hp, hq⟩
  · rw [List.count_append]
    omega

theorem Passes.mono (h : Passes m s r) (hle : m ≤ n) : Passes n s r := by
  obtain ⟨p, rfl, hp, hm⟩ := h
  exact ⟨p, rfl, hp, hm.trans hle⟩

/-- Digits in any base are letters or decimal digits. -/
theorem isAlphanum_of_digitValue? {base : Nat} (hbase : base ≤ 36)
    (h : (Text.digitValue? base c).isSome = true) : c.isAlphanum = true := by
  obtain ⟨d, hd⟩ := Option.isSome_iff_exists.mp h
  have hranges := (Text.ranges_of_digitValue? hbase hd).2
  show (c.isUpper || c.isLower || c.isDigit) = true
  rcases hranges with hdigit | ⟨-, ⟨hlow, hhigh⟩ | ⟨hlow, hhigh⟩⟩
  · rw [Char.isDigit_iff_toNat.mpr hdigit, Bool.or_true]
  · have hupper : c.isUpper = true := by
      have hge : c.val ≥ 'A'.val := UInt32.le_iff_toNat_le.mpr hlow
      have hle : c.val ≤ 'Z'.val := UInt32.le_iff_toNat_le.mpr hhigh
      exact decide_eq_true (And.intro hge hle)
    rw [hupper, Bool.true_or, Bool.true_or]
  · have hlower : c.isLower = true := by
      have hge : c.val ≥ 'a'.val := UInt32.le_iff_toNat_le.mpr hlow
      have hle : c.val ≤ 'z'.val := UInt32.le_iff_toNat_le.mpr hhigh
      exact Bool.and_eq_true_iff.mpr ⟨decide_eq_true hge, decide_eq_true hle⟩
    rw [hlower, Bool.or_true, Bool.true_or]

theorem passes_readNumber {base max : Nat} {width : Option Nat} {zero : Bool} (hbase : base ≤ 36)
    (h : readNumber base width max zero s = some (n, r)) : Passes 0 s r := by
  have hr : r = s.dropWhile fun c => (Text.digitValue? base c).isSome := by
    unfold readNumber at h
    simp only at h
    split at h
    · cases h
    split at h
    · cases h
    split at h
    · split at h
      · cases h
        rfl
      · cases h
    · cases h
  have hdigits : ∀ c ∈ s.takeWhile fun c => (Text.digitValue? base c).isSome,
      c.isAlphanum = true := fun c hc =>
    isAlphanum_of_digitValue? hbase
      (List.mem_takeWhile_imp (p := fun c => (Text.digitValue? base c).isSome) hc)
  refine ⟨_, by rw [hr, List.takeWhile_append_dropWhile], fun c hc => ?_, ?_⟩
  · simp [isAddressChar, hdigits c hc]
  · rw [List.count_eq_zero_of_not_mem fun hmem => absurd (hdigits _ hmem) (by decide)]

theorem passes_skipChar (hc : isAddressChar c = true) (h : skipChar c s = some r) :
    Passes (if c = ':' then 1 else 0) s r := by
  cases s with
  | nil => cases h
  | cons d s =>
    rw [skipChar] at h
    split at h
    · rename_i hd
      cases h
      subst hd
      refine ⟨[c], rfl, by simpa using hc, ?_⟩
      rw [List.count_singleton]
      simp
    · cases h

theorem passes_skipSeparator {first : Bool} (hc : isAddressChar c = true)
    (h : skipSeparator c first s = some r) :
    Passes (if c = ':' then 1 - first.toNat else 0) s r := by
  cases first with
  | true =>
    cases h
    exact (Passes.refl s).mono (Nat.zero_le _)
  | false => exact passes_skipChar hc h

/-- **Version 4.** The text of octets has no colon. -/
theorem passes_readOctets {first : Bool} {octets : List Nat}
    (h : readOctets n first s = some (octets, r)) : Passes 0 s r ∧ octets.length = n := by
  induction n generalizing first s octets with
  | zero =>
    cases h
    exact ⟨.refl _, rfl⟩
  | succ n ih =>
    simp only [readOctets, Option.bind_eq_some_iff, Option.map_eq_some_iff, Prod.exists,
      Prod.mk.injEq] at h
    obtain ⟨t, hseparator, octet, u, hnumber, octets, r', hrest, rfl, rfl⟩ := h
    obtain ⟨hpasses, hlength⟩ := ih hrest
    have hdot := passes_skipSeparator (by decide) hseparator
    exact ⟨(hdot.trans (passes_readNumber (by decide) hnumber)).trans hpasses, by simp [hlength]⟩

/-- Groups have a colon between any two of them. -/
theorem passes_readGroups {limit : Nat} {first dotted : Bool} {gs : List Nat}
    (h : readGroups limit first s = (gs, dotted, r)) :
    Passes (gs.length - first.toNat) s r ∧ gs.length ≤ limit := by
  induction limit generalizing first s gs dotted with
  | zero =>
    cases h
    exact ⟨(Passes.refl _).mono (Nat.zero_le _), Nat.le_refl _⟩
  | succ limit ih =>
    have hfirst := Bool.toNat_le first
    unfold readGroups at h
    simp only at h
    split at h
    · rename_i octets t hdotted
      split at hdotted
      · cases hdotted
      · rename_i hlimit
        obtain ⟨u, hcolon, hoctets⟩ := Option.bind_eq_some_iff.mp hdotted
        obtain ⟨hpasses, hlength⟩ := passes_readOctets hoctets
        cases h
        have htwo : (groupsOf octets).length = 2 := by
          match octets, hlength with
          | [a, b, c, d], _ => rfl
        have hall := (passes_skipSeparator (by decide) hcolon).trans hpasses
        rw [htwo]
        exact ⟨hall.mono (by simp only [if_true]; omega), by omega⟩
    · split at h
      · rename_i g t hgroup
        obtain ⟨u, hcolon, hnumber⟩ := Option.bind_eq_some_iff.mp hgroup
        rcases hrest : readGroups limit false t with ⟨gs', dotted', r'⟩
        rw [hrest] at h
        cases h
        obtain ⟨hpasses, hlength⟩ := ih hrest
        have hall := ((passes_skipSeparator (by decide) hcolon).trans
          (passes_readNumber (by decide) hnumber)).trans hpasses
        refine ⟨hall.mono ?_, by simpa using hlength⟩
        simp only [if_true, Bool.toNat_false, List.length_cons]
        omega
      · cases h
        exact ⟨(Passes.refl _).mono (Nat.zero_le _), Nat.zero_le _⟩

/-- **Version 6.** The text of an address has no more colons than an authority may have. -/
theorem passes_readV6 {groups : List Nat} (h : readV6 s = some (groups, r)) :
    Passes Uri.maxColons s r := by
  unfold readV6 at h
  rcases hhead : readGroups 8 true s with ⟨head, dotted, t⟩
  rw [hhead] at h
  obtain ⟨hpasses, hlength⟩ := passes_readGroups hhead
  simp only [Bool.toNat_true] at h hpasses
  split at h
  · cases h
    exact hpasses.mono (by simp only [Uri.maxColons]; omega)
  · rename_i hshort
    split at h
    · cases h
    · simp only [Option.bind_eq_some_iff, Option.map_eq_some_iff, Prod.mk.injEq] at h
      obtain ⟨u, hcolon, w, hcolon', -, htail⟩ := h
      rcases hgroups : readGroups (7 - head.length) true w with ⟨tail, dotted', r'⟩
      obtain ⟨hpasses', hlength'⟩ := passes_readGroups hgroups
      rw [hgroups] at htail
      cases htail
      have hall := ((hpasses.trans (passes_skipChar (by decide) hcolon)).trans
        (passes_skipChar (by decide) hcolon')).trans hpasses'
      -- Two colons for what is left out, and less than the eight groups have on both sides.
      refine hall.mono ?_
      simp only [if_true, Bool.toNat_true, Uri.maxColons]
      omega

end Address

namespace Endpoint

open Uri (IsAuthority IsHost IsScheme Scan hostOf)

variable {s : String} {a h pre scheme : List Char} {port : Nat}

/-! ### Hosts -/

/-- Whether a text is a name: nothing in it means anything to an authority. -/
def IsName (h : List Char) : Prop :=
  h ≠ [] ∧ ∀ c ∈ h, Uri.isPlain c = true ∧ Uri.endsAuthority c = false

/-- The kinds of hosts: a name, an address of version 4, or one of version 6 in brackets. -/
inductive NamesHost : List Char → Prop where
  | name {h : List Char} (hname : IsName h) : NamesHost h
  | v4 {h : List Char} {octets : List Nat}
    (hread : Address.readOctets 4 true h = some (octets, [])) : NamesHost h
  | v6 {a : List Char} {groups : List Nat} (hread : Address.readV6 a = some (groups, [])) :
    NamesHost ('[' :: (a ++ [']']))

theorem isAddressChar_iff {c : Char} :
    Address.isAddressChar c = true ↔ c.isAlphanum = true ∨ c = '.' ∨ c = ':' := by
  simp [Address.isAddressChar, or_assoc]

theorem isFree_of_isAddressChar {c : Char} (hc : Address.isAddressChar c = true) :
    Uri.isFree c = true := by
  rcases isAddressChar_iff.mp hc with hc | rfl | rfl
  · simp [Uri.isFree, Uri.isPlain_of_isAlphanum hc]
  · rfl
  · rfl

theorem endsAuthority_of_isAddressChar {c : Char} (hc : Address.isAddressChar c = true) :
    Uri.endsAuthority c = false := by
  rcases isAddressChar_iff.mp hc with hc | rfl | rfl
  · exact Uri.endsAuthority_of_isAlphanum hc
  · rfl
  · rfl

/-- An address of version 4 is a name like any other. -/
theorem isName_of_readOctets {octets : List Nat}
    (hread : Address.readOctets 4 true h = some (octets, [])) : IsName h := by
  obtain ⟨⟨p, hp, hchars, hcount⟩, -⟩ := Address.passes_readOctets hread
  rw [List.append_nil] at hp
  subst hp
  refine ⟨?_, fun c hc => ⟨?_, endsAuthority_of_isAddressChar (hchars c hc)⟩⟩
  · rintro rfl
    cases hread
  · have hcolon : ':' ∉ h := List.count_eq_zero.mp (Nat.le_zero.mp hcount)
    rcases isAddressChar_iff.mp (hchars c hc) with hc | rfl | rfl
    · exact Uri.isPlain_of_isAlphanum hc
    · rfl
    · exact absurd hc hcolon

/-- A host that stands for itself in an authority, with or without a port. -/
structure StandsAlone (h : List Char) : Prop where
  isHost : IsHost h
  isAuthority : IsAuthority h
  isWhole : IsWhole h
  not_mem_at : '@' ∉ h

theorem IsName.standsAlone (hname : IsName h) : StandsAlone h := by
  obtain ⟨hne, hchars⟩ := hname
  have hnot : ∀ c, Uri.isPlain c = false → c ∉ h := fun c hc hmem => by
    rw [(hchars c hmem).1] at hc
    cases hc
  have hover : Scan.start.over h = some Scan.start :=
    Scan.over_plain (fun c hc => (hchars c hc).1) rfl
  exact
    { isHost := .bare hne (fun hhead => hnot '[' rfl (List.mem_of_mem_head? hhead)) (hnot ':' rfl)
      isAuthority := ⟨fun c hc => (hchars c hc).2, Scan.start, hover, rfl⟩
      isWhole := .inr ⟨hnot '[' rfl, hnot ']' rfl, hnot '%' rfl⟩
      not_mem_at := hnot '@' rfl }

/-- **Version 6.** The colons of an address are few enough for an authority, which forgets them at
    the closing bracket. -/
theorem standsAlone_of_readV6 {groups : List Nat} (hread : Address.readV6 a = some (groups, [])) :
    StandsAlone ('[' :: (a ++ [']'])) := by
  obtain ⟨p, hp, hchars, hcount⟩ := Address.passes_readV6 hread
  rw [List.append_nil] at hp
  subst hp
  have hnot : ∀ c, Address.isAddressChar c = false → c ∉ a := fun c hc hmem => by
    rw [hchars c hmem] at hc
    cases hc
  have hopening : Scan.start.Reads '[' { Scan.start with opened := true } := .opening rfl rfl
  have hinside := Scan.over_free (t := { Scan.start with opened := true })
    (fun c hc => isFree_of_isAddressChar (hchars c hc)) (by simpa [Scan.start] using hcount)
  have hover : Scan.start.over ('[' :: (a ++ [']'])) =
      some { Scan.start with opened := true, closed := true } := by
    rw [Scan.over_cons_of_reads hopening, Scan.over_append hinside,
      Scan.over_cons_of_reads (.closing rfl rfl)]
    rfl
  refine
    { isHost := .bracketed (hnot ']' rfl)
      isAuthority := ⟨fun c hc => ?_, _, hover, rfl⟩
      isWhole := .inl (by simp)
      not_mem_at := by simp [hnot '@' rfl] }
  rw [List.mem_cons, List.mem_append, List.mem_singleton] at hc
  rcases hc with rfl | hc | rfl
  · rfl
  · exact endsAuthority_of_isAddressChar (hchars c hc)
  · rfl

theorem NamesHost.standsAlone (hh : NamesHost h) : StandsAlone h := by
  cases hh with
  | name hname => exact hname.standsAlone
  | v4 hread => exact (isName_of_readOctets hread).standsAlone
  | v6 hread => exact standsAlone_of_readV6 hread

theorem StandsAlone.isAuthority_chars (hh : StandsAlone h) (port : Nat) :
    IsAuthority (chars h port) := by
  have hhost := hh.isHost.hostOf_eq hh.not_mem_at
  have ha := Endpoint.isAuthority_chars hh.isAuthority (by rw [hhost]; exact hh.isHost.ne_nil)
    (by rw [hhost]; exact hh.isWhole) port
  rwa [hhost] at ha

/-! ### Behind a scheme -/

/-- What may stand before a host: nothing, or a scheme with `://`. -/
inductive Introduces : List Char → Prop where
  | nothing : Introduces []
  | scheme {scheme : List Char} (hscheme : IsScheme scheme) : Introduces (scheme ++ "://".toList)

theorem namesScheme_append (s r : List Char) : namesScheme (s ++ "://".toList ++ r) = true := by
  induction s with
  | nil => rfl
  | cons c s ih =>
    rw [List.cons_append, List.cons_append]
    unfold namesScheme
    split
    · rfl
    · rename_i heq
      cases heq
      exact ih
    · rename_i heq
      cases heq

/-- A text without a slash stands for the same URI with and without a scheme. -/
theorem exists_uriText_eq (hpre : Introduces pre) {r : List Char} (hslash : '/' ∉ r) :
    ∃ scheme, IsScheme scheme ∧ uriText (pre ++ r) = scheme ++ "://".toList ++ r := by
  cases hpre with
  | nothing =>
    refine ⟨"http".toList, ⟨by decide, by decide⟩, ?_⟩
    rw [uriText, List.nil_append, namesScheme_eq_false hslash, if_neg Bool.false_ne_true]
    rfl
  | scheme hscheme =>
    refine ⟨_, hscheme, ?_⟩
    rw [uriText, namesScheme_append, if_pos rfl]

/-- **Literals.** A host of any kind with a port is read, behind a scheme or alone. -/
theorem parse_append_chars (hpre : Introduces pre) (hh : NamesHost h) (hport : port ≤ 65535)
    (hs : s.toList = pre ++ chars h port)
    (hlength : (String.ofList (uriText s.toList)).utf8ByteSize ≤ Uri.maxLength) :
    parse s = .ok ⟨String.ofList h, port⟩ := by
  have halone := hh.standsAlone
  obtain ⟨scheme, hscheme, huri⟩ :=
    exists_uriText_eq hpre (slash_not_mem_chars halone.isAuthority.1 port)
  rw [← hs] at huri
  exact parse_eq_ok hscheme huri hlength (halone.isAuthority_chars port) halone.isHost
    halone.not_mem_at hport

/-- **No host.** A port behind nothing is refused, whatever the port. -/
theorem parse_append_chars_nil (hpre : Introduces pre) (hs : s.toList = pre ++ chars [] port) :
    parse s = .error (.invalidEndpoint s) := by
  have hends : ∀ c ∈ ([] : List Char), Uri.endsAuthority c = false := by simp
  obtain ⟨scheme, hscheme, huri⟩ := exists_uriText_eq hpre (slash_not_mem_chars hends port)
  rw [← hs] at huri
  have ha : IsAuthority (chars [] port) := isAuthority_chars_of_over hends rfl rfl rfl rfl port
  have hnone : hostOf (chars [] port) = [] := by
    have hbehind : Uri.behind '@' (chars [] port) = ':' :: Text.numeral port :=
      Uri.behind_of_not_mem (by simp [chars, Text.not_mem_numeral])
    rw [Uri.hostOf_eq, hbehind, if_neg (by simp)]
    rfl
  by_cases hlength : (String.ofList (uriText s.toList)).utf8ByteSize ≤ Uri.maxLength
  · rw [huri] at hlength
    have hread := Uri.parse_append_authority hscheme ha (chars_ne_nil [] port) hlength
    rw [parse, huri, hread]
    simp [hnone]
  · rw [parse, Uri.parse, if_pos (Nat.lt_of_not_le hlength)]

end Endpoint

end TxLoad
