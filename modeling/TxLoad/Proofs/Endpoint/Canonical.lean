import TxLoad.Proofs.Endpoint.Authority
import TxLoad.Proofs.Text.Numeral

namespace TxLoad.Endpoint

/-!
# Texts of endpoints that are read again

The text of an endpoint is its host and its port, and is an address itself. An endpoint that was
read from an address is read again from its own text, provided that its host is *whole*: brackets
come in pairs, and a percent sign stands in brackets only. Every name and every address in brackets
is whole. What is not whole is left over where brackets stand in the middle of an authority, as in
`x[::1]:80`, whose host ends at the first colon; the text of such an endpoint is refused.

* `Endpoint.exists_authority_of_parse`: what is read is the host and the port of an authority.
* `Endpoint.isAuthority_text_iff`: which hosts with a port are authorities.
* `Endpoint.text_injective`: the text of an endpoint tells it apart.
* `Endpoint.canonical_of_parse`: what comes of reading the text of an endpoint that was read.
* `Endpoint.not_canonical_of_bracket`: a text that is not read again.
-/

open Uri (IsAuthority IsHost Scan hostOf portOf behind)

variable {s : String} {e : Endpoint} {a h : List Char} {port : Nat}

/-! ### Texts -/

/-- Brackets come in pairs, and a percent sign stands in brackets only. -/
def IsWhole (h : List Char) : Prop :=
  ('[' ∈ h ∧ ']' ∈ h) ∨ ('[' ∉ h ∧ ']' ∉ h ∧ '%' ∉ h)

/-- The characters of a host and a port. -/
def chars (h : List Char) (port : Nat) : List Char := h ++ ':' :: Text.numeral port

theorem chars_ne_nil (h : List Char) (port : Nat) : chars h port ≠ [] := by simp [chars]

theorem toList_text (e : Endpoint) : e.text.toList = chars e.host.toList e.port := by
  simp [text, chars, Text.decimal]

theorem isPlain_numeral (n : Nat) : ∀ c ∈ Text.numeral n, Uri.isPlain c = true :=
  fun c hc => Uri.isPlain_of_isAlphanum
    (by simp [Char.isAlphanum, Text.isDigit_of_mem_numeral n c hc])

theorem endsAuthority_of_mem_chars (hends : ∀ c ∈ h, Uri.endsAuthority c = false) (port : Nat) :
    ∀ c ∈ chars h port, Uri.endsAuthority c = false := by
  intro c hc
  rcases List.mem_append.mp hc with hc | hc
  · exact hends c hc
  · rcases List.mem_cons.mp hc with rfl | hc
    · rfl
    · exact Uri.endsAuthority_of_isAlphanum
        (by simp [Char.isAlphanum, Text.isDigit_of_mem_numeral port c hc])

theorem slash_not_mem_chars (hends : ∀ c ∈ h, Uri.endsAuthority c = false) (port : Nat) :
    '/' ∉ chars h port :=
  fun hmem => Bool.noConfusion (endsAuthority_of_mem_chars hends port _ hmem)

/-- **Injectivity.** Two endpoints with the same text are the same. -/
theorem text_injective : Function.Injective text := by
  intro e f h
  have hchars := congrArg String.toList h
  rw [toList_text, toList_text] at hchars
  have hcolon : ∀ n, ':' ∉ Text.numeral n := Text.not_mem_numeral (by decide)
  have hnumeral : Text.numeral e.port = Text.numeral f.port := by
    rw [← Uri.behind_append (hcolon e.port) e.host.toList]
    exact (congrArg (behind ':') hchars).trans (Uri.behind_append (hcolon f.port) f.host.toList)
  have hport : e.port = f.port := by
    have hread := Text.readDigits_numeral e.port
    rw [hnumeral, Text.readDigits_numeral] at hread
    exact (Option.some.inj hread).symm
  have hhost : e.host = f.host := by
    rw [chars, chars, hnumeral] at hchars
    exact String.toList_inj.mp (List.append_cancel_right hchars)
  cases e
  cases f
  simp_all

/-! ### The host of an authority -/

theorem bracketed_of_isHost (h : IsHost a) : bracketed a = a := by
  cases h with
  | bracketed => simp [bracketed]
  | bare hne hhead hcolon => simp [bracketed, hcolon]

/-- The scan of an authority at its host: nothing is marked before but the brackets of the user
    information, and no at sign follows. -/
inductive IsScanned (a : List Char) : Prop where
  | intro (user rest : List Char) (before after last : Scan)
    (hsplit : a = user ++ (hostOf a ++ rest)) (hcolons : before.colons = 0)
    (hpercent : before.percent = false) (hover : before.over (hostOf a) = some after)
    (hlast : after.over rest = some last) (hat : '@' ∉ hostOf a) (hat' : '@' ∉ rest)
    (haccepts : last.accepts = true)

theorem isScanned (ha : IsAuthority a) (hne : hostOf a ≠ []) : IsScanned a := by
  obtain ⟨-, rest, hrest⟩ := Uri.isHost_hostOf ha hne
  obtain ⟨-, last, hover, haccepts⟩ := ha
  obtain ⟨user, hsplit, huser, hat⟩ := Uri.exists_append_behind '@' a
  rw [hrest] at hsplit hat
  rw [hsplit] at hover
  obtain ⟨before, hbefore, hover⟩ := Scan.exists_of_over_append hover
  obtain ⟨after, hafter, hlast⟩ := Scan.exists_of_over_append hover
  rw [List.mem_append, not_or] at hat
  have hclean : before.colons = 0 ∧ before.percent = false := by
    rcases huser with rfl | ⟨v, rfl⟩
    · cases hbefore
      exact ⟨rfl, rfl⟩
    · exact Scan.forgets hbefore
  exact ⟨user, rest, before, after, last, hsplit, hclean.1, hclean.2, hafter, hlast, hat.1, hat.2,
    haccepts⟩

/-- A host that can be scanned on its own goes together with any port. -/
theorem isAuthority_chars_of_over {t : Scan} (hends : ∀ c ∈ h, Uri.endsAuthority c = false)
    (hover : Scan.start.over h = some t) (hcolons : t.colons = 0) (hpercent : t.percent = false)
    (hbrackets : t.opened = t.closed) (port : Nat) : IsAuthority (chars h port) := by
  have hcolon : t.Reads ':' { t with colons := t.colons + 1, atSign := false } :=
    .colon (by rw [hcolons]; decide)
  refine ⟨endsAuthority_of_mem_chars hends port,
    { t with colons := t.colons + 1, atSign := false }, ?_, ?_⟩
  · rw [chars, Scan.over_append hover, Scan.over_cons_of_reads hcolon,
      Scan.over_plain (isPlain_numeral port) rfl]
  · simp [Scan.accepts, hcolons, hpercent, hbrackets]

/-- A whole host goes together with any port. -/
theorem isAuthority_chars (ha : IsAuthority a) (hne : hostOf a ≠ []) (hwhole : IsWhole (hostOf a))
    (port : Nat) : IsAuthority (chars (hostOf a) port) := by
  have hhost := (Uri.isHost_hostOf ha hne).1
  obtain ⟨user, rest, before, after, last, hsplit, hzero, hno, hover, hlast, hat, hat',
    haccepts⟩ := isScanned ha hne
  have hends : ∀ c ∈ hostOf a, Uri.endsAuthority c = false := by
    intro c hc
    refine ha.1 c ?_
    rw [hsplit]
    simp [hc]
  have hmarks := Scan.marks_of_over hover
  rcases hwhole with ⟨hopening, hclosing⟩ | ⟨hopening, hclosing, hpercent⟩
  · -- No bracket was opened before, so that the scan of the host alone comes to the same marks.
    have hopened := hmarks.not_opened hopening
    have hclosed := hmarks.not_closed hclosing
    have hbefore := Scan.start_setAtSign hzero hopened hclosed hno
    have halone : Scan.start.over (hostOf a) = some after := by
      rw [← Scan.over_setAtSign before.atSign hne, hbefore, hover]
    have hboth : after.opened = true ∧ after.closed = true :=
      ⟨hmarks.opened_iff.mpr (.inr hopening), hmarks.closed_iff.mpr (.inr hclosing)⟩
    refine isAuthority_chars_of_over hends halone ?_ ?_ (hboth.1.trans hboth.2.symm) port
    · generalize hostOf a = h at hhost hover
      cases hhost with
      | @bracketed s _ =>
        rw [← List.cons_append] at hover
        obtain ⟨u, -, hover⟩ := Scan.exists_of_over_append hover
        obtain ⟨w, hw, hover⟩ := Scan.exists_of_over_cons hover
        cases hover
        cases hw with
        | closing => rfl
        | plain hplain => exact absurd hplain (by decide)
      | bare _ _ hcolon => exact Scan.colons_of_over hcolon hzero hover
    · -- A percent sign that is left over would stay to the end.
      by_contra hleft
      have hclosing' : ']' ∉ rest := fun hmem => by
        simpa [hboth.2] using (Scan.marks_of_over hlast).not_closed hmem
      have hstays := Scan.percent_of_over hat' hclosing' (.inl (by simpa using hleft)) hlast
      simp [Scan.accepts, hstays] at haccepts
  · have hcolon : ':' ∉ hostOf a := by
      generalize hostOf a = h at hhost hopening
      cases hhost with
      | bracketed => simp at hopening
      | bare _ _ hcolon => exact hcolon
    have hplain : ∀ c ∈ hostOf a, Uri.isPlain c = true := by
      intro c hc
      have huri := (Scan.isUriChar_of_over hover c hc).resolve_right fun heq =>
        hpercent (heq ▸ hc)
      exact Uri.isPlain_iff.mpr ⟨huri, fun heq => hcolon (heq ▸ hc), fun heq => hopening (heq ▸ hc),
        fun heq => hclosing (heq ▸ hc), fun heq => hat (heq ▸ hc)⟩
    exact isAuthority_chars_of_over hends (Scan.over_plain hplain rfl) rfl rfl rfl port

/-- A host that goes together with a port is whole. -/
theorem isWhole_of_isAuthority (hhost : IsHost h) (hat : '@' ∉ h)
    (ha : IsAuthority (chars h port)) : IsWhole h := by
  obtain ⟨-, t, hover, haccepts⟩ := ha
  have hmarks := Scan.marks_of_over hover
  have hnumeral : ∀ c, Char.isDigit c = false → c ≠ ':' → (c ∈ chars h port ↔ c ∈ h) := by
    intro c hdigit hcolon
    simp [chars, Text.not_mem_numeral hdigit, hcolon]
  have hpaired : '[' ∈ h ↔ ']' ∈ h := by
    have hsame : t.opened = t.closed := by
      simp only [Scan.accepts, Bool.and_eq_true, beq_iff_eq] at haccepts
      exact haccepts.1.1.1
    have hopened := hmarks.opened_iff
    have hclosed := hmarks.closed_iff
    rw [hnumeral _ (by decide) (by decide)] at hopened hclosed
    rw [hsame] at hopened
    simpa [Scan.start] using hopened.symm.trans hclosed
  by_cases hopening : '[' ∈ h
  · exact .inl ⟨hopening, hpaired.mp hopening⟩
  · have hclosing := mt hpaired.mpr hopening
    refine .inr ⟨hopening, hclosing, fun hpercent => ?_⟩
    have hcolon : ':' ∉ h := by
      cases hhost with
      | bracketed => simp at hopening
      | bare _ _ hcolon => exact hcolon
    have hfree : ∀ c ∈ chars h port, Uri.isFree c = true := by
      intro c hc
      rcases List.mem_append.mp hc with hmem | hmem
      · have huri := Scan.isUriChar_of_over hover c hc
        rcases huri with huri | rfl
        · have hplain := Uri.isPlain_iff.mpr ⟨huri, fun heq => hcolon (heq ▸ hmem),
            fun heq => hopening (heq ▸ hmem), fun heq => hclosing (heq ▸ hmem),
            fun heq => hat (heq ▸ hmem)⟩
          simp [Uri.isFree, hplain]
        · rfl
      · rcases List.mem_cons.mp hmem with rfl | hmem
        · rfl
        · simp [Uri.isFree, isPlain_numeral port c hmem]
    have hcount : (chars h port).count ':' = 1 := by
      have hnot := Text.not_mem_numeral (c := ':') (by decide) port
      rw [chars, List.count_append, List.count_cons_self, List.count_eq_zero_of_not_mem hcolon,
        List.count_eq_zero_of_not_mem hnot]
    rw [Scan.over_free hfree (by rw [hcount]; decide)] at hover
    cases hover
    have hmem : '%' ∈ chars h port := (hnumeral _ (by decide) (by decide)).mpr hpercent
    simp [Scan.accepts, hmem] at haccepts

/-- **Hosts with a port.** The host of an authority makes one with a port exactly if it is whole. -/
theorem isAuthority_chars_iff (ha : IsAuthority a) (hne : hostOf a ≠ []) (port : Nat) :
    IsAuthority (chars (hostOf a) port) ↔ IsWhole (hostOf a) := by
  refine ⟨fun h => ?_, fun h => isAuthority_chars ha hne h port⟩
  obtain ⟨_, _, _, _, _, _, _, _, _, _, hat, -⟩ := isScanned ha hne
  exact isWhole_of_isAuthority (Uri.isHost_hostOf ha hne).1 hat h

/-! ### Reading -/

theorem namesScheme_eq_false {s : List Char} (h : '/' ∉ s) : namesScheme s = false := by
  fun_induction namesScheme s with
  | case1 r => simp at h
  | case2 c r _ ih => exact ih fun hmem => h (List.mem_cons_of_mem c hmem)
  | case3 => rfl

/-- What is read is made of the host and the port of an authority in the text. -/
theorem exists_authority_of_parse (h : parse s = .ok e) :
    ∃ a, IsAuthority a ∧ hostOf a ≠ [] ∧ a ⊆ uriText s.toList ∧
      e = of (String.ofList (hostOf a)) ((portOf a).getD defaultPort) := by
  unfold parse at h
  split at h
  · rename_i a hparse
    simp only at h
    split at h
    · cases h
    · rename_i hne
      cases h
      obtain ⟨ha, hsub⟩ := Uri.isAuthority_of_parse hparse
      exact ⟨a, ha, by simpa using hne, hsub, rfl⟩
  · cases h

theorem portOf_le {p : Nat} (h : portOf a = some p) : p ≤ 65535 := by
  unfold portOf Text.readNumeral at h
  simp only at h
  split at h
  · split at h
    · split at h
      · cases h
        assumption
      · cases h
    · cases h
  · cases h

/-- The host of an endpoint that was read: one that stands in an authority, up to what brackets it
    is given. -/
theorem host_of (ha : IsAuthority a) (hne : hostOf a ≠ []) (port : Nat) :
    (of (String.ofList (hostOf a)) port).host.toList = hostOf a := by
  simp [of, bracketed_of_isHost (Uri.isHost_hostOf ha hne).1]

/-- The text of an endpoint is read as that of a host and a port without a scheme. -/
theorem uriText_text (hends : ∀ c ∈ e.host.toList, Uri.endsAuthority c = false) :
    uriText e.text.toList = "http".toList ++ "://".toList ++ chars e.host.toList e.port := by
  have hslash : '/' ∉ e.text.toList := by
    rw [toList_text]
    exact slash_not_mem_chars hends e.port
  rw [uriText, namesScheme_eq_false hslash, if_neg Bool.false_ne_true, toList_text]
  rfl

/-- **Hosts with a port.** What stands for a scheme with a host and a port is read as those. -/
theorem parse_eq_ok {scheme : List Char} (hscheme : Uri.IsScheme scheme)
    (huri : uriText s.toList = scheme ++ "://".toList ++ chars h port)
    (hlength : (String.ofList (uriText s.toList)).utf8ByteSize ≤ Uri.maxLength)
    (ha : IsAuthority (chars h port)) (hhost : IsHost h) (hat : '@' ∉ h) (hport : port ≤ 65535) :
    parse s = .ok ⟨String.ofList h, port⟩ := by
  have hread : Uri.parse (uriText s.toList) = some (chars h port) := by
    rw [huri] at hlength ⊢
    exact Uri.parse_append_authority hscheme ha (chars_ne_nil h port) hlength
  have hhostOf : hostOf (chars h port) = h :=
    Uri.hostOf_append hhost hat (Text.not_mem_numeral (by decide) _)
  have hportOf : portOf (chars h port) = some port := by
    rw [chars, Uri.portOf_append (Text.not_mem_numeral (by decide) _),
      Text.readNumeral_numeral hport]
  have hne : h.isEmpty = false := by simpa using hhost.ne_nil
  rw [parse, hread]
  simp [hhostOf, hportOf, hne, of, bracketed_of_isHost hhost]

theorem parse_text_eq_error (hends : ∀ c ∈ e.host.toList, Uri.endsAuthority c = false)
    (ha : ¬ IsAuthority (chars e.host.toList e.port)) :
    parse e.text = .error (.invalidEndpoint e.text) := by
  have hnone : Uri.parse (uriText e.text.toList) = none := by
    rw [uriText_text hends]
    by_cases hbytes : (String.ofList ("http".toList ++ "://".toList ++
        chars e.host.toList e.port)).utf8ByteSize ≤ Uri.maxLength
    · rw [Uri.parse_append ⟨by decide, by decide⟩ _ hbytes,
        Uri.splitAuthority_eq_none (endsAuthority_of_mem_chars hends e.port) ha]
    · rw [Uri.parse, if_pos (Nat.lt_of_not_le hbytes)]
  rw [parse, hnone]

/-! ### The main result -/

/-- How the text of an endpoint `e` is read again that was read from the text `s`. -/
structure IsCanonical (s : String) (e : Endpoint) : Prop where
  of_eq : of e.host e.port = e
  /-- It is read as the endpoint itself, exactly if the host is whole. -/
  parse_iff : parse e.text = .ok e ↔ IsWhole e.host.toList
  /-- Otherwise it is refused. -/
  refused : ¬ IsWhole e.host.toList → parse e.text = .error (.invalidEndpoint e.text)
  /-- What was read from a text without brackets is whole. -/
  whole_of_not_mem : '[' ∉ s.toList → IsWhole e.host.toList
  /-- What is in brackets is whole. -/
  whole_of_head : e.host.toList.head? = some '[' → IsWhole e.host.toList
  /-- No other endpoint has the same text. -/
  unique : ∀ f : Endpoint, f.text = e.text → f = e

/-- A bare address with colons, such as any of version 6, and the same address in brackets make the
    same endpoint. -/
theorem of_brackets {a : String} (hcolon : ':' ∈ a.toList) (hhead : a.toList.head? ≠ some '[')
    (port : Nat) : of a port = of ("[" ++ a ++ "]") port := by
  simp [of, bracketed, hcolon, hhead]

/-- The host of an authority without brackets is whole. -/
theorem isWhole_of_not_mem (ha : IsAuthority a) (hne : hostOf a ≠ []) (hopening : '[' ∉ a) :
    IsWhole (hostOf a) := by
  obtain ⟨user, rest, before, after, last, hsplit, -, -, hover, hlast, hat, hat', haccepts⟩ :=
    isScanned ha hne
  -- No bracket is closed that was not opened.
  have hclosing : ']' ∉ a := by
    obtain ⟨-, t, hscan, -⟩ := ha
    have hmarks := Scan.marks_of_over hscan
    intro hmem
    have hopened := hmarks.opened_of_closed nofun (hmarks.closed_iff.mpr (.inr hmem))
    exact hopening ((hmarks.opened_iff.mp hopened).resolve_left nofun)
  rw [hsplit] at hopening hclosing
  simp only [List.mem_append, not_or] at hopening hclosing
  refine .inr ⟨hopening.2.1, hclosing.2.1, fun hpercent => ?_⟩
  have hmarked := Scan.percent_of_over hat hclosing.2.1 (.inr hpercent) hover
  have hstays := Scan.percent_of_over hat' hclosing.2.2 (.inl hmarked) hlast
  simp [Scan.accepts, hstays] at haccepts

/-- A host that starts with a bracket ends with one. -/
theorem isWhole_of_head (hhost : IsHost h) (hhead : h.head? = some '[') : IsWhole h := by
  cases hhost with
  | bracketed => exact .inl (by simp)
  | bare _ hnot => exact absurd hhead hnot

/-- **Canonical texts.** What was read from a text is read again from its own text, exactly if its
    host is whole. -/
theorem canonical_of_parse (h : parse s = .ok e)
    (hlength : ("http://" ++ e.text).utf8ByteSize ≤ Uri.maxLength) :
    IsCanonical s e ∧ ∀ (a : String) (port : Nat), ':' ∈ a.toList → a.toList.head? ≠ some '[' →
      of a port = of ("[" ++ a ++ "]") port := by
  refine ⟨?_, fun a port hcolon hhead => of_brackets hcolon hhead port⟩
  obtain ⟨a, ha, hne, hsub, heq⟩ := exists_authority_of_parse h
  have hhostOf : e.host.toList = hostOf a := heq ▸ host_of ha hne _
  have hhost : IsHost e.host.toList := hhostOf ▸ (Uri.isHost_hostOf ha hne).1
  have hiff := isAuthority_chars_iff ha hne e.port
  rw [← hhostOf] at hiff
  have hport : e.port ≤ 65535 := by
    cases hport : portOf a with
    | none => simp [heq, of, hport, defaultPort]
    | some p => simpa [heq, of, hport] using portOf_le hport
  obtain ⟨user, rest, -, -, -, hsplit, -, -, -, -, hat, -⟩ := isScanned ha hne
  rw [← hhostOf] at hsplit hat
  have hends : ∀ c ∈ e.host.toList, Uri.endsAuthority c = false := fun c hc =>
    ha.1 c (by rw [hsplit]; simp [hc])
  have hread : IsWhole e.host.toList → parse e.text = .ok e := by
    intro hwhole
    have huri := uriText_text hends
    have hlength' : (String.ofList (uriText e.text.toList)).utf8ByteSize ≤ Uri.maxLength := by
      rwa [huri, ← toList_text, show "http".toList ++ "://".toList = "http://".toList from rfl,
        ← String.toList_append, String.ofList_toList]
    have hok := parse_eq_ok ⟨by decide, by decide⟩ huri hlength' (hiff.mpr hwhole) hhost hat hport
    rwa [String.ofList_toList] at hok
  have hrefused : ¬ IsWhole e.host.toList → parse e.text = .error (.invalidEndpoint e.text) :=
    fun hwhole => parse_text_eq_error hends (mt hiff.mp hwhole)
  refine
    { of_eq := ?_
      parse_iff := ⟨fun hok => ?_, hread⟩
      refused := hrefused
      whole_of_not_mem := fun hopening => ?_
      whole_of_head := isWhole_of_head hhost
      unique := fun f hf => text_injective hf }
  · simp [of, bracketed_of_isHost hhost]
  · by_contra hwhole
    rw [hrefused hwhole] at hok
    cases hok
  · rw [hhostOf]
    refine isWhole_of_not_mem ha hne fun hmem => ?_
    have hmem := hsub hmem
    unfold uriText at hmem
    split at hmem
    · exact hopening hmem
    · simp [hopening] at hmem

/-- An address in brackets behind a scheme and user information, with a port and a path. -/
theorem canonical_of_parse_url :
    parse "ws://u:p@[fe80::1%eth0]:81/x?y=[z]" = .ok ⟨"[fe80::1%eth0]", 81⟩ ∧
      parse "[fe80::1%eth0]:81" = .ok ⟨"[fe80::1%eth0]", 81⟩ := by
  have hparse : parse "ws://u:p@[fe80::1%eth0]:81/x?y=[z]" = .ok ⟨"[fe80::1%eth0]", 81⟩ := by
    decide +kernel
  have htext : text ⟨"[fe80::1%eth0]", 81⟩ = "[fe80::1%eth0]:81" := by decide +kernel
  obtain ⟨hcanonical, -⟩ := canonical_of_parse hparse (by decide +kernel)
  have hread := hcanonical.parse_iff.mpr (hcanonical.whole_of_head (by decide +kernel))
  exact ⟨hparse, htext ▸ hread⟩

/-- A host that ends in the middle of brackets is not read again, though an endpoint is made of
    it. -/
theorem not_canonical_of_bracket :
    parse "x[::1]:80" = .ok ⟨"x[", 80⟩ ∧
      ("http://" ++ text ⟨"x[", 80⟩).utf8ByteSize ≤ Uri.maxLength ∧
      parse (text ⟨"x[", 80⟩) = .error (.invalidEndpoint "x[:80") := by
  decide +kernel

end TxLoad.Endpoint
