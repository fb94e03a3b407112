import TxLoad.Rpc.Broadcast
import TxLoad.Proofs.Json.RoundTrip
import TxLoad.Proofs.Rpc.Legible

namespace TxLoad.Rpc

/-!
# Which bodies accept a transaction

A body accepts a transaction if it is JSON, carries no error, has a result, and none of the
verdicts in the result has a code other than zero. What is looked at is narrower than the words
say: a code counts only if it is a word, and null in place of an execution hides the execution
that is given by its newer name.

* `Rpc.Accepts`: the rule, for any notion of what is missing and of which codes count.
* `Rpc.judges_checkBody`: what is accepted and what is refused, for every body.
* `Rpc.judge_eq_ok_iff`: the same of whole replies.
* `Rpc.checkBody_ofCode`: a single code of any sign and size.
* `Rpc.checkBody_hidden`: a failed execution behind a null.
-/

open Json (Spells skipSpace ofInt)

variable {mode : BroadcastMode} {body : List UInt8} {v result verdict : Json}

/-! ### The rule -/

/-- A body is JSON: the UTF-8 bytes of a text that spells a value and nothing else, where every
    piece has a value and nesting stays within its bound. -/
def IsJson (body : List UInt8) (v : Json) : Prop :=
  (∃ text r, body = Message.utf8 text ∧ Spells text.toList (.value v) r ∧ skipSpace r = []) ∧
    v.isAdmissible = true

/-- A member that is not there. -/
def IsAbsent (member : Option Json) : Prop := member = none

/-- A member that is not there, or is there as null. -/
def IsVoid (member : Option Json) : Prop := member = none ∨ member = some .null

/-- The verdicts that a result passes on a transaction: itself, or for a commit those on the check
    and on the execution, whose newer name stands in where the older one is missing. -/
inductive IsVerdict (missing : Option Json → Prop) (result : Json) : BroadcastMode → Json → Prop
  | whole {mode : BroadcastMode} (h : mode ≠ .commit) : IsVerdict missing result mode result
  | check {verdict : Json} (h : result.member? "check_tx" = some verdict) :
    IsVerdict missing result .commit verdict
  | execution {verdict : Json} (h : result.member? "deliver_tx" = some verdict) :
    IsVerdict missing result .commit verdict
  | newer {verdict : Json} (hmissing : missing (result.member? "deliver_tx"))
    (h : result.member? "tx_result" = some verdict) : IsVerdict missing result .commit verdict

/-- A body accepts a transaction. `missing` says which members are missing, `counts` which
    integers are looked at as codes. -/
def Accepts (missing : Option Json → Prop) (counts : Int → Prop) (mode : BroadcastMode)
    (body : List UInt8) : Prop :=
  ∃ v result, IsJson body v ∧ IsVoid (v.member? "error") ∧ v.member? "result" = some result ∧
    ∀ verdict i, IsVerdict missing result mode verdict → counts i →
      verdict.member? "code" = some (ofInt i) → i = 0

/-- The integers that fit into a word. -/
def FitsWord (i : Int) : Prop := 0 ≤ i ∧ i < 2 ^ 64

/-- Whoever looks at more accepts less. -/
theorem Accepts.mono {missing missing' : Option Json → Prop} {counts counts' : Int → Prop}
    (h : Accepts missing counts mode body) (hmissing : ∀ m, missing' m → missing m)
    (hcounts : ∀ i, counts' i → counts i) : Accepts missing' counts' mode body := by
  obtain ⟨v, result, hjson, herror, hresult, hcodes⟩ := h
  refine ⟨v, result, hjson, herror, hresult, fun verdict i hverdict hi => ?_⟩
  refine hcodes verdict i ?_ (hcounts i hi)
  -- Only the newer name depends on what is missing.
  cases hverdict with
  | whole h => exact .whole h
  | check h => exact .check h
  | execution h => exact .execution h
  | newer hm h => exact .newer (hmissing _ hm) h

/-! ### What is looked at -/

theorem isJson_iff : IsJson body v ↔ valueOf? body = some v ∧ v.isAdmissible = true := by
  refine and_congr_left fun hv => (valueOf?_eq_some_iff ?_).symm
  exact (Bool.and_eq_true_iff.mp hv).1

theorem IsJson.unique {w : Json} (h : IsJson body v) (h' : IsJson body w) : v = w :=
  Option.some.inj ((isJson_iff.mp h).1.symm.trans (isJson_iff.mp h').1)

theorem errorOf?_eq_none_iff : errorOf? v = none ↔ IsVoid (v.member? "error") := by
  unfold errorOf? IsVoid
  split
  · rename_i h
    simp [h]
  · rename_i h
    exact (or_iff_left h).symm

theorem mem_verdicts_iff :
    verdict ∈ verdicts mode result ↔ IsVerdict IsAbsent result mode verdict := by
  cases mode with
  | async | sync =>
    refine List.mem_singleton.trans ⟨?_, fun h => ?_⟩
    · rintro rfl
      exact .whole (by decide)
    · cases h
      rfl
  | commit =>
    simp only [verdicts, List.mem_append, Option.mem_toList]
    constructor
    · rintro (h | h)
      · exact .check h
      · cases hold : result.member? "deliver_tx" with
        | none => exact .newer hold (by simpa [hold] using h)
        | some old => exact .execution (by simpa [hold] using h)
    · rintro (⟨hmode⟩ | h | h | ⟨habsent, h⟩)
      · exact absurd rfl hmode
      · exact .inl h
      · exact .inr (by simp [h])
      · exact .inr (by simpa [show result.member? "deliver_tx" = none from habsent] using h)

theorem codeOf_of_member {i : Int} (h : verdict.member? "code" = some (ofInt i)) :
    codeOf verdict = if 0 ≤ i ∧ i < 2 ^ 64 then i.natAbs else 0 := by
  rw [codeOf, h, Option.bind_some, Json.word?_ofInt]
  split
  · have hlt : i.natAbs < 2 ^ 64 := by omega
    rw [Option.map_some, Option.getD_some, UInt64.toNat_ofNat', Nat.mod_eq_of_lt hlt]
  · rfl

/-- **Codes.** A verdict is refused exactly for a positive integer that fits into a word. -/
theorem codeOf_ne_zero_iff : codeOf verdict ≠ 0 ↔
    ∃ i, FitsWord i ∧ verdict.member? "code" = some (ofInt i) ∧ i ≠ 0 := by
  constructor
  · intro h
    unfold codeOf at h
    cases hcode : verdict.member? "code" with
    | none => simp [hcode] at h
    | some code =>
      cases code with
      | number n =>
        cases n with
        | word n =>
          have hn : n.toNat ≠ 0 := by simpa [hcode, Json.word?] using h
          have hlt := n.toNat_lt
          exact ⟨n.toNat, ⟨by omega, by omega⟩, by rw [Json.ofInt_toNat], by omega⟩
        | _ => simp [hcode, Json.word?] at h
      | _ => simp [hcode, Json.word?] at h
  · rintro ⟨i, ⟨hpos, hlt⟩, hcode, hne⟩
    rw [codeOf_of_member hcode, if_pos ⟨hpos, hlt⟩]
    omega

/-! ### What comes of it -/

theorem checkVerdict_of_eq_zero (h : codeOf verdict = 0) : checkVerdict verdict = .ok () := if_pos h

theorem checkVerdict_of_ne_zero (h : codeOf verdict ≠ 0) : checkVerdict verdict =
    .error (.rpc s!"code {codeOf verdict}: {logOf verdict}") := if_neg h

/-- The first verdict with a code decides. -/
theorem forM_checkVerdict (l : List Json) : l.forM checkVerdict =
    match l.find? (codeOf · ≠ 0) with
    | some verdict => .error (.rpc s!"code {codeOf verdict}: {logOf verdict}")
    | none => .ok () := by
  induction l with
  | nil => rfl
  | cons verdict l ih =>
    show (checkVerdict verdict >>= fun _ => l.forM checkVerdict) = _
    by_cases h : codeOf verdict = 0
    · rw [checkVerdict_of_eq_zero h, List.find?_cons_of_neg (by simpa using h), ← ih]
      rfl
    · rw [checkVerdict_of_ne_zero h, List.find?_cons_of_pos (by simpa using h)]
      rfl

theorem forM_checkVerdict_eq_ok_iff {l : List Json} :
    l.forM checkVerdict = .ok () ↔ ∀ verdict ∈ l, codeOf verdict = 0 := by
  rw [forM_checkVerdict]
  cases hfind : l.find? (codeOf · ≠ 0) with
  | none => simpa using List.find?_eq_none.mp hfind
  | some verdict =>
    have hne : codeOf verdict ≠ 0 := by simpa using List.find?_some hfind
    exact ⟨(nomatch ·), fun h => absurd (h verdict (List.mem_of_find?_eq_some hfind)) hne⟩

theorem exists_rpc_of_mem {l : List Json} (hmem : verdict ∈ l) (hne : codeOf verdict ≠ 0) :
    ∃ text, l.forM checkVerdict = .error (.rpc text) := by
  rw [forM_checkVerdict]
  cases hfind : l.find? (codeOf · ≠ 0) with
  | none => exact absurd (List.find?_eq_none.mp hfind verdict hmem) (by simpa using hne)
  | some first => exact ⟨_, rfl⟩

/-- A JSON body with a result and without an error is judged by its verdicts. -/
theorem checkBody_of_isJson (hjson : IsJson body v) (herror : IsVoid (v.member? "error"))
    (hresult : v.member? "result" = some result) :
    checkBody mode body = (verdicts mode result).forM checkVerdict := by
  obtain ⟨hvalue, hv⟩ := isJson_iff.mp hjson
  simp only [checkBody, hvalue, hv, if_true, checkValue, errorOf?_eq_none_iff.mpr herror, hresult]

/-- An accepted body is JSON with a result and without an error. -/
theorem exists_of_checkBody (h : checkBody mode body = .ok ()) :
    ∃ v result, IsJson body v ∧ IsVoid (v.member? "error") ∧ v.member? "result" = some result := by
  unfold checkBody at h
  split at h
  · rename_i v hvalue
    split at h
    · rename_i hv
      unfold checkValue at h
      split at h
      · cases h
      · rename_i herror
        split at h
        · cases h
        · rename_i result hresult
          exact ⟨v, result, isJson_iff.mpr ⟨hvalue, hv⟩, errorOf?_eq_none_iff.mp herror, hresult⟩
    · cases h
  · cases h

theorem exists_rpc_of_error (hjson : IsJson body v) (herror : ¬ IsVoid (v.member? "error")) :
    ∃ text, checkBody mode body = .error (.rpc text) := by
  obtain ⟨hvalue, hv⟩ := isJson_iff.mp hjson
  simp only [checkBody, hvalue, hv, if_true, checkValue]
  cases hsome : errorOf? v with
  | none => exact absurd (errorOf?_eq_none_iff.mp hsome) herror
  | some error => exact ⟨_, rfl⟩

theorem checkBody_eq_ok_iff :
    checkBody mode body = .ok () ↔ Accepts IsAbsent FitsWord mode body := by
  have hcodes : ∀ result, (verdicts mode result).forM checkVerdict = .ok () ↔
      ∀ verdict i, IsVerdict IsAbsent result mode verdict → FitsWord i →
        verdict.member? "code" = some (ofInt i) → i = 0 := by
    intro result
    rw [forM_checkVerdict_eq_ok_iff]
    constructor
    · intro h verdict i hverdict hi hcode
      by_contra hne
      exact codeOf_ne_zero_iff.mpr ⟨i, hi, hcode, hne⟩ (h verdict (mem_verdicts_iff.mpr hverdict))
    · intro h verdict hmem
      by_contra hne
      obtain ⟨i, hi, hcode, hne⟩ := codeOf_ne_zero_iff.mp hne
      exact hne (h verdict i (mem_verdicts_iff.mp hmem) hi hcode)
  constructor
  · intro h
    obtain ⟨v, result, hjson, herror, hresult⟩ := exists_of_checkBody h
    rw [checkBody_of_isJson hjson herror hresult] at h
    exact ⟨v, result, hjson, herror, hresult, (hcodes result).mp h⟩
  · rintro ⟨v, result, hjson, herror, hresult, h⟩
    rw [checkBody_of_isJson hjson herror hresult]
    exact (hcodes result).mpr h

theorem exists_rpc_of_code {i : Int} (hjson : IsJson body v)
    (hresult : v.member? "result" = some result)
    (hverdict : IsVerdict IsAbsent result mode verdict) (hi : FitsWord i)
    (hcode : verdict.member? "code" = some (ofInt i)) (hne : i ≠ 0) :
    ∃ text, checkBody mode body = .error (.rpc text) := by
  -- An error is reported before the result is looked at, but in the same way.
  by_cases herror : IsVoid (v.member? "error")
  · rw [checkBody_of_isJson hjson herror hresult]
    exact exists_rpc_of_mem (mem_verdicts_iff.mpr hverdict)
      (codeOf_ne_zero_iff.mpr ⟨i, hi, hcode, hne⟩)
  · exact exists_rpc_of_error hjson herror

/-- How a body is judged. -/
structure Judges (mode : BroadcastMode) (body : List UInt8) : Prop where
  /-- Exactly the codes that fit into a word are looked at, and null is not missing. -/
  accepts : checkBody mode body = .ok () ↔ Accepts IsAbsent FitsWord mode body
  /-- A code that is looked at makes the request fail with the endpoint's refusal. -/
  refuses : ∀ v result verdict i, IsJson body v → v.member? "result" = some result →
    IsVerdict IsAbsent result mode verdict → FitsWord i →
    verdict.member? "code" = some (ofInt i) → i ≠ 0 →
      ∃ text, checkBody mode body = .error (.rpc text)
  /-- Looking at every integer, and at the newer name behind a null, accepts nothing else. -/
  lenient : Accepts IsVoid (fun _ => True) mode body → checkBody mode body = .ok ()

/-- **Judgement.** Every body is judged so, whatever its bytes. -/
theorem judges_checkBody (mode : BroadcastMode) (body : List UInt8) : Judges mode body where
  accepts := checkBody_eq_ok_iff
  refuses _ _ _ _ hjson hresult hverdict hi hcode hne :=
    exists_rpc_of_code hjson hresult hverdict hi hcode hne
  lenient h := checkBody_eq_ok_iff.mpr (h.mono (fun _ => .inl) fun _ _ => trivial)

/-- **Replies.** Where a verdict is waited for, a transaction counts as accepted only on a reply of
    success with such a body. -/
theorem judge_eq_ok_iff {reply : Reply} (hmode : mode ≠ .async) : judge mode reply = .ok () ↔
    (200 ≤ reply.status ∧ reply.status < 300) ∧ reply.status ≠ noContent ∧
      Accepts IsAbsent FitsWord mode reply.body := by
  have hjudge : judge mode reply = (bodyOf reply).bind (checkBody mode) := by
    cases mode with
    | async => exact absurd rfl hmode
    | sync | commit => rfl
  rw [hjudge, bodyOf]
  by_cases hstatus : 200 ≤ reply.status ∧ reply.status < 300
  · rw [if_pos hstatus]
    by_cases hempty : reply.status = noContent
    · -- No body is no JSON.
      have hnone : valueOf? [] = none := by
        have hutf8 : Message.utf8 "" = [] := by rw [Message.utf8_eq]; rfl
        rw [← hutf8, valueOf?, Message.ofUtf8?_utf8]
        rfl
      simp [hempty, Except.bind, checkBody, hnone]
    · simp [hstatus, hempty, Except.bind, checkBody_eq_ok_iff]
  · simp [hstatus, Except.bind]

/-! ### What is not looked at -/

/-- An object with a single member. -/
def objectText (name : String) (value : List Char) : List Char :=
  '\x7b' :: Json.renderString name ++ ':' :: value ++ ['\x7d']

/-- A body whose result has an integer for its code and nothing else. -/
def ofCode (i : Int) : List UInt8 :=
  Message.utf8 (String.ofList (objectText "result" (objectText "code" (Json.integerText i))))

/-- A text that spells a value, whatever follows it that does not go on with a number. -/
def Writes (s : List Char) (v : Json) : Prop :=
  ∀ x, Json.Closes x → Spells (s ++ x) (.value v) x

theorem Writes.object {s : List Char} (h : Writes s v) (name : String) :
    Writes (objectText name s) (.object [(name, v)]) := by
  intro x _
  have hvalue := h ('\x7d' :: x) (Json.closes_cons rfl (by decide) x)
  have hmember : Spells (Json.renderString name ++ ':' :: s ++ '\x7d' :: x)
      (.member (some name, v)) ('\x7d' :: x) := Json.spells_member hvalue
  have hmembers := hmember.lastMember (Json.skipSpace_cons rfl x)
  have hobject := Spells.object (Json.skipSpace_cons (c := '\x7b') rfl _) hmembers.skip
  rw [show [(some name, v)] = [(name, v)].map fun m => (some m.1, m.2) from rfl,
    Json.ofMembers_some] at hobject
  simpa [objectText] using hobject

theorem isJson_ofCode {i : Int} (hi : (ofInt i).isSound = true) :
    IsJson (ofCode i) (.object [("result", .object [("code", ofInt i)])]) := by
  have hcode : Writes (Json.integerText i) (ofInt i) := fun x hx => Json.spells_integerText i hx
  have hbody := (hcode.object "code").object "result" [] Json.closes_nil
  rw [List.append_nil] at hbody
  refine ⟨⟨_, [], rfl, by rwa [String.toList_ofList], rfl⟩, ?_⟩
  simp [Json.isAdmissible, Json.isSound, Json.isSoundMembers, Json.depth, Json.depthMembers, hi,
    Json.depth_ofInt, Json.maxDepth]

/-- **A single code.** A code below zero or beyond a word is as good as none. -/
theorem checkBody_ofCode {i : Int} (hi : (ofInt i).isSound = true) (hmode : mode ≠ .commit) :
    checkBody mode (ofCode i) = .ok () ↔ i ≤ 0 ∨ 2 ^ 64 ≤ i := by
  have hverdicts : ∀ result, verdicts mode result = [result] := by
    intro result
    cases mode with
    | commit => exact absurd rfl hmode
    | async | sync => rfl
  rw [checkBody_of_isJson (isJson_ofCode hi) (.inl rfl) rfl, forM_checkVerdict_eq_ok_iff,
    hverdicts, List.forall_mem_singleton, codeOf_of_member rfl]
  split <;> omega

/-- A body of a commit whose execution failed with a code, and that holds a null in the place of the
    execution's older name. -/
def hidden (code : UInt64) : Json :=
  .object [("result", .object [("check_tx", .object [("code", .number (.word 0))]),
    ("deliver_tx", .null), ("tx_result", .object [("code", .number (.word code))])])]

theorem isJson_hidden (code : UInt64) :
    IsJson (Message.utf8 (hidden code).render) (hidden code) := by
  rw [isJson_iff, valueOf?, Message.ofUtf8?_utf8]
  exact ⟨Json.parse_render rfl, rfl⟩

/-- **A null.** Whatever the code of the execution behind it, the transaction is accepted. -/
theorem checkBody_hidden (code : UInt64) :
    checkBody .commit (Message.utf8 (hidden code).render) = .ok () := by
  rw [checkBody_of_isJson (isJson_hidden code) (.inl rfl) rfl]
  rfl

theorem not_accepts_of_code {missing : Option Json → Prop} {counts : Int → Prop} {i : Int}
    (hjson : IsJson body v) (hresult : v.member? "result" = some result)
    (hverdict : IsVerdict missing result mode verdict) (hi : counts i)
    (hcode : verdict.member? "code" = some (ofInt i)) (hne : i ≠ 0) :
    ¬ Accepts missing counts mode body := by
  rintro ⟨w, result', hjson', -, hresult', hcodes⟩
  obtain rfl := hjson.unique hjson'
  obtain rfl := Option.some.inj (hresult.symm.trans hresult')
  exact hne (hcodes verdict i hverdict hi hcode)

/-- Three bodies that are accepted although a code in them is not zero: one below zero, one beyond a
    word, one behind a null. -/
theorem not_accepts_of_accepted_code :
    (checkBody .sync (ofCode (-1)) = .ok () ∧
      ¬ Accepts IsVoid (fun _ => True) .sync (ofCode (-1))) ∧
    (checkBody .sync (ofCode (2 ^ 64)) = .ok () ∧
      ¬ Accepts IsVoid (fun _ => True) .sync (ofCode (2 ^ 64))) ∧
    (checkBody .commit (Message.utf8 (hidden 2).render) = .ok () ∧
      ¬ Accepts IsVoid (fun _ => True) .commit (Message.utf8 (hidden 2).render)) := by
  have hnegative := Json.isSound_ofInt (i := -1) (by decide) (by decide)
  -- The first integer beyond a word is read as a double.
  have hhuge : (ofInt (2 ^ 64)).isSound = true := by
    have hnumeral : Text.numeral (2 ^ 64 : Int).natAbs = "18446744073709551616".toList := by
      simp [Text.numeral]
      decide
    rw [ofInt, hnumeral]
    decide +kernel
  have hcode : some (Json.number (.word 2)) = some (ofInt 2) :=
    congrArg some (Json.ofInt_toNat 2).symm
  refine ⟨⟨?_, ?_⟩, ⟨?_, ?_⟩, checkBody_hidden 2, ?_⟩
  · exact (checkBody_ofCode hnegative (by decide)).mpr (by decide)
  · exact not_accepts_of_code (isJson_ofCode hnegative) rfl (.whole (by decide)) trivial rfl
      (by decide)
  · exact (checkBody_ofCode hhuge (by decide)).mpr (by decide)
  · exact not_accepts_of_code (isJson_ofCode hhuge) rfl (.whole (by decide)) trivial rfl
      (by decide)
  · exact not_accepts_of_code (isJson_hidden 2) rfl (.newer (.inr rfl) rfl) trivial hcode
      (by decide)

end TxLoad.Rpc
