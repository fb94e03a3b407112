import TxLoad.Proofs.Client.Keys
import TxLoad.Proofs.Engine.Isolation
import TxLoad.Proofs.Engine.Stopping
import TxLoad.Proofs.Pacer.Counting

namespace TxLoad

/-!
# Reckoning in words

A pacing loop counts what it sends and multiplies times by rates. The definitions do this with
natural numbers, while a machine has words of 64 and of 128 bits. Here the loop is run a second time
with words: every number that is reckoned must fit into its word, no number that is subtracted may be
greater than the other, no digit of a counter may be left over, and nothing may be cut down to a word
unless that is meant. Where one of these fails, there is no result.

For a configuration that was accepted there always is one, and it is the same.

* `Pacer.due?`, `Pacer.consume?`, `Pacer.nextDue?`, `KeyValue.generator?`, `KeyValue.InUse.call?`,
  `Engine.step?`: the operations in words.
* `Pacer.IsBounded.fitsAt`: a pacer fits into its words as long as the longest configurable time has
  not passed and no more was consumed than was due.
* `KeyValue.InUse.call?_eq`: a client stops before its counter leaves its word or its suffix.
* `Engine.IsRestrained.step`: no step makes an engine send more than is due, which keeps its pacer
  within these bounds.
* `Group.inRange_of_reaches`: all engines of a group, however it has developed.
-/

/-! ### Words -/

namespace Word

/-- The number itself, if a word of so many bits holds it. -/
def fit? (bits n : Nat) : Option Nat := if n < 2 ^ bits then some n else none

/-- The difference, if it is not below zero. -/
def sub? (a b : Nat) : Option Nat := if b ≤ a then some (a - b) else none

theorem fit?_of_lt {bits n : Nat} (h : n < 2 ^ bits) : fit? bits n = some n := if_pos h

theorem fit?_of_le {n : Nat} (h : n ≤ Text.wordMax) : fit? 64 n = some n :=
  fit?_of_lt (Nat.lt_of_le_of_lt h (by decide))

theorem sub?_of_le {a b : Nat} (h : b ≤ a) : sub? a b = some (a - b) := if_pos h

end Word

/-! ### Pacers -/

namespace Pacer

variable {p : Pacer} {t : Nat}

/-- What is due, with a product and a sum of 128 bits. The total is meant to be cut to 64 bits. -/
def due? (p : Pacer) (now : Nat) : Option Nat := do
  let product ← Word.fit? 128 ((now - p.started) * p.rate)
  let total ← Word.fit? 128 (product / secondNs + 1)
  return min Text.wordMax total - p.consumed

/-- Marks requests as made, in a count of 64 bits. -/
def consume? (p : Pacer) (n : Nat) : Option Pacer := do
  let consumed ← Word.fit? 64 (p.consumed + n)
  return { p with consumed }

/-- The instant of the next request, with a product of 128 bits and a span of 64 bits that is not
    cut. -/
def nextDue? (p : Pacer) : Option Nat := do
  let product ← Word.fit? 128 (p.consumed * secondNs)
  let span ← Word.fit? 64 (product ⌈/⌉ max p.rate 1)
  return p.started + span

/-- What a pacer reckons with at the instant `t` fits into its words. -/
structure FitsAt (p : Pacer) (t : Nat) : Prop where
  /-- The product of time and rate. -/
  product_lt : (t - p.started) * p.rate < 2 ^ 128
  /-- The product for the next request. -/
  nextProduct_lt : p.consumed * secondNs < 2 ^ 128
  /-- The time from the start to the next request, which is not cut. -/
  offset_lt : offset p.rate p.consumed < 2 ^ 64
  nextDue_eq : p.nextDue = p.started + offset p.rate p.consumed
  due?_eq : p.due? t = some (p.due t)
  nextDue?_eq : p.nextDue? = some p.nextDue

/-- How far a pacer may have come by the instant `t`. -/
structure IsBounded (p : Pacer) (t : Nat) : Prop where
  rate_pos : 0 < p.rate
  rate_le : p.rate ≤ Text.wordMax
  /-- No more than the longest configurable time has passed. -/
  elapsed_le : t - p.started ≤ Clock.nanos (Clock.seconds maxSeconds)
  /-- Nothing is consumed that is not due. -/
  consumed_le : p.consumed ≤ p.exactTotal t

theorem exactTotal_le_wordMax (p : Pacer) (t : Nat) : p.exactTotal t ≤ Text.wordMax :=
  Nat.min_le_left _ _

/-- The next request is at most a second ahead, at whatever rate. -/
theorem IsBounded.offset_le (h : p.IsBounded t) :
    offset p.rate p.consumed ≤ t - p.started + secondNs := by
  rw [offset_le_iff h.rate_pos]
  have hcount : p.consumed ≤ (t - p.started) * p.rate / secondNs + 1 :=
    h.consumed_le.trans (Nat.min_le_right _ _)
  -- The request that is due at the start adds no more than a second, whatever the rate is.
  calc p.consumed * secondNs
      ≤ ((t - p.started) * p.rate / secondNs + 1) * secondNs := Nat.mul_le_mul_right _ hcount
    _ = (t - p.started) * p.rate / secondNs * secondNs + secondNs := Nat.succ_mul _ _
    _ ≤ (t - p.started) * p.rate + secondNs * p.rate :=
        Nat.add_le_add (Nat.div_mul_le_self _ _) (Nat.le_mul_of_pos_right _ h.rate_pos)
    _ = (t - p.started + secondNs) * p.rate := (Nat.add_mul _ _ _).symm

theorem IsBounded.offset_le_wordMax (h : p.IsBounded t) :
    offset p.rate p.consumed ≤ Text.wordMax :=
  calc offset p.rate p.consumed
      ≤ t - p.started + secondNs := h.offset_le
    _ ≤ Clock.nanos (Clock.seconds maxSeconds) + secondNs := Nat.add_le_add_right h.elapsed_le _
    _ ≤ Text.wordMax := by decide

theorem IsBounded.product_lt (h : p.IsBounded t) : (t - p.started) * p.rate < 2 ^ 128 :=
  elapsed_mul_rate_lt h.rate_le (h.elapsed_le.trans (by decide))

theorem IsBounded.nextProduct_lt (h : p.IsBounded t) : p.consumed * secondNs < 2 ^ 128 :=
  calc p.consumed * secondNs
      ≤ Text.wordMax * secondNs :=
        Nat.mul_le_mul_right _ (h.consumed_le.trans (p.exactTotal_le_wordMax t))
    _ < 2 ^ 128 := by decide

theorem IsBounded.nextDue_eq (h : p.IsBounded t) :
    p.nextDue = p.started + offset p.rate p.consumed := by
  rw [Pacer.nextDue_eq h.rate_pos, Nat.min_eq_right h.offset_le_wordMax]

theorem IsBounded.due?_eq (h : p.IsBounded t) : p.due? t = some (p.due t) := by
  have hproduct := h.product_lt
  have htotal : (t - p.started) * p.rate / secondNs + 1 < 2 ^ 128 := by
    have hdiv := Nat.div_le_div_right (c := secondNs) (Nat.le_pred_of_lt hproduct)
    exact Nat.lt_of_le_of_lt (Nat.succ_le_succ hdiv) (by decide)
  rw [due?, Word.fit?_of_lt hproduct, Option.bind_eq_bind, Option.bind_some,
    Word.fit?_of_lt htotal, due, total_eq_exactTotal hproduct]
  rfl

theorem IsBounded.nextDue?_eq (h : p.IsBounded t) : p.nextDue? = some p.nextDue := by
  have hspan : p.consumed * secondNs ⌈/⌉ max p.rate 1 = offset p.rate p.consumed := by
    rw [Nat.max_eq_left h.rate_pos, offset]
  rw [nextDue?, Word.fit?_of_lt h.nextProduct_lt, Option.bind_eq_bind, Option.bind_some, hspan,
    Word.fit?_of_le h.offset_le_wordMax, h.nextDue_eq]
  rfl

/-- **Pacing in words.** Within its bounds, a pacer fits into its words. -/
theorem IsBounded.fitsAt (h : p.IsBounded t) : p.FitsAt t where
  product_lt := h.product_lt
  nextProduct_lt := h.nextProduct_lt
  offset_lt := Nat.lt_of_le_of_lt h.offset_le_wordMax (by decide)
  nextDue_eq := h.nextDue_eq
  due?_eq := h.due?_eq
  nextDue?_eq := h.nextDue?_eq

/-- Beyond them it does not: at one request a second, words last for some centuries. -/
example : nextDue? ⟨1, 0, 18446744074⟩ = none := by decide +kernel

theorem consume?_eq {n : Nat} (h : p.consumed + n ≤ Text.wordMax) :
    p.consume? n = some (p.consume n) := by
  rw [consume?, Word.fit?_of_le h]
  rfl

end Pacer

/-! ### Clients -/

namespace KeyValue

open Generator (bytes)

/-- Writes the digits of `n` as `putDigits` does, provided that nothing of `n` is left at the end. -/
def putDigits? (offset : Nat) : (width : Nat) → Nat → Payload → Option Payload
  | 0, n, text => if n = 0 then some text else none
  | width + 1, n, text =>
    if n = 0 then some text
    else putDigits? offset width (n / base) (text.set (offset + width) (digitByte (n % base)))

/-- **No digit is dropped** exactly below the bound of the width. -/
theorem putDigits?_eq (offset width n : Nat) (text : Payload) :
    putDigits? offset width n text =
      if n < base ^ width then some (putDigits offset width n text) else none := by
  induction width generalizing n text with
  | zero => simp [putDigits?, putDigits]
  | succ width ih =>
    rw [putDigits?, putDigits]
    by_cases hzero : n = 0
    · have hbound : n < base ^ (width + 1) := hzero ▸ Nat.pow_pos (by decide)
      rw [if_pos hzero, if_pos hzero, if_pos hbound]
    · -- A digit less is left of the number, and a place less to write it.
      have hbound : n / base < base ^ width ↔ n < base ^ (width + 1) := by
        rw [Nat.div_lt_iff_lt_mul (by decide), ← Nat.pow_succ]
      rw [if_neg hzero, if_neg hzero, ih]
      simp only [hbound]

/-- Appends the numeral of `n` to a text. -/
def putSuffix? (width n : Nat) (text : Payload) : Option Payload :=
  putDigits? text.length width n (text ++ List.replicate width padding)

theorem putSuffix?_of_lt {width n : Nat} (h : n < base ^ width) (text : Payload) :
    putSuffix? width n text = some (putSuffix width n text) := by
  rw [putSuffix?, putDigits?_eq, if_pos h, putSuffix]

/-- The first number with three digits does not fit into two. -/
example : putSuffix? 2 (base ^ 2) [] = none := by decide +kernel

namespace InUse

/-- Asks for the next transaction, with a counter of 64 bits. The capacity is meant to be cut to
    64 bits. -/
def call? (s : InUse) : Option (Except ClientError Payload × InUse) :=
  if s.generator.capacity ≤ s.counter then some (.error (.exhausted s.generator.capacity), s)
  else do
    let key ← putSuffix? s.generator.suffixWidth s.counter (bytes s.generator.id)
    let counter ← Word.fit? 64 (s.counter + 1)
    return (.ok (key ++ equals :: s.value),
      { s with counter, drawn := s.drawn + s.generator.valueLength })

/-- The number of the next transaction fits, and so does the one after it. -/
structure Fits (s : InUse) : Prop where
  suffix_lt : s.counter < base ^ s.generator.suffixWidth
  counter_lt : s.counter + 1 < 2 ^ 64
  /-- Nothing of the number is left when its digits are written. -/
  putSuffix?_eq : putSuffix? s.generator.suffixWidth s.counter (bytes s.generator.id) =
    some (putSuffix s.generator.suffixWidth s.counter (bytes s.generator.id))

/-- Below its capacity a client has room for a number, in the suffix and in the counter. -/
theorem fits_of_lt {s : InUse} (h : s.counter < s.generator.capacity) : s.Fits := by
  have hsuffix : s.counter < base ^ s.generator.suffixWidth :=
    Nat.lt_of_lt_of_le h (Nat.min_le_left _ _)
  have hcounter : s.counter < Text.wordMax := Nat.lt_of_lt_of_le h (Nat.min_le_right _ _)
  exact ⟨hsuffix, Nat.lt_of_le_of_lt hcounter (by decide), putSuffix?_of_lt hsuffix _⟩

/-- A client that answers with a transaction is below its capacity. -/
theorem fits_of_ok {s : InUse} {payload : Payload} (h : s.call.1 = .ok payload) : s.Fits := by
  rw [call] at h
  split at h
  · cases h
  · rename_i hleft
    exact fits_of_lt (Nat.lt_of_not_le hleft)

/-- **Calls in words.** No call of a client leaves its words. -/
theorem call?_eq (s : InUse) : s.call? = some s.call := by
  rw [call?, call]
  split
  · rfl
  · rename_i hleft
    have hfits := fits_of_lt (Nat.lt_of_not_le hleft)
    rw [hfits.putSuffix?_eq, Option.bind_eq_bind, Option.bind_some,
      Word.fit?_of_lt hfits.counter_lt]
    rfl

/-- A client that has no answer stays as it is. -/
theorem call_of_error {s : InUse} {error : ClientError} (h : s.call.1 = .error error) :
    s.call.2 = s := by
  rw [call] at h ⊢
  split at h
  · rename_i hspent
    rw [if_pos hspent]
  · cases h

end InUse

/-- The generator for a configuration, where the length of the values is what the size leaves. -/
def generator? (cfg : Config) (width : Nat) (noise : Noise) : Option Generator := do
  let rest ← Word.sub? cfg.size.toNat idLength
  let rest ← Word.sub? rest width
  let valueLength ← Word.sub? rest 1
  return { suffixWidth := width, valueLength, noise }

/-- A configuration with room for keys has room for values. -/
theorem generator?_eq {cfg : Config} {width : Nat}
    (h : idLength + width + 1 + minValueLength ≤ cfg.size.toNat) (noise : Noise) :
    generator? cfg width noise = some (generator cfg width noise) := by
  have hid : idLength ≤ cfg.size.toNat := by omega
  have hwidth : width ≤ cfg.size.toNat - idLength := by omega
  have hequals : 1 ≤ cfg.size.toNat - idLength - width := by omega
  rw [generator?, Word.sub?_of_le hid, Option.bind_eq_bind, Option.bind_some,
    Word.sub?_of_le hwidth, Option.bind_some, Word.sub?_of_le hequals]
  rfl

end KeyValue

/-! ### Engines -/

/-- A rate and a time with which words can cope. -/
structure EngineSetup.FitsWords (s : EngineSetup) : Prop where
  rate_pos : 0 < s.rate
  rate_le : s.rate ≤ Text.wordMax
  deadline_le : s.deadline ≤ s.spawned + Clock.seconds maxSeconds

namespace Engine

open KeyValue (Generator InUse)

variable {g : Generator} {e₀ e : Engine} {n : Nat} {p : Pacer}

/-- Asks the client for the next transaction and submits it; `s` is the client of the engine. -/
def send? (e : Engine) (p : Pacer) (s : InUse) : Option (Engine × InUse) := do
  let (answer, s) ← s.call?
  match answer with
  | .error error => return (e.stop (.failed (.client error)), s)
  | .ok payload => return (e.submit p payload, s)

/-- Looks whether to stop, to wait or to send. -/
def look? (e : Engine) (p : Pacer) (s : InUse) : Option (Engine × InUse) :=
  if e.cancelled then some (e.stop .cancelled, s)
  else if e.setup.deadline ≤ e.now then some (e.stop .elapsed, s)
  else if e.setup.limit.any (· ≤ p.consumed) then some (e.stop .countReached, s)
  else do
    let due ← p.due? (Clock.nanos e.now)
    if due = 0 then
      let next ← p.nextDue?
      let wake := min (min next (Clock.nanos e.setup.deadline)) (Clock.nanos (e.now + maxParkMs))
      return ({ e with now := max e.now (Clock.ceilMs wake) }, s)
    else e.send? p s

/-- The engine's next action in words. Only a look and an accepted send reckon with any. -/
def step? (e : Engine) (s : InUse) : Option (Engine × InUse) :=
  match e.phase with
  | .looping p => e.look? p s
  | .sending p size (.ok ()) => do
    let p ← p.consume? 1
    return ({ e with
      stat := (e.stat.onRequests 1).onSend (UInt64.ofNat size)
      phase := .looping p }, s)
  | _ => some (e.step, s)

/-- The client of the engine, which was asked once for each send. -/
def clientOf (e : Engine) (g : Generator) : InUse := g.start.after e.sent.length

/-- An engine that neither was cancelled nor is at its end, its pacer fitting, waits or sends. -/
theorem look?_of_going {s : InUse} (hgoing : e.cancelled = false)
    (hdeadline : e.now < e.setup.deadline) (hlimit : e.setup.limit.any (· ≤ p.consumed) = false)
    (hfits : p.FitsAt (Clock.nanos e.now)) : e.look? p s =
      if p.due (Clock.nanos e.now) = 0 then some ({ e with now := e.parkUntil p }, s)
      else e.send? p s := by
  rw [look?, hgoing, if_neg Bool.false_ne_true, if_neg (Nat.not_le.mpr hdeadline), hlimit,
    if_neg Bool.false_ne_true, hfits.due?_eq, hfits.nextDue?_eq, Option.bind_eq_bind,
    Option.bind_some, Option.bind_some, parkUntil]
  rfl

/-- **Looks in words.** If the pacer fits and the client is in step with it, a look in words comes
    to the same. -/
theorem look?_eq (hclient : e.setup.client = g.client) (hconsumed : p.consumed = e.sent.length)
    (hfits : e.now < e.setup.deadline → p.FitsAt (Clock.nanos e.now)) :
    e.look? p (e.clientOf g) = some (e.look p, (e.look p).clientOf g) := by
  have hanswer : (e.clientOf g).call.1 = e.setup.client p.consumed := by
    rw [hclient, hconsumed]
    exact KeyValue.call_after g _
  have hlook := looks_look e p
  generalize e.look p = d at hlook ⊢
  cases hlook with
  | cancelled hcancelled =>
    rw [look?, if_pos hcancelled]
    rfl
  | elapsed hgoing hdeadline =>
    rw [look?, hgoing, if_neg Bool.false_ne_true, if_pos hdeadline]
    rfl
  | counted hgoing hdeadline hlimit =>
    rw [look?, hgoing, if_neg Bool.false_ne_true, if_neg (Nat.not_le.mpr hdeadline),
      if_pos hlimit]
    rfl
  | parked hgoing hdeadline hlimit hdue =>
    rw [look?_of_going hgoing hdeadline hlimit (hfits hdeadline), if_pos hdue]
    rfl
  | refused hgoing hdeadline hlimit hdue hrefused =>
    have herror := hanswer.trans hrefused
    have hcall : (e.clientOf g).call = (_, e.clientOf g) :=
      Prod.ext herror (InUse.call_of_error herror)
    rw [look?_of_going hgoing hdeadline hlimit (hfits hdeadline), if_neg hdue, send?,
      InUse.call?_eq, hcall]
    rfl
  | submitted hgoing hdeadline hlimit hdue hmade =>
    -- The client has been asked once more, as there is one more send.
    have hcall : (e.clientOf g).call = (_, g.start.after (e.sent.length + 1)) :=
      Prod.ext (hanswer.trans hmade) rfl
    rw [look?_of_going hgoing hdeadline hlimit (hfits hdeadline), if_neg hdue, send?,
      InUse.call?_eq, hcall]
    rfl

/-! ### Engines within their bounds -/

/-- The pacer of an engine, a send that is under way being counted already. -/
def pacer? (e : Engine) : Option Pacer :=
  match e.phase with
  | .looping p => some p
  | .sending p _ _ => some (p.consume 1)
  | _ => none

/-- An engine that has sent no more than was due since it was started. -/
structure IsRestrained (e : Engine) : Prop where
  spawned_le : e.setup.spawned ≤ e.now
  rate_eq : ∀ p, e.pacer? = some p → p.rate = e.setup.rate
  started_ge : ∀ p, e.pacer? = some p → Clock.nanos e.setup.spawned ≤ p.started
  consumed_le : ∀ p, e.pacer? = some p → p.consumed ≤ p.exactTotal (Clock.nanos e.now)

theorem isRestrained_fresh {setup : EngineSetup} {now : Nat} (h : setup.spawned ≤ now) :
    ({ setup, now } : Engine).IsRestrained where
  spawned_le := h
  rate_eq _ hp := by cases hp
  started_ge _ hp := by cases hp
  consumed_le _ hp := by cases hp

/-- The clock moves on, and what was due stays due. -/
theorem IsRestrained.later (h : e.IsRestrained) {d : Engine} (hsetup : d.setup = e.setup)
    (hnow : e.now ≤ d.now) (hpacer : ∀ p, d.pacer? = some p → e.pacer? = some p) :
    d.IsRestrained where
  spawned_le := hsetup ▸ h.spawned_le.trans hnow
  rate_eq p hp := hsetup ▸ h.rate_eq p (hpacer p hp)
  started_ge p hp := hsetup ▸ h.started_ge p (hpacer p hp)
  consumed_le p hp :=
    (h.consumed_le p (hpacer p hp)).trans
      (Pacer.exactTotal_le_exactTotal p (Clock.nanos_le_nanos hnow))

/-- Nothing is sent without a pacer. -/
theorem IsRestrained.idle (h : e.IsRestrained) {d : Engine} (hsetup : d.setup = e.setup)
    (hnow : e.now ≤ d.now) (hnone : d.pacer? = none) : d.IsRestrained := by
  refine h.later hsetup hnow fun p hp => ?_
  rw [hnone] at hp
  cases hp

theorem IsRestrained.stop (h : e.IsRestrained) (exit : Exit) : (e.stop exit).IsRestrained :=
  h.idle rfl (Nat.le_refl _) rfl

theorem IsRestrained.look (h : e.IsRestrained) (hphase : e.phase = .looping p) :
    (e.look p).IsRestrained := by
  have hpacer : e.pacer? = some p := by rw [pacer?, hphase]
  have hlook := looks_look e p
  generalize e.look p = d at hlook
  cases hlook with
  | cancelled | elapsed | counted | refused => exact h.stop _
  | parked => exact h.later rfl (le_parkUntil e p) fun _ hp => hp
  | @submitted hgoing hdeadline hlimit hdue payload =>
    -- What was due when the engine looked is still due when the send is over.
    have hlater : Clock.nanos e.now ≤ Clock.nanos (e.submit p payload).now :=
      Clock.nanos_le_nanos (Nat.le_add_right _ _)
    refine ⟨h.spawned_le.trans (Nat.le_add_right _ _), ?_, ?_, ?_⟩ <;> rintro _ ⟨⟩
    · exact h.rate_eq p hpacer
    · exact h.started_ge p hpacer
    · exact (Nat.lt_of_sub_ne_zero hdue).trans_le
        ((Pacer.total_le_exactTotal p _).trans (Pacer.exactTotal_le_exactTotal p hlater))

/-- **Step lemma.** No step makes an engine send more than is due. -/
theorem IsRestrained.step (h : e.IsRestrained) : e.step.IsRestrained := by
  cases hphase : e.phase with
  | connecting =>
    simp only [Engine.step, hphase]
    exact h.idle rfl (Nat.le_add_right _ _) rfl
  | opening outcome =>
    cases outcome with
    | error error =>
      simp only [Engine.step, hphase]
      exact h.stop _
    | ok u =>
      simp only [Engine.step, hphase]
      -- The pacer starts, with nothing consumed.
      refine ⟨h.spawned_le, ?_, ?_, ?_⟩ <;> rintro _ ⟨⟩
      · rfl
      · exact Clock.nanos_le_nanos h.spawned_le
      · exact Nat.zero_le _
  | looping p =>
    simp only [Engine.step, hphase]
    exact h.look hphase
  | sending p size outcome =>
    cases outcome with
    | error error =>
      simp only [Engine.step, hphase]
      exact h.stop _
    | ok u =>
      simp only [Engine.step, hphase]
      -- The send was counted when it was submitted.
      have hpacer : e.pacer? = some (p.consume 1) := by rw [pacer?, hphase]
      exact h.later rfl (Nat.le_refl _) fun _ hp => hpacer.trans hp
  | stopped exit =>
    simp only [Engine.step, hphase]
    exact h

theorem IsRestrained.cancel (h : e.IsRestrained) : e.cancel.IsRestrained :=
  h.later rfl (Nat.le_refl _) fun _ hp => hp

/-- **Run lemma.** Nor does it, whatever becomes of the engine. -/
theorem IsRestrained.evolves (h₀ : e₀.IsRestrained) (h : e₀.Evolves n e) : e.IsRestrained :=
  h.keeps (fun _ he => he.step) (fun _ he => he.cancel) h₀

/-- Before the deadline, the pacer of an engine is within its bounds. -/
theorem IsRestrained.isBounded (h : e.IsRestrained) (hsetup : e.setup.FitsWords)
    (hphase : e.phase = .looping p) (hbefore : e.now < e.setup.deadline) :
    p.IsBounded (Clock.nanos e.now) := by
  have hpacer : e.pacer? = some p := by rw [pacer?, hphase]
  have hrate := h.rate_eq p hpacer
  refine ⟨hrate ▸ hsetup.rate_pos, hrate ▸ hsetup.rate_le, ?_, h.consumed_le p hpacer⟩
  -- The pacer was started after the engine, and the deadline is not over.
  have hstarted := h.started_ge p hpacer
  have hdeadline := hsetup.deadline_le
  unfold Clock.nanos at hstarted ⊢
  omega

/-- All that an engine reckons with stays within the words, and comes to the same as without. -/
structure InRange (g : Generator) (e : Engine) : Prop where
  /-- What the engine asks for transactions is the client that is reckoned with. -/
  client_eq : e.setup.client = g.start.answers
  /-- Whenever the engine asks its pacer, the products and the time to the next request fit. -/
  fits : ∀ p, e.phase = .looping p → e.now < e.setup.deadline → p.FitsAt (Clock.nanos e.now)
  /-- The engine wakes when it would if the time to the next request were not cut to a word. -/
  wakeAt_eq : ∀ p, e.phase = .looping p → e.now < e.setup.deadline →
    e.wakeAt p = min (min (p.started + Pacer.offset p.rate p.consumed)
      (Clock.nanos e.setup.deadline)) (Clock.nanos (e.now + maxParkMs))
  /-- Another send can be counted. -/
  consumed_lt : ∀ p size outcome, e.phase = .sending p size outcome → p.consumed + 1 < 2 ^ 64
  /-- Another transaction can be counted, and no digit of its number is dropped. -/
  client_fits : ∀ payload, (e.clientOf g).call.1 = .ok payload → (e.clientOf g).Fits
  step?_eq : e.step? (e.clientOf g) = some (e.step, e.step.clientOf g)

/-- A send that is under way can be counted. -/
theorem IsRestrained.succ_consumed_le (h : e.IsRestrained) {size : Nat}
    {outcome : Except ConnectionError Unit} (hphase : e.phase = .sending p size outcome) :
    p.consumed + 1 ≤ Text.wordMax := by
  have hpacer : e.pacer? = some (p.consume 1) := by rw [pacer?, hphase]
  exact (h.consumed_le _ hpacer).trans (Pacer.exactTotal_le_wordMax _ _)

/-- **Steps in words.** No step of an engine leaves its words. -/
theorem IsRestrained.step?_eq (h : e.IsRestrained) (hkeeps : e.Keeps)
    (hsetup : e.setup.FitsWords) (hclient : e.setup.client = g.client) :
    e.step? (e.clientOf g) = some (e.step, e.step.clientOf g) := by
  cases hphase : e.phase with
  | connecting =>
    simp only [step?, Engine.step, hphase]
    rfl
  | stopped exit => simp only [step?, Engine.step, hphase]
  | opening outcome =>
    cases outcome <;>
    · simp only [step?, Engine.step, hphase]
      rfl
  | looping p =>
    have hfits := hkeeps.fits
    rw [hphase] at hfits
    cases hfits with
    | looping hstat haccepted hconsumed =>
      simp only [step?, Engine.step, hphase]
      exact look?_eq hclient hconsumed fun hbefore => (h.isBounded hsetup hphase hbefore).fitsAt
  | sending p size outcome =>
    cases outcome with
    | error error =>
      simp only [step?, Engine.step, hphase]
      rfl
    | ok u =>
      simp only [step?, Engine.step, hphase, Pacer.consume?_eq (h.succ_consumed_le hphase)]
      rfl

theorem IsRestrained.inRange (h : e.IsRestrained) (hkeeps : e.Keeps)
    (hsetup : e.setup.FitsWords) (hclient : e.setup.client = g.client) : e.InRange g where
  client_eq := by rw [hclient, KeyValue.answers_start]
  fits p hphase hbefore := (h.isBounded hsetup hphase hbefore).fitsAt
  wakeAt_eq p hphase hbefore := by rw [wakeAt, (h.isBounded hsetup hphase hbefore).nextDue_eq]
  consumed_lt p size outcome hphase := Nat.lt_of_le_of_lt (h.succ_consumed_le hphase) (by decide)
  client_fits payload hanswer := InUse.fits_of_ok hanswer
  step?_eq := h.step?_eq hkeeps hsetup hclient

end Engine

/-! ### Groups -/

namespace Group

/-- All engines of a group stay within the words, with clients whose length of values is what the
    size leaves. `noise i` is the randomness of the i-th client. -/
def InRange (g : Group) (cfg : Config) (noise : Nat → Noise) : Prop :=
  ∃ width, KeyValue.suffixLengthFor cfg = .ok width ∧
    ∀ i, ∃ generator, KeyValue.generator? cfg width (noise i) = some generator ∧
      ∀ e, g.engines[i]? = some e → e.InRange generator

/-- Words can cope with what the check of a configuration lets through. -/
theorem fitsWords_lone {cfg : Config} (hvalid : cfg.IsValid) (pool : Pool)
    (target : Nat → Endpoint → Target) (now i : Nat) (client : Client) :
    (lone cfg pool target now i client).setup.FitsWords where
  rate_pos := hvalid.rate_pos
  rate_le := Nat.le_pred_of_lt cfg.rate.toNat_lt
  deadline_le := Nat.add_le_add_left (Nat.mul_le_mul_right 1000 hvalid.time_le) now

/-- **Groups in words.** However the engines act and are cancelled, they stay within the words. -/
theorem inRange_of_reaches {cfg : Config} {pool : Pool} {target : Nat → Endpoint → Target}
    {clients : List Client} {noise : Nat → Noise} {now width : Nat} {g : Group}
    {calls : Nat → Nat} (hvalid : cfg.IsValid) (hwidth : KeyValue.suffixLengthFor cfg = .ok width)
    (hroom : KeyValue.idLength + width + 1 + KeyValue.minValueLength ≤ cfg.size.toNat)
    (hclients : ∀ i client, clients[i]? = some client →
      client = (KeyValue.generator cfg width (noise i)).client)
    (h : (spawn cfg pool target clients now).Reaches calls g) : g.InRange cfg noise := by
  refine ⟨width, hwidth, fun i => ⟨_, KeyValue.generator?_eq hroom (noise i), fun e hi => ?_⟩⟩
  -- The engine has evolved from the one that was made for the client in its place.
  obtain ⟨n, e₀, h₀, hevolves⟩ := h.exists_evolves hi
  rw [getElem?_spawn, Option.map_eq_some_iff] at h₀
  obtain ⟨client, hclient, rfl⟩ := h₀
  have hsetup := hevolves.setup_eq
  refine Engine.IsRestrained.inRange ?_ ((Engine.keeps_fresh _ _).evolves hevolves) ?_ ?_
  · exact (Engine.isRestrained_fresh (Nat.le_refl now)).evolves hevolves
  · exact hsetup ▸ fitsWords_lone hvalid pool target now i client
  · rw [hsetup]
    exact hclients i client hclient

end Group

end TxLoad
