import TxLoad.Rpc.Basic

namespace TxLoad.Rpc

/-!
# Answers to a transaction

A mode that waits for the endpoint's verdict finds it in the reply's body, a JSON object: an
`error` that is not null refuses the transaction, and so does a result whose code is not zero.

* `checkBody` judges the body, `judge` the whole reply;
* without a verdict to wait for, any successful reply will do.
-/

/-- The error of a reply, unless it is null. -/
def errorOf? (v : Json) : Option Json :=
  match v.member? "error" with
  | some .null => none
  | error => error

/-- The parts of a result that carry a code: the result itself, or, for a transaction that is to be
    committed, those of its check and of its execution. -/
def verdicts (mode : BroadcastMode) (result : Json) : List Json :=
  match mode with
  | .commit =>
    (result.member? "check_tx").toList ++
      -- Newer endpoints call the execution by another name.
      ((result.member? "deliver_tx").orElse fun _ => result.member? "tx_result").toList
  | _ => [result]

/-- The code of a verdict: zero unless it is a natural number of 64 bits. -/
def codeOf (verdict : Json) : Nat :=
  (((verdict.member? "code").bind Json.word?).map UInt64.toNat).getD 0

/-- The explanation of a verdict. -/
def logOf (verdict : Json) : String := ((verdict.member? "log").bind Json.string?).getD ""

/-- Refuses a verdict whose code is not zero. -/
def checkVerdict (verdict : Json) : Except ConnectionError Unit :=
  let code := codeOf verdict
  if code = 0 then .ok () else .error (.rpc s!"code {code}: {logOf verdict}")

/-- Judges the value of a body. -/
def checkValue (mode : BroadcastMode) (v : Json) : Except ConnectionError Unit :=
  match errorOf? v with
  | some error => .error (.rpc error.sorted.render)
  | none =>
    match v.member? "result" with
    | none => .error (.transport "response has no result")
    | some result => (verdicts mode result).forM checkVerdict

/-- Judges the body of a reply. -/
def checkBody (mode : BroadcastMode) (body : List UInt8) : Except ConnectionError Unit :=
  match valueOf? body with
  | some v => if v.isAdmissible then checkValue mode v else .error (.transport "invalid response")
  | none => .error (.transport "invalid response")

/-- Judges a reply to a transaction. -/
def judge (mode : BroadcastMode) (reply : Reply) : Except ConnectionError Unit :=
  (bodyOf reply).bind fun body =>
    match mode with
    -- The body of a mode without a verdict is not even read.
    | .async => .ok ()
    | _ => checkBody mode body

end TxLoad.Rpc
