import TxLoad.Client.Basic
import TxLoad.Message.Stream

namespace TxLoad.Rpc

/-!
# Requests to an endpoint

An endpoint is asked by requests whose whole content stands in their target, and answers with a
status and a body.

* `broadcastTarget` is the request that submits a transaction;
* `bodyOf` is the body of a successful reply.
-/

/-- An answer of an endpoint. -/
structure Reply where
  status : Nat
  body : List UInt8
  deriving DecidableEq, Repr

/-- Two digits in base sixteen for each byte. -/
def hexText (bytes : Payload) : String :=
  String.ofList (bytes.flatMap fun b => Text.hexPadded 2 b.toNat)

/-- The path of the request that submits a transaction. -/
def broadcastPath (mode : BroadcastMode) : String := "/" ++ mode.method

/-- The target of the request that submits a transaction. -/
def broadcastTarget (mode : BroadcastMode) (tx : Payload) : String :=
  broadcastPath mode ++ "?tx=0x" ++ hexText tx

/-- The target of the request for an endpoint's peers. -/
def netInfoTarget : String := "/net_info"

/-- The status of a reply that has no body, whatever is sent. -/
def noContent : Nat := 204

/-- The body of a reply, whose status must be one of success. -/
def bodyOf (reply : Reply) : Except ConnectionError (List UInt8) :=
  if 200 ≤ reply.status ∧ reply.status < 300 then
    .ok (if reply.status = noContent then [] else reply.body)
  else .error (.status reply.status)

/-- The character at the start of some bytes, and the number of its bytes. -/
def charAtStart? (bytes : List UInt8) : Option (Char × Nat) :=
  [1, 2, 3, 4].findSome? fun n =>
    match (Message.ofUtf8? (bytes.take n)).map String.toList with
    | some [c] => some (c, n)
    | _ => none

/-- What a byte that belongs to no character is read as. In a string it is half a surrogate pair, so
    that the string has no value but can be passed over; behind a backslash it is no escape. -/
def unreadable (escaped : Bool) : List Char := if escaped then ['\x00'] else "\\ud800 ".toList

/-- The characters of a body. `escaped` says that a backslash stands before it, `skip` is the number
    of bytes that belong to the character before. -/
def legible : (escaped : Bool) → (skip : Nat) → List UInt8 → List Char
  | _, _, [] => []
  | escaped, skip + 1, _ :: r => legible escaped skip r
  | escaped, 0, b :: r =>
    match charAtStart? (b :: r) with
    | some (c, n) => c :: legible (c == '\\' && !escaped) (n - 1) r
    | none => unreadable escaped ++ legible false 0 r

/-- The value of a body that is a JSON text. -/
def valueOf? (body : List UInt8) : Option Json :=
  match Message.ofUtf8? body with
  | some text => Json.parse text
  | none => Json.parse (String.ofList (legible false 0 body))

/-- Two digits for each byte. -/
theorem length_hexText (bytes : Payload) :
    (hexText bytes).toList.length = 2 * bytes.length := by
  have h (b : UInt8) : (Text.hexPadded 2 b.toNat).length = 2 := by simp [Text.hexPadded]
  induction bytes with
  | nil => simp [hexText]
  | cons b r ih =>
    simp only [hexText, String.toList_ofList, List.flatMap_cons, List.length_append] at ih ⊢
    rw [ih, h, List.length_cons]
    omega

end TxLoad.Rpc
