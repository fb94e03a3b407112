import TxLoad.Json.Basic
import Mathlib.Data.List.Forall2

namespace TxLoad.Json

/-!
# Values at the end of a path

A document is looked at name by name. What stands under a path of names does not depend on the order
of the members on its way, nor on the members with other names.

* `Json.At`: what stands at the end of a path, if no name on it is missing or stands twice.
* `Json.record?_of_at`: a record of an object is what stands under the names of its fields.
* `Json.mapM_of_forall₂`: a list is read item by item.
-/

variable {v w : Json} {name : String} {path : List String} {o : Option Json}
  {members : List (String × Json)}

/-- A value is an object with exactly one member of the given name, and this is its value. -/
def Has (v : Json) (name : String) (w : Json) : Prop :=
  ∃ members, v = .object members ∧ members.filter (·.1 = name) = [(name, w)]

/-- A value is an object without a member of the given name. -/
def Lacks (v : Json) (name : String) : Prop :=
  ∃ members, v = .object members ∧ ∀ m ∈ members, m.1 ≠ name

/-- What stands in a value at the end of a path of names: nothing if one of them is missing. -/
inductive At : Json → List String → Option Json → Prop where
  | here (v : Json) : At v [] (some v)
  | missing {v : Json} {name : String} {path : List String} (h : Lacks v name) :
    At v (name :: path) none
  | under {v w : Json} {name : String} {path : List String} {o : Option Json} (h : Has v name w)
    (hw : At w path o) : At v (name :: path) o

theorem At.of_filter (h : members.filter (·.1 = name) = [(name, w)]) (hw : At w path o) :
    At (.object members) (name :: path) o :=
  .under ⟨members, rfl, h⟩ hw

/-- An object with a single member. -/
def single (name : String) (v : Json) : Json := .object [(name, v)]

theorem At.single (hw : At w path o) : At (single name w) (name :: path) o :=
  .of_filter (by simp) hw

/-- A path starts with a single step. -/
theorem At.exists_of_cons (h : At v (name :: path) o) :
    ∃ w, At v [name] w ∧ (∀ x, w = some x → At x path o) ∧ (w = none → o = none) := by
  cases h with
  | missing h => exact ⟨none, .missing h, nofun, fun _ => rfl⟩
  | under h hw =>
    refine ⟨some _, .under h (.here _), ?_, nofun⟩
    intro x hx
    cases hx
    exact hw

/-! ### Fields -/

theorem valuesOf_eq (name : String) (members : List (String × Json)) :
    valuesOf name members = (members.filter (·.1 = name)).map (·.2) := by
  induction members with
  | nil => rfl
  | cons m members ih =>
    rw [valuesOf] at ih ⊢
    by_cases hm : m.1 = name <;> simp [hm, ih]

theorem field?_of_at (h : At (.object members) [name] o) : field? members name = some o := by
  unfold field?
  cases h with
  | missing h =>
    obtain ⟨_, hmembers, hnone⟩ := h
    cases hmembers
    have hfilter : members.filter (·.1 = name) = [] :=
      List.filter_eq_nil_iff.mpr fun m hm => by simpa using hnone m hm
    rw [valuesOf_eq, hfilter]
    rfl
  | under h hw =>
    obtain ⟨_, hmembers, hfilter⟩ := h
    cases hmembers
    cases hw
    rw [valuesOf_eq, hfilter]
    rfl

theorem exists_members_of_at (h : At v (name :: path) o) : ∃ members, v = .object members := by
  cases h with
  | missing h => exact ⟨_, h.choose_spec.1⟩
  | under h hw => exact ⟨_, h.choose_spec.1⟩

/-! ### Records and lists -/

theorem mapM_of_forall₂ {α β : Type} {f : α → Option β} {as : List α} {bs : List β}
    (h : List.Forall₂ (fun a b => f a = some b) as bs) : as.mapM f = some bs := by
  induction h with
  | nil => rfl
  | cons hfirst _ ih => simp [hfirst, ih]

/-- **Records.** The fields of an object are what stands under their names. -/
theorem record?_of_at {names : List String} {values : List (Option Json)} (hne : names ≠ [])
    (h : List.Forall₂ (fun name o => At v [name] o) names values) :
    v.record? names = some ⟨false, values⟩ := by
  obtain ⟨members, rfl⟩ : ∃ members, v = .object members := by
    cases h with
    | nil => exact absurd rfl hne
    | cons hfirst _ => exact exists_members_of_at hfirst
  rw [record?, mapM_of_forall₂ (h.imp fun _ _ => field?_of_at)]
  rfl

end TxLoad.Json
