import TxLoad.Discovery
import Mathlib.Data.String.Basic

namespace TxLoad

/-!
# Endpoints in order

What a round collects is kept in ascending lists without duplicates: the endpoints that answered,
each with its latest answer, and the peers to ask. Such a list is a finite map or a finite set.

* `Endpoint.lt_irrefl`, `Endpoint.lt_trans`, `Endpoint.lt_of_not_lt`: the order is strict and linear.
* `Endpoint.pairwise_sortedSet`: the endpoints of a set are strictly ascending.
* `Discovery.mem_insertFound`: a new answer takes the place of an earlier one of the same endpoint,
  and of no other.
* `Discovery.pairwise_insertFound`: answers stay in the order of their endpoints.
-/

namespace Endpoint

variable {a b c : Endpoint}

/-! ### The order -/

theorem lt_irrefl (a : Endpoint) : ¬ a < a := by
  rintro (h | ⟨-, h⟩)
  · exact String.lt_irrefl a.host h
  · exact Nat.lt_irrefl a.port h

theorem ne_of_lt (h : a < b) : a ≠ b := by
  rintro rfl
  exact lt_irrefl a h

theorem lt_trans (hab : a < b) (hbc : b < c) : a < c := by
  rcases hab with hab | ⟨hab, hport⟩
  · rcases hbc with hbc | ⟨hbc, -⟩
    · exact .inl (String.lt_trans hab hbc)
    · exact .inl (hbc ▸ hab)
  · rcases hbc with hbc | ⟨hbc, hport'⟩
    · exact .inl (hab ▸ hbc)
    · exact .inr ⟨hab.trans hbc, Nat.lt_trans hport hport'⟩

/-- Endpoints that are neither equal nor in order are in the opposite order. -/
theorem lt_of_not_lt (hne : a ≠ b) (h : ¬ a < b) : b < a := by
  rcases lt_trichotomy a.host b.host with hhost | hhost | hhost
  · exact absurd (.inl hhost) h
  · rcases Nat.lt_trichotomy a.port b.port with hport | hport | hport
    · exact absurd (.inr ⟨hhost, hport⟩) h
    · cases a
      cases b
      exact absurd (by simp_all) hne
    · exact .inr ⟨hhost.symm, hport⟩
  · exact .inl hhost

/-! ### Sets -/

/-- Putting an endpoint into a strictly ascending list leaves it strictly ascending. -/
theorem pairwise_insert (e : Endpoint) {es : List Endpoint} (h : es.Pairwise (· < ·)) :
    (insert e es).Pairwise (· < ·) := by
  induction es with
  | nil => exact List.pairwise_singleton _ _
  | cons f r ih =>
    obtain ⟨hf, hr⟩ := List.pairwise_cons.mp h
    unfold insert
    split
    · rename_i hlt
      refine List.pairwise_cons.mpr ⟨fun g hg => ?_, h⟩
      rcases List.mem_cons.mp hg with rfl | hg
      · exact hlt
      · exact lt_trans hlt (hf g hg)
    · rename_i hnot
      split
      · exact h
      · rename_i hne
        refine List.pairwise_cons.mpr ⟨fun g hg => ?_, ih hr⟩
        rcases mem_insert.mp hg with rfl | hg
        · exact lt_of_not_lt hne hnot
        · exact hf g hg

/-- The endpoints of a set are strictly ascending. -/
theorem pairwise_sortedSet (es : List Endpoint) : (sortedSet es).Pairwise (· < ·) := by
  induction es with
  | nil => exact List.Pairwise.nil
  | cons e r ih => exact pairwise_insert e ih

/-- A strictly ascending list has no duplicates. -/
theorem nodup_of_pairwise {es : List Endpoint} (h : es.Pairwise (· < ·)) : es.Nodup :=
  h.imp ne_of_lt

end Endpoint

namespace Discovery

/-! ### Answers -/

/-- A new answer takes the place of an earlier one of the same endpoint, and of no other. -/
theorem mem_insertFound {f g : Found} {l : List Found}
    (h : (l.map (·.endpoint)).Pairwise (· < ·)) :
    g ∈ insertFound f l ↔ g = f ∨ g ∈ l ∧ g.endpoint ≠ f.endpoint := by
  induction l with
  | nil => simp [insertFound]
  | cons first r ih =>
    obtain ⟨hfirst, hr⟩ := List.pairwise_cons.mp h
    have hafter : ∀ g ∈ r, first.endpoint < g.endpoint := fun g hg =>
      hfirst _ (List.mem_map_of_mem hg)
    unfold insertFound
    split
    · rename_i heq
      have hr : ∀ g ∈ r, g.endpoint ≠ f.endpoint := fun g hg =>
        heq ▸ (Endpoint.ne_of_lt (hafter g hg)).symm
      grind
    · rename_i hne
      split
      · rename_i hlt
        have hr : ∀ g ∈ r, g.endpoint ≠ f.endpoint := fun g hg =>
          (Endpoint.ne_of_lt (Endpoint.lt_trans hlt (hafter g hg))).symm
        grind
      · rw [List.mem_cons, ih hr]
        grind

/-- Answers stay in the order of their endpoints. -/
theorem pairwise_insertFound (f : Found) {l : List Found}
    (h : (l.map (·.endpoint)).Pairwise (· < ·)) :
    ((insertFound f l).map (·.endpoint)).Pairwise (· < ·) := by
  induction l with
  | nil => exact List.pairwise_singleton _ _
  | cons first r ih =>
    obtain ⟨hfirst, hr⟩ := List.pairwise_cons.mp h
    unfold insertFound
    split
    · rename_i heq
      refine List.pairwise_cons.mpr ⟨fun e he => ?_, hr⟩
      show f.endpoint < e
      rw [heq]
      exact hfirst e he
    · rename_i hne
      split
      · rename_i hlt
        refine List.pairwise_cons.mpr ⟨fun e he => ?_, h⟩
        rcases List.mem_cons.mp he with rfl | he
        · exact hlt
        · exact Endpoint.lt_trans hlt (hfirst e he)
      · rename_i hnot
        refine List.pairwise_cons.mpr ⟨fun e he => ?_, ih hr⟩
        obtain ⟨g, hg, rfl⟩ := List.mem_map.mp he
        rcases (mem_insertFound hr).mp hg with rfl | ⟨hg, -⟩
        · exact Endpoint.lt_of_not_lt hne hnot
        · exact hfirst _ (List.mem_map_of_mem hg)

end Discovery

end TxLoad
