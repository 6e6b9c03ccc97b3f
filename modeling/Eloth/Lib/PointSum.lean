import Mathlib.Algebra.BigOperators.Group.List.Basic

/-!
# Sums that change at one point

A sum over a list without repetitions moves by the change at one point if the list contains
the point, and stays otherwise.
-/

namespace Eloth.PointSum

variable {α M : Type*} [AddCommMonoid M] {f g : α → M} {a : α} {d : M}

theorem sum_map_of_not_mem {l : List α} (ha : a ∉ l) (hne : ∀ x, x ≠ a → g x = f x) :
    (l.map g).sum = (l.map f).sum := by
  congr 1
  apply List.map_congr_left
  intro x hx
  exact hne x fun h => ha (h ▸ hx)

theorem sum_map_add [DecidableEq α] {l : List α} (hl : l.Nodup) (ha : g a = f a + d)
    (hne : ∀ x, x ≠ a → g x = f x) :
    (l.map g).sum = (l.map f).sum + if a ∈ l then d else 0 := by
  induction l with
  | nil => simp
  | cons x l ih =>
    obtain ⟨hx, hl⟩ := List.nodup_cons.mp hl
    by_cases hxa : x = a
    · subst hxa
      simp only [List.map_cons, List.sum_cons, List.mem_cons, true_or, if_true,
        sum_map_of_not_mem hx hne, ha]
      exact add_right_comm _ _ _
    · have hmem : (a ∈ x :: l) = (a ∈ l) := by
        simp [Ne.symm hxa]
      rw [List.map_cons, List.sum_cons, List.map_cons, List.sum_cons, ih hl, hne x hxa, ← add_assoc]
      simp only [hmem]

end Eloth.PointSum
