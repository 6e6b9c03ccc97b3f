import Mathlib.Tactic.TypeStar
import Mathlib.Tactic.SplitIfs

/-!
# Links between neighbours

Places hold objects, and every object links to the object on the next place. An object that is
put on a free place gets linked when it looks at the place after it and the place before it.
-/

namespace Eloth.Links

variable {P α : Type*} {same : P → P → Prop} {g g' : P → Option α} {next prev : P → P}
  {link link' : α → Option α} {p₀ : P} {a₀ : α}

/-- Places are equal up to `same`, `next` and `prev` are inverse to each other, and no place is
its own neighbour. -/
structure Neighbours (same : P → P → Prop) (next prev : P → P) : Prop where
  equiv : Equivalence same
  adjoint : ∀ p q, same (next p) q ↔ same p (prev q)
  next_ne : ∀ p, ¬same p (next p)

/-- The objects lie on different places. -/
structure Placed (same : P → P → Prop) (g : P → Option α) : Prop where
  congr : ∀ {p q}, same p q → g p = g q
  inj : ∀ {p q a}, g p = some a → g q = some a → same p q

theorem Neighbours.next_congr (h : Neighbours same next prev) {p q : P} (hpq : same p q) :
    same (next p) (next q) :=
  (h.adjoint p (next q)).mpr
    (h.equiv.trans hpq ((h.adjoint q (next q)).mp (h.equiv.refl (next q))))

theorem Neighbours.prev_ne (h : Neighbours same next prev) (p : P) : ¬same p (prev p) := by
  intro hp
  exact h.next_ne p (h.equiv.symm ((h.adjoint p p).mpr hp))

theorem relink [DecidableEq α] [DecidableRel same] (hN : Neighbours same next prev)
    (hP : Placed same g) (hfresh : ∀ p, g p ≠ some a₀)
    (hg' : ∀ p, g' p = if same p₀ p then some a₀ else g p)
    (hlink : ∀ {p a}, g p = some a → link a = g (next p))
    (hlink' : ∀ a, link' a = if a = a₀ ∧ (g' (next p₀)).isSome then g' (next p₀)
      else if g' (prev p₀) = some a then some a₀ else if a = a₀ then none else link a)
    {p : P} {a : α} (ha : g' p = some a) : link' a = g' (next p) := by
  have hnext : g' (next p₀) = g (next p₀) := by rw [hg', if_neg (hN.next_ne p₀)]
  have hprev : g' (prev p₀) = g (prev p₀) := by rw [hg', if_neg (hN.prev_ne p₀)]
  rw [hlink', hnext, hprev]
  rw [hg'] at ha
  split_ifs at ha with hp
  · -- the new object finds its neighbour, or none
    cases ha
    have hp' : ¬same p₀ (next p) := fun h =>
      hN.next_ne p (hN.equiv.trans (hN.equiv.symm hp) h)
    rw [hg', if_neg hp', ← hP.congr (hN.next_congr hp), if_neg (hfresh _), if_pos rfl]
    cases g (next p₀) <;> simp
  · have hne : a ≠ a₀ := fun h => hfresh p (h ▸ ha)
    rw [if_neg (fun h => hne h.1), if_neg hne, hg']
    by_cases hbefore : g (prev p₀) = some a
    · -- the object before the new one
      have hsame : same p₀ (next p) :=
        hN.equiv.symm ((hN.adjoint p p₀).mpr (hP.inj ha hbefore))
      rw [if_pos hbefore, if_pos hsame]
    · have hsame : ¬same p₀ (next p) := fun h =>
        hbefore ((hP.congr ((hN.adjoint p p₀).mp (hN.equiv.symm h))).symm.trans ha)
      rw [if_neg hbefore, if_neg hsame, hlink ha]

end Eloth.Links
