import Mathlib.Algebra.BigOperators.Intervals
import Mathlib.Algebra.Order.BigOperators.Group.Finset
import Mathlib.Order.Interval.Finset.Nat

/-!
# Levels with requirements

A level and some units on top of it stand for a total: what all the levels above the base require,
and the units. With fewer units than the next level requires, the total has only one such form.
-/

namespace Eloth.Levels

variable (req : ℕ → ℕ) (base : ℕ)

/-- What the levels above the base require. -/
def required (level : ℕ) : ℕ := ∑ c ∈ Finset.Ioc base level, req c

def total (level units : ℕ) : ℕ := required req base level + units

variable {req base} {level level' units units' : ℕ}

theorem required_succ (h : base ≤ level) :
    required req base (level + 1) = required req base level + req (level + 1) := by
  rw [required, required, ← Nat.succ_eq_add_one, Finset.sum_Ioc_succ_top h]

theorem required_mono (h : level ≤ level') : required req base level ≤ required req base level' :=
  Finset.sum_le_sum_of_subset (Finset.Ioc_subset_Ioc_right h)

@[simp] theorem required_base : required req base base = 0 := by
  rw [required, Finset.Ioc_self, Finset.sum_empty]

theorem total_succ (h : base ≤ level) :
    total req base (level + 1) units = total req base level (req (level + 1) + units) := by
  rw [total, total, required_succ h, Nat.add_assoc]

theorem total_add (more : ℕ) :
    total req base level (units + more) = total req base level units + more := by
  rw [total, total, Nat.add_assoc]

/-- The units do not reach the next level. -/
theorem total_lt (h : base ≤ level) (hunits : units < req (level + 1)) (hlevel : level < level') :
    total req base level units < required req base level' := by
  have hle : required req base (level + 1) ≤ required req base level' := required_mono hlevel
  rw [required_succ h] at hle
  rw [total]
  omega

theorem total_inj (h : base ≤ level) (h' : base ≤ level') (hunits : units < req (level + 1))
    (hunits' : units' < req (level' + 1))
    (heq : total req base level units = total req base level' units') :
    level = level' ∧ units = units' := by
  rcases Nat.lt_trichotomy level level' with hlt | hsame | hgt
  · have hless := total_lt h hunits hlt
    rw [heq, total] at hless
    omega
  · subst hsame
    exact ⟨rfl, Nat.add_left_cancel heq⟩
  · have hless := total_lt h' hunits' hgt
    rw [← heq, total] at hless
    omega

end Eloth.Levels
