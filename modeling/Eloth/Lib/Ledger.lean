import Mathlib.Algebra.BigOperators.Group.Finset.Basic
import Mathlib.Tactic.Ring

/-!
# Ledgers

Numbered objects of some kind, each with a number of units, lie at places or nowhere. The total
of a region is the value of the units that lie in it. Every operation changes one object, and
the total by the change in the share of that object.
-/

namespace Eloth

structure Ledger (π κ : Type*) where
  size : Nat
  place : Nat → Option π
  kind : Nat → κ
  units : Nat → Nat

namespace Ledger

variable {π κ : Type*}

/-- What an object adds to the total of a region. -/
def share (L : Ledger π κ) (region : π → Bool) (value : κ → Nat) (i : Nat) : Nat :=
  if (L.place i).any region then value (L.kind i) * L.units i else 0

def total (L : Ledger π κ) (region : π → Bool) (value : κ → Nat) : Nat :=
  ∑ i ∈ Finset.range L.size, L.share region value i

def only [DecidableEq κ] (k : κ) : κ → Nat := fun kind => if kind = k then 1 else 0

/-! ## Operations -/

def move (L : Ledger π κ) (i : Nat) (p : Option π) : Ledger π κ :=
  { L with place := Function.update L.place i p }

def recount (L : Ledger π κ) (i n : Nat) : Ledger π κ :=
  { L with units := Function.update L.units i n }

def add (L : Ledger π κ) (k : κ) (n : Nat) : Ledger π κ where
  size := L.size + 1
  place := Function.update L.place L.size none
  kind := Function.update L.kind L.size k
  units := Function.update L.units L.size n

variable {L L' : Ledger π κ} {region : π → Bool} {value : κ → Nat} {i j n : Nat} {k : κ}
  {p : Option π}

/-! ## Shares -/

theorem share_of_nowhere (h : L.place i = none) : L.share region value i = 0 := by
  simp [share, h]

theorem share_add_ne (h : j ≠ L.size) :
    (L.add k n).share region value j = L.share region value j := by
  simp [share, add, h]

/-! ## Totals -/

@[simp] theorem total_add : (L.add k n).total region value = L.total region value := by
  unfold total
  rw [show (L.add k n).size = L.size + 1 from rfl, Finset.sum_range_succ,
    share_of_nowhere (by simp [add]), add_zero]
  exact Finset.sum_congr rfl fun j hj => share_add_ne (Finset.mem_range.mp hj).ne

end Ledger

end Eloth
