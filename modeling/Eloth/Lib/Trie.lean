import Mathlib.Logic.Function.Basic
import Mathlib.Tactic.SplitIfs

/-!
# Tries of a fixed depth

A tree whose inner nodes branch over a key and whose leaves all lie at one depth. A path gives
the key of every level, and only its keys above the leaves matter.
-/

namespace Eloth

variable {κ α : Type*}

inductive Trie (κ α : Type*) : Nat → Type _
  | null {n : Nat} : Trie κ α n
  | leaf (value : α) : Trie κ α 0
  | node {n : Nat} (child : κ → Trie κ α n) : Trie κ α (n + 1)

namespace Trie

def child {n : Nat} : Trie κ α (n + 1) → κ → Trie κ α n
  | .null, _ => .null
  | .node c, k => c k

def find : {n : Nat} → Trie κ α n → (Nat → κ) → Option α
  | 0, .leaf value, _ => some value
  | 0, .null, _ => none
  | _ + 1, t, path => find (t.child (path 0)) fun i => path (i + 1)

/-- The trie in which the path leads to a leaf, which is a fresh one when there was none. -/
def reach [DecidableEq κ] (fresh : α) : {n : Nat} → Trie κ α n → (Nat → κ) → Trie κ α n
  | 0, .leaf value, _ => .leaf value
  | 0, .null, _ => .leaf fresh
  | _ + 1, t, path =>
    .node (Function.update t.child (path 0)
      (reach fresh (t.child (path 0)) fun i => path (i + 1)))

@[simp] theorem child_null {n : Nat} (k : κ) : (null : Trie κ α (n + 1)).child k = null := rfl

@[simp] theorem child_node {n : Nat} (c : κ → Trie κ α n) (k : κ) : (node c).child k = c k := rfl

@[simp] theorem find_null {n : Nat} (path : Nat → κ) : (null : Trie κ α n).find path = none := by
  induction n generalizing path with
  | zero => rfl
  | succ n ih => exact ih _

theorem find_congr {n : Nat} (t : Trie κ α n) {path path' : Nat → κ}
    (h : ∀ i < n, path i = path' i) : t.find path = t.find path' := by
  induction n generalizing path path' with
  | zero => cases t <;> rfl
  | succ n ih =>
    have htail : ∀ i < n, path (i + 1) = path' (i + 1) := fun i hi => h (i + 1) (by omega)
    simp only [find, h 0 (by omega)]
    exact ih (t.child _) htail

theorem find_reach_self [DecidableEq κ] (fresh : α) {n : Nat} (t : Trie κ α n)
    (path : Nat → κ) : (t.reach fresh path).find path = some ((t.find path).getD fresh) := by
  induction n generalizing path with
  | zero => cases t <;> rfl
  | succ n ih =>
    simp only [reach, find, child_node, Function.update_self]
    exact ih _ _

/-- Only the paths that lead to the same leaf see a difference. -/
theorem find_reach [DecidableEq κ] (fresh : α) {n : Nat} (t : Trie κ α n)
    (path path' : Nat → κ) : (t.reach fresh path).find path' =
      if ∀ i < n, path i = path' i then some ((t.find path).getD fresh) else t.find path' := by
  split_ifs with h
  · rw [← find_congr _ h, find_reach_self]
  · induction n generalizing path path' with
    | zero => exact absurd (fun i hi => absurd hi (Nat.not_lt_zero i)) h
    | succ n ih =>
      by_cases h0 : path 0 = path' 0
      · have htail : ¬∀ i < n, path (i + 1) = path' (i + 1) := by
          intro hall
          refine h fun i hi => ?_
          cases i with
          | zero => exact h0
          | succ i => exact hall i (by omega)
        simp only [reach, find, child_node, ← h0, Function.update_self]
        exact ih _ _ _ htail
      · simp only [reach, find, child_node, Function.update_of_ne (Ne.symm h0)]

end Trie

end Eloth
