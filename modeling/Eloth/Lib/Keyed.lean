import Mathlib.Data.List.Basic
import Mathlib.Logic.Function.Basic

/-!
# Machines kept by key

A machine answers each input and goes to a new state. A keyed machine has one state for every key,
and an input of a key meets the state of that key only.
-/

namespace Eloth

/-- The answer to an input and the state after it; without a state for the first input. -/
abbrev Machine (σ ι ο : Type*) := Option σ → ι → ο × σ

namespace Machine

variable {σ ι ο κ : Type*} (m : Machine σ ι ο)

def after : Option σ → List ι → Option σ
  | s, [] => s
  | s, i :: is => after (some (m s i).2) is

/-- The inputs with their answers. -/
def outputs : Option σ → List ι → List (ι × ο)
  | _, [] => []
  | s, i :: is => (i, (m s i).1) :: outputs (some (m s i).2) is

@[simp] theorem outputs_length (s : Option σ) (is : List ι) :
    (m.outputs s is).length = is.length := by
  induction is generalizing s with
  | nil => rfl
  | cons i is ih => simp [outputs, ih]

theorem outputs_map_fst (s : Option σ) (is : List ι) : (m.outputs s is).map Prod.fst = is := by
  induction is generalizing s with
  | nil => rfl
  | cons i is ih => simp [outputs, ih]

theorem outputs_append (s : Option σ) (is js : List ι) :
    m.outputs s (is ++ js) = m.outputs s is ++ m.outputs (m.after s is) js := by
  induction is generalizing s with
  | nil => rfl
  | cons i is ih => rw [List.cons_append, outputs, outputs, ih, List.cons_append, after]

/-- A part of the outputs comes from a part of the inputs. -/
theorem outputs_split {s : Option σ} {is : List ι} {pre rest : List (ι × ο)}
    (h : m.outputs s is = pre ++ rest) :
    is = pre.map Prod.fst ++ rest.map Prod.fst ∧
      m.outputs (m.after s (pre.map Prod.fst)) (rest.map Prod.fst) = rest := by
  have his : is = pre.map Prod.fst ++ rest.map Prod.fst := by
    rw [← m.outputs_map_fst s is, h, List.map_append]
  refine ⟨his, ?_⟩
  rw [his, outputs_append] at h
  exact (List.append_inj h (by simp)).2

/-! ## Keys -/

variable [DecidableEq κ]

/-- The states after an input of a key. -/
def next (s : κ → Option σ) (i : κ × ι) : κ → Option σ :=
  Function.update s i.1 (some (m (s i.1) i.2).2)

def keyedAfter (s : κ → Option σ) (is : List (κ × ι)) : κ → Option σ := is.foldl m.next s

def keyedOutputs : (κ → Option σ) → List (κ × ι) → List (κ × ι × ο)
  | _, [] => []
  | s, i :: is => (i.1, i.2, (m (s i.1) i.2).1) :: keyedOutputs (m.next s i) is

/-- The part of a list that belongs to a key. -/
def own {α : Type*} (k : κ) (l : List (κ × α)) : List α :=
  (l.filter fun i => i.1 = k).map Prod.snd

@[simp] theorem own_nil {α : Type*} (k : κ) : own k ([] : List (κ × α)) = [] := rfl

theorem own_cons_self {α : Type*} (k : κ) (a : α) (l : List (κ × α)) :
    own k ((k, a) :: l) = a :: own k l := by simp [own]

theorem own_cons_ne {α : Type*} {k k' : κ} (h : k' ≠ k) (a : α) (l : List (κ × α)) :
    own k ((k', a) :: l) = own k l := by simp [own, h]

/-- The answers for a key are those of a machine that sees the inputs of the key alone. -/
theorem own_keyedOutputs (s : κ → Option σ) (is : List (κ × ι)) (k : κ) :
    own k (m.keyedOutputs s is) = m.outputs (s k) (own k is) := by
  induction is generalizing s with
  | nil => rfl
  | cons i is ih =>
    obtain ⟨k', i⟩ := i
    rw [keyedOutputs]
    by_cases hk : k' = k
    · subst hk
      rw [own_cons_self, own_cons_self, outputs, ih, next, Function.update_self]
    · rw [own_cons_ne hk, own_cons_ne hk, ih, next, Function.update_of_ne (Ne.symm hk)]

end Machine

end Eloth
