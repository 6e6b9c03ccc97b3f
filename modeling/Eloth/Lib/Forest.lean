import Mathlib.Data.Finset.Card
import Mathlib.Data.Finset.Range
import Mathlib.Logic.Relation

/-!
# Forests given by a parent function

Each node names at most one parent. The forest is acyclic when no chain of parents returns to
its start. Linking a root below a node outside its own tree and unlinking a node keep it so,
and in a finite forest the chains have bounded length.
-/

namespace Eloth.Forest

variable {α : Type*}

def IsParent (parent : α → Option α) (a b : α) : Prop := parent b = some a

def Above (parent : α → Option α) : α → α → Prop := Relation.TransGen (IsParent parent)

def AboveOrSelf (parent : α → Option α) : α → α → Prop :=
  Relation.ReflTransGen (IsParent parent)

def Acyclic (parent : α → Option α) : Prop := ∀ a, ¬ Above parent a a

variable {parent parent' : α → Option α}

theorem Acyclic.mono (h : Acyclic parent) (hle : ∀ a b, parent' b = some a → parent b = some a) :
    Acyclic parent' := by
  intro a ha
  exact h a (Relation.TransGen.mono (fun _ _ hxy => hle _ _ hxy) a a ha)

theorem Acyclic.unlink [DecidableEq α] (h : Acyclic parent) (r : α) :
    Acyclic (Function.update parent r none) := by
  apply h.mono
  intro a b hab
  by_cases hb : b = r
  · subst hb
    simp at hab
  · simpa [Function.update_of_ne hb] using hab

theorem above_link [DecidableEq α] {r c a b : α} (hrc : ¬ AboveOrSelf parent r c)
    (h : Above (Function.update parent r (some c)) a b) :
    Above parent a b ∨ (AboveOrSelf parent a c ∧ AboveOrSelf parent r b) := by
  induction h with
  | @single b hab =>
    by_cases hb : b = r
    · subst hb
      have : c = a := by simpa [IsParent] using hab
      subst this
      exact .inr ⟨.refl, .refl⟩
    · exact .inl (.single (by simpa [IsParent, Function.update_of_ne hb] using hab))
  | @tail b d _ hbd ih =>
    by_cases hd : d = r
    · subst hd
      have : c = b := by simpa [IsParent] using hbd
      subst this
      rcases ih with hab | ⟨_, hr⟩
      · exact .inr ⟨Relation.TransGen.to_reflTransGen hab, .refl⟩
      · exact absurd hr hrc
    · have hstep : IsParent parent b d := by
        simpa [IsParent, Function.update_of_ne hd] using hbd
      rcases ih with hab | ⟨hac, hrb⟩
      · exact .inl (hab.tail hstep)
      · exact .inr ⟨hac, hrb.tail hstep⟩

theorem Acyclic.link [DecidableEq α] (h : Acyclic parent) {r c : α}
    (hrc : ¬ AboveOrSelf parent r c) : Acyclic (Function.update parent r (some c)) := by
  intro a ha
  rcases above_link hrc ha with hold | ⟨hac, hra⟩
  · exact h a hold
  · exact hrc (hra.trans hac)

/-! ## Bounded chains -/

/-- Climbing from a node ends within the given number of nodes. -/
def Stops (parent : α → Option α) : Nat → α → Prop
  | 0, _ => False
  | n + 1, a => ∀ b, parent a = some b → Stops parent n b

theorem Stops.mono {n m : Nat} {a : α} (h : Stops parent n a) (hnm : n ≤ m) :
    Stops parent m a := by
  induction n generalizing m a with
  | zero => exact h.elim
  | succ n ih =>
    obtain ⟨m, rfl⟩ : ∃ k, m = k + 1 := ⟨m - 1, by omega⟩
    intro b hb
    exact ih (h b hb) (by omega)

section Finite

variable {parent : Nat → Option Nat} {n : Nat}

open Classical in
private noncomputable def ancestors (parent : Nat → Option Nat) (n a : Nat) : Finset Nat :=
  (Finset.range n).filter fun b => Above parent b a

open Classical in
private noncomputable def descendants (parent : Nat → Option Nat) (n a : Nat) : Finset Nat :=
  (Finset.range n).filter fun b => Above parent a b

private theorem ancestors_card_le (a : Nat) : (ancestors parent n a).card ≤ n := by
  classical
  exact (Finset.card_le_card (Finset.filter_subset _ _)).trans_eq (Finset.card_range n)

private theorem descendants_card_le (a : Nat) : (descendants parent n a).card ≤ n := by
  classical
  exact (Finset.card_le_card (Finset.filter_subset _ _)).trans_eq (Finset.card_range n)

private theorem ancestors_card_lt (hac : Acyclic parent)
    (hbound : ∀ a b, parent a = some b → b < n) {a b : Nat} (hab : parent a = some b) :
    (ancestors parent n b).card < (ancestors parent n a).card := by
  apply Finset.card_lt_card
  rw [Finset.ssubset_iff_of_subset]
  · refine ⟨b, ?_, ?_⟩
    · simp only [ancestors, Finset.mem_filter, Finset.mem_range]
      exact ⟨hbound a b hab, .single hab⟩
    · simp only [ancestors, Finset.mem_filter, not_and]
      exact fun _ => hac b
  · intro x hx
    simp only [ancestors, Finset.mem_filter] at hx ⊢
    exact ⟨hx.1, hx.2.tail hab⟩

theorem Acyclic.stops (hac : Acyclic parent) (hbound : ∀ a b, parent a = some b → b < n)
    (a : Nat) : Stops parent (n + 1) a := by
  have key : ∀ k a, (ancestors parent n a).card < k → Stops parent k a := by
    intro k
    induction k with
    | zero => intro a h; omega
    | succ k ih =>
      intro a h b hab
      have := ancestors_card_lt hac hbound hab
      exact ih b (by omega)
  exact key _ a (Nat.lt_succ_of_le (ancestors_card_le a))

private theorem descendants_card_lt (hac : Acyclic parent)
    (hbound : ∀ a b, parent a = some b → a < n) {a b : Nat} (hab : parent b = some a) :
    (descendants parent n b).card < (descendants parent n a).card := by
  apply Finset.card_lt_card
  rw [Finset.ssubset_iff_of_subset]
  · refine ⟨b, ?_, ?_⟩
    · simp only [descendants, Finset.mem_filter, Finset.mem_range]
      exact ⟨hbound b a hab, .single hab⟩
    · simp only [descendants, Finset.mem_filter, not_and]
      exact fun _ => hac b
  · intro x hx
    simp only [descendants, Finset.mem_filter] at hx ⊢
    exact ⟨hx.1, Relation.TransGen.head hab hx.2⟩

/-- Induction from the leaves: with `k + 1` levels allowed, the children have `k`. -/
theorem Acyclic.down_induction (hac : Acyclic parent)
    (hbound : ∀ a b, parent a = some b → a < n) {P : Nat → Nat → Prop}
    (step : ∀ k a, (∀ b, parent b = some a → P k b) → P (k + 1) a) {k : Nat} (hk : n < k)
    (a : Nat) : P k a := by
  have key : ∀ k a, (descendants parent n a).card < k → P k a := by
    intro k
    induction k with
    | zero => intro a h; omega
    | succ k ih =>
      intro a h
      apply step
      intro b hab
      have := descendants_card_lt hac hbound hab
      exact ih b (by omega)
  exact key k a (lt_of_le_of_lt (descendants_card_le a) hk)

end Finite

end Eloth.Forest
