import Mathlib.Data.List.Nodup
import Mathlib.Data.List.Range
import Mathlib.Logic.Function.Basic

/-!
# Loops over an array

Arrays are functions of the index. A loop that moves entries to a neighbouring index in place
shifts them, and a loop that writes to an entry leaves what it wrote there.
-/

namespace Eloth.InPlace

variable {α β κ σ : Type*}

/-- The indices of `for (i = a; i <= b; ++i)`. -/
def fromTo (a b : Int) : List Int := (List.range (b + 1 - a).toNat).map fun i : Nat => a + i

@[simp] theorem mem_fromTo {a b i : Int} : i ∈ fromTo a b ↔ a ≤ i ∧ i ≤ b := by
  simp only [fromTo, List.mem_map, List.mem_range]
  constructor
  · rintro ⟨k, hk, rfl⟩
    omega
  · intro hi
    exact ⟨(i - a).toNat, by omega, by omega⟩

theorem nodup_fromTo (a b : Int) : (fromTo a b).Nodup := by
  refine List.Nodup.map ?_ List.nodup_range
  intro i j hij
  have hcast : a + (i : Int) = a + j := hij
  omega

theorem fromTo_cons {a b : Int} (h : a ≤ b) : fromTo a b = a :: fromTo (a + 1) b := by
  have hlen : (b + 1 - a).toNat = (b + 1 - (a + 1)).toNat + 1 := by omega
  simp only [fromTo, hlen, List.range_succ_eq_map, List.map_cons, List.map_map]
  refine congrArg₂ List.cons (by simp) (List.map_congr_left fun i _ => ?_)
  simp only [Function.comp_apply, Nat.succ_eq_add_one]
  omega

theorem fromTo_eq_nil {a b : Int} (h : b < a) : fromTo a b = [] := by
  have hlen : (b + 1 - a).toNat = 0 := by omega
  simp [fromTo, hlen]

/-- Every entry takes the value of the entry after it, from the front to the back. -/
theorem foldl_shiftBack (f : Int → α) (a b : Int) :
    (fromTo a b).foldl (fun f i => Function.update f i (f (i + 1))) f =
      fun j => if a ≤ j ∧ j ≤ b then f (j + 1) else f j := by
  obtain ⟨n, hn⟩ : ∃ n, (b + 1 - a).toNat = n := ⟨_, rfl⟩
  induction n generalizing a f with
  | zero =>
    rw [fromTo_eq_nil (by omega)]
    funext j
    rw [List.foldl_nil, if_neg (by omega)]
  | succ n ih =>
    rw [fromTo_cons (by omega), List.foldl_cons, ih _ _ (by omega)]
    funext j
    by_cases hj : j = a
    · subst hj
      rw [if_neg (by omega), if_pos (by omega), Function.update_self]
    · rw [Function.update_of_ne hj]
      by_cases hin : a ≤ j ∧ j ≤ b
      · rw [if_pos (by omega), if_pos hin, Function.update_of_ne (by omega)]
      · rw [if_neg (by omega), if_neg hin]

/-- Every entry takes the value of the entry before it, from the back to the front. -/
theorem foldl_shiftOn (f : Int → α) (a b : Int) :
    (fromTo a b).reverse.foldl (fun f i => Function.update f (i + 1) (f i)) f =
      fun j => if a < j ∧ j ≤ b + 1 then f (j - 1) else f j := by
  obtain ⟨n, hn⟩ : ∃ n, (b + 1 - a).toNat = n := ⟨_, rfl⟩
  induction n generalizing a with
  | zero =>
    rw [fromTo_eq_nil (by omega)]
    funext j
    rw [List.reverse_nil, List.foldl_nil, if_neg (by omega)]
  | succ n ih =>
    rw [fromTo_cons (by omega), List.reverse_cons, List.foldl_append, ih _ (by omega)]
    funext j
    simp only [List.foldl_cons, List.foldl_nil]
    by_cases hj : j = a + 1
    · subst hj
      rw [Function.update_self, if_neg (by omega), if_pos (by omega), Int.add_sub_cancel]
    · rw [Function.update_of_ne hj]
      by_cases hin : a < j ∧ j ≤ b + 1
      · rw [if_pos (by omega), if_pos hin]
      · rw [if_neg (by omega), if_neg hin]

/-- A loop that changes every entry of the list once. -/
theorem foldl_modify [DecidableEq κ] {l : List κ} (hl : l.Nodup) (g : α → α) (f : κ → α) :
    l.foldl (fun f k => Function.update f k (g (f k))) f =
      fun k => if k ∈ l then g (f k) else f k := by
  induction l generalizing f with
  | nil => simp
  | cons k l ih =>
    obtain ⟨hk, hl⟩ := List.nodup_cons.mp hl
    rw [List.foldl_cons, ih hl]
    funext j
    by_cases hj : j = k
    · subst hj
      rw [if_neg hk, if_pos List.mem_cons_self, Function.update_self]
    · simp [hj]

variable {l : List κ} {step : σ → κ → σ} {v : β} {s : σ}

theorem inv_foldl (inv : σ → Prop) (hinv : ∀ s k, inv s → inv (step s k)) (h : inv s) :
    inv (l.foldl step s) := by
  induction l generalizing s with
  | nil => exact h
  | cons k l ih => exact ih (hinv s k h)

theorem read_foldl_of_forall_not {inv : σ → Prop} (read : σ → β) (hit : κ → Prop)
    (hinv : ∀ s k, inv s → inv (step s k))
    (hmiss : ∀ s k, inv s → ¬hit k → read (step s k) = read s) (hnone : ∀ k ∈ l, ¬hit k)
    (h : inv s) : read (l.foldl step s) = read s := by
  induction l generalizing s with
  | nil => rfl
  | cons k l ih =>
    rw [List.foldl_cons, ih (fun k hk => hnone k (List.mem_cons_of_mem _ hk)) (hinv s k h),
      hmiss s k h (hnone k List.mem_cons_self)]

/-- A loop whose writes to an entry all write the same value. -/
theorem read_foldl_of_exists {inv : σ → Prop} (read : σ → β) (hit : κ → Prop)
    (hinv : ∀ s k, inv s → inv (step s k))
    (hhit : ∀ s k, inv s → hit k → read (step s k) = v)
    (hmiss : ∀ s k, inv s → ¬hit k → read (step s k) = read s) (hsome : ∃ k ∈ l, hit k)
    (h : inv s) : read (l.foldl step s) = v := by
  induction l generalizing s with
  | nil => simp at hsome
  | cons k l ih =>
    rw [List.foldl_cons]
    by_cases hlater : ∃ k ∈ l, hit k
    · exact ih hlater (hinv s k h)
    · have hk : hit k := by
        obtain ⟨k', hk', hkhit⟩ := hsome
        rcases List.mem_cons.mp hk' with rfl | hk'
        · exact hkhit
        · exact absurd ⟨k', hk', hkhit⟩ hlater
      rw [read_foldl_of_forall_not read hit hinv hmiss (fun k' hk' hkhit => hlater ⟨k', hk', hkhit⟩)
        (hinv s k h), hhit s k h hk]

end Eloth.InPlace
