import Mathlib.Logic.Function.Basic

/-!
# Values handed out by move

A loop gives one object to every key in turn, by a move that leaves something else in its place.
Only the first key is sure to get the object as it was.
-/

namespace Eloth.HandOut

variable {κ α ν : Type*} {moved : α → α} {a : α} {keys : List κ}

/-- The keys with what each is given. -/
def handed (moved : α → α) : List κ → α → List (κ × α)
  | [], _ => []
  | k :: keys, a => (k, a) :: handed moved keys (moved a)

/-- After the first move the object stays what it has become. -/
theorem mem_handed_of_fixed (h : moved a = a) {p : κ × α} (hp : p ∈ handed moved keys a) :
    p.1 ∈ keys ∧ p.2 = a := by
  induction keys with
  | nil => cases hp
  | cons k keys ih =>
    rw [handed, h] at hp
    rcases List.mem_cons.mp hp with rfl | hrest
    · exact ⟨List.mem_cons_self, rfl⟩
    · exact ⟨List.mem_cons_of_mem _ (ih hrest).1, (ih hrest).2⟩

theorem exists_handed {k : κ} (h : k ∈ keys) : ∃ b, (k, b) ∈ handed moved keys a := by
  induction keys generalizing a with
  | nil => cases h
  | cons k' keys ih =>
    rcases List.mem_cons.mp h with rfl | hrest
    · exact ⟨a, List.mem_cons_self⟩
    · obtain ⟨b, hb⟩ := ih (a := moved a) hrest
      exact ⟨b, List.mem_cons_of_mem _ hb⟩

/-- All get the object exactly when there is one at most, or the move leaves the object. -/
theorem forall_handed_iff : (∀ p ∈ handed moved keys a, p.2 = a) ↔
    keys.length ≤ 1 ∨ moved a = a := by
  constructor
  · intro h
    cases keys with
    | nil => exact .inl (Nat.zero_le 1)
    | cons k keys =>
      cases keys with
      | nil => exact .inl (Nat.le_refl 1)
      | cons k' keys =>
        exact .inr (h (k', moved a) (List.mem_cons_of_mem _ List.mem_cons_self))
  · intro h p hp
    rcases h with hone | hfixed
    · cases keys with
      | nil => cases hp
      | cons k keys =>
        obtain rfl : keys = [] := List.eq_nil_of_length_eq_zero (Nat.le_zero.mp
          (Nat.succ_le_succ_iff.mp hone))
        rw [List.mem_singleton.mp hp]
    · exact (mem_handed_of_fixed hfixed hp).2

theorem map_fst_handed : (handed moved keys a).map Prod.fst = keys := by
  induction keys generalizing a with
  | nil => rfl
  | cons k keys ih => rw [handed, List.map_cons, ih]

/-! ## Into a map -/

variable [DecidableEq κ]

def put (entry : α → ν) (pairs : List (κ × α)) (map : κ → ν) : κ → ν :=
  pairs.foldl (fun map p => Function.update map p.1 (entry p.2)) map

theorem put_of_not_mem {entry : α → ν} {pairs : List (κ × α)} {map : κ → ν} {k : κ}
    (h : k ∉ pairs.map Prod.fst) : put entry pairs map k = map k := by
  induction pairs generalizing map with
  | nil => rfl
  | cons p pairs ih =>
    rw [List.map_cons, List.mem_cons, not_or] at h
    exact (ih h.2).trans (Function.update_of_ne h.1 _ _)

/-- With distinct keys every one keeps what it has been given. -/
theorem put_of_mem {entry : α → ν} {pairs : List (κ × α)} {map : κ → ν} {p : κ × α}
    (hkeys : (pairs.map Prod.fst).Nodup) (h : p ∈ pairs) :
    put entry pairs map p.1 = entry p.2 := by
  induction pairs generalizing map with
  | nil => cases h
  | cons q pairs ih =>
    rw [List.map_cons, List.nodup_cons] at hkeys
    rcases List.mem_cons.mp h with rfl | hrest
    · exact (put_of_not_mem hkeys.1).trans (Function.update_self _ _ _)
    · exact ih hkeys.2 hrest

/-- Every key of a loop over distinct keys holds the object, exactly when it was handed out. -/
theorem forall_put_iff (moved : α → α) (a : α) {entry : α → ν} (map : κ → ν)
    (hentry : Function.Injective entry) (hkeys : keys.Nodup) :
    (∀ k ∈ keys, put entry (handed moved keys a) map k = entry a) ↔
      keys.length ≤ 1 ∨ moved a = a := by
  have hnodup : ((handed moved keys a).map Prod.fst).Nodup := by rwa [map_fst_handed]
  rw [← forall_handed_iff]
  constructor
  · intro h p hp
    have hkey : p.1 ∈ keys := by
      rw [← @map_fst_handed κ α moved a keys]
      exact List.mem_map_of_mem hp
    exact hentry ((put_of_mem hnodup hp).symm.trans (h p.1 hkey))
  · intro h k hk
    obtain ⟨b, hb⟩ := @exists_handed κ α moved a keys k hk
    rw [put_of_mem (p := (k, b)) hnodup hb, h (k, b) hb]

end Eloth.HandOut
