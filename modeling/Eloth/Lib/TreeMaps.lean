import Mathlib.Data.List.Nodup
import Std.Data.TreeMap.Lemmas

/-!
# Filling an ordered map

A map filled by assignments to different keys lists them in the order of the keys, in whichever
order they were made.
-/

namespace Eloth.TreeMaps

variable {β : Type*}

def assign (m : Std.TreeMap Nat β) (entries : List (Nat × β)) : Std.TreeMap Nat β :=
  entries.foldl (fun m entry => m.insert entry.1 entry.2) m

theorem getElem?_assign {entries : List (Nat × β)} (hnodup : (entries.map (·.1)).Nodup)
    (m : Std.TreeMap Nat β) (key : Nat) (value : β) :
    (assign m entries)[key]? = some value ↔
      (key, value) ∈ entries ∨ key ∉ entries.map (·.1) ∧ m[key]? = some value := by
  induction entries generalizing m with
  | nil => simp [assign]
  | cons entry entries ih =>
    obtain ⟨k, v⟩ := entry
    simp only [List.map_cons, List.nodup_cons] at hnodup
    have hstep : assign m ((k, v) :: entries) = assign (m.insert k v) entries := rfl
    rw [hstep, ih hnodup.2, Std.TreeMap.getElem?_insert, List.mem_cons, List.map_cons,
      List.mem_cons]
    by_cases hk : k = key
    · subst hk
      have hnone : (k, value) ∉ entries := fun hmem =>
        hnodup.1 (List.mem_map_of_mem (f := Prod.fst) hmem)
      simp [hnone, hnodup.1, eq_comm]
    · have hk' : key ≠ k := Ne.symm hk
      simp [hk, hk']

/-- The entries of the filled map are those assigned, by ascending keys. -/
theorem toList_assign_empty {entries sorted : List (Nat × β)} (hperm : entries.Perm sorted)
    (hsorted : (sorted.map (·.1)).Pairwise (· < ·)) : (assign ∅ entries).toList = sorted := by
  have hnodup : (entries.map (·.1)).Nodup :=
    ((hperm.map _).nodup_iff).mpr (hsorted.imp fun h => Nat.ne_of_lt h)
  have hlt : sorted.Pairwise fun a b => a.1 < b.1 := List.pairwise_map.mp hsorted
  have hkeys : (assign ∅ entries).toList.Pairwise fun a b => a.1 < b.1 :=
    (Std.TreeMap.ordered_keys_toList).imp fun h => Nat.compare_eq_lt.mp h
  have hirrefl (l : List (Nat × β)) (hl : l.Pairwise fun a b => a.1 < b.1) : l.Nodup :=
    List.Nodup.of_map Prod.fst ((List.pairwise_map.mpr hl).imp fun h => Nat.ne_of_lt h)
  refine List.Perm.eq_of_pairwise (fun a b _ _ hab hba => ?_) hkeys hlt ?_
  · exact absurd hba (Nat.lt_asymm hab)
  · refine (List.perm_ext_iff_of_nodup (hirrefl _ hkeys) (hirrefl _ hlt)).mpr fun entry => ?_
    obtain ⟨k, v⟩ := entry
    rw [Std.TreeMap.mem_toList_iff_getElem?_eq_some, getElem?_assign hnodup]
    simp [hperm.mem_iff]

end Eloth.TreeMaps
