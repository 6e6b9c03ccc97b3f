import Mathlib.Data.List.Basic
import Mathlib.Data.List.Nodup
import Mathlib.Tactic.SplitIfs

/-!
# Replacing one entry of a list, or one value of a table

Also the walk of a loop that carries a state along and collects a list.
-/

namespace Eloth.ListSet

variable {α : Type*} {l : List α} {i : Nat} {a : α}

theorem set_split (h : l[i]? = some a) (b : α) :
    ∃ front back, l = front ++ a :: back ∧ l.set i b = front ++ b :: back := by
  obtain ⟨hlt, hget⟩ := List.getElem?_eq_some_iff.mp h
  refine ⟨l.take i, l.drop (i + 1), ?_, ?_⟩
  · rw [← hget, List.getElem_cons_drop, List.take_append_drop]
  · rw [List.set_eq_take_append_cons_drop, if_pos hlt]

theorem filterMap_perm_cons {β : Type*} {f g : α → Option β} {b : β} (hl : l.Nodup) (ha : a ∈ l)
    (hf : f a = none) (hg : g a = some b) (hne : ∀ x, x ≠ a → g x = f x) :
    (l.filterMap g).Perm (b :: l.filterMap f) := by
  induction l with
  | nil => cases ha
  | cons x l ih =>
    obtain ⟨hx, hl⟩ := List.nodup_cons.mp hl
    by_cases hxa : x = a
    · subst hxa
      rw [List.filterMap_cons_some hg, List.filterMap_cons_none hf]
      have hsame : l.filterMap g = l.filterMap f :=
        List.filterMap_congr fun y hy => hne y fun h => hx (h ▸ hy)
      rw [hsame]
    · have htail := ih hl ((List.mem_cons.mp ha).resolve_left (Ne.symm hxa))
      cases hfx : f x with
      | none =>
        rw [List.filterMap_cons_none hfx, List.filterMap_cons_none ((hne x hxa).trans hfx)]
        exact htail
      | some y =>
        rw [List.filterMap_cons_some hfx, List.filterMap_cons_some ((hne x hxa).trans hfx)]
        exact (htail.cons y).trans (List.Perm.swap b y _)

/-- The list after its last entry was moved into the place of the first `a`. -/
def swapErase [DecidableEq α] (l : List α) (a : α) : List α :=
  match l.getLast? with
  | none => l
  | some back => (l.replace a back).dropLast

theorem replace_perm [DecidableEq α] (h : a ∈ l) (b : α) :
    (l.replace a b).Perm (b :: l.erase a) := by
  induction l with
  | nil => cases h
  | cons x l ih =>
    by_cases hx : x = a
    · subst hx
      rw [List.replace_cons_self, List.erase_cons_head]
    · have hmem : a ∈ l := (List.mem_cons.mp h).resolve_left (Ne.symm hx)
      have hbeq : (a == x) = false := by simpa using Ne.symm hx
      rw [List.replace_cons, hbeq, List.erase_cons_tail (by simpa using hx)]
      exact ((ih hmem).cons x).trans (List.Perm.swap b x _)

theorem swapErase_perm [DecidableEq α] (h : a ∈ l) : (swapErase l a).Perm (l.erase a) := by
  obtain rfl | ⟨front, back, rfl⟩ := List.eq_nil_or_concat l
  · cases h
  · simp only [swapErase, List.getLast?_concat, List.concat_eq_append] at h ⊢
    by_cases hfront : a ∈ front
    · rw [List.replace_append_left hfront, List.dropLast_concat,
        List.erase_append_left _ hfront]
      exact (replace_perm hfront back).trans (List.perm_append_singleton back _).symm
    · have hback : a = back := by simpa [hfront] using h
      subst hback
      rw [List.replace_append_right hfront, List.erase_append_right _ hfront]
      simp

/-- The list holds exactly the values with a property, each of them once. -/
def Lists (l : List α) (P : α → Prop) : Prop := l.Nodup ∧ ∀ x, x ∈ l ↔ P x

theorem Lists.congr {P Q : α → Prop} (h : Lists l P) (hPQ : ∀ x, P x ↔ Q x) : Lists l Q :=
  ⟨h.1, fun x => (h.2 x).trans (hPQ x)⟩

theorem Lists.perm {P : α → Prop} {l' : List α} (h : Lists l P) (hl : l'.Perm l) : Lists l' P :=
  ⟨hl.nodup_iff.mpr h.1, fun x => hl.mem_iff.trans (h.2 x)⟩

theorem Lists.cons {P : α → Prop} (h : Lists l P) (ha : ¬P a) :
    Lists (a :: l) fun x => x = a ∨ P x :=
  ⟨List.nodup_cons.mpr ⟨fun hmem => ha ((h.2 a).mp hmem), h.1⟩, fun x => by
    rw [List.mem_cons, h.2]⟩

theorem Lists.concat {P : α → Prop} (h : Lists l P) (ha : ¬P a) :
    Lists (l ++ [a]) fun x => x = a ∨ P x :=
  (h.cons ha).perm (List.perm_append_singleton a l)

theorem Lists.erase [DecidableEq α] {P : α → Prop} (h : Lists l P) :
    Lists (l.erase a) fun x => x ≠ a ∧ P x :=
  ⟨h.1.erase a, fun x => by rw [h.1.mem_erase_iff, h.2]⟩

theorem Lists.swapErase [DecidableEq α] {P : α → Prop} (h : Lists l P) (ha : P a) :
    Lists (swapErase l a) fun x => x ≠ a ∧ P x :=
  h.erase.perm (swapErase_perm ((h.2 a).mpr ha))

theorem Lists.concat_if {P : α → Prop} {q : α → Bool} (h : Lists l fun x => P x ∧ q x)
    (ha : ¬P a) : Lists (if q a then l ++ [a] else l) fun x => (x = a ∨ P x) ∧ q x := by
  split_ifs with hq
  · refine (h.concat fun hpa => ha hpa.1).congr fun x => ?_
    constructor
    · rintro (rfl | hx)
      · exact ⟨.inl rfl, hq⟩
      · exact ⟨.inr hx.1, hx.2⟩
    · rintro ⟨rfl | hx, hqx⟩
      · exact .inl rfl
      · exact .inr ⟨hx, hqx⟩
  · refine h.congr fun x => ⟨fun hx => ⟨.inr hx.1, hx.2⟩, ?_⟩
    rintro ⟨rfl | hx, hqx⟩
    · exact absurd hqx hq
    · exact ⟨hx, hqx⟩

theorem Lists.swapErase_if [DecidableEq α] {P : α → Prop} {q : α → Bool}
    (h : Lists l fun x => P x ∧ q x) (ha : P a) :
    Lists (if q a then ListSet.swapErase l a else l) fun x => (x ≠ a ∧ P x) ∧ q x := by
  split_ifs with hq
  · exact (h.swapErase ⟨ha, hq⟩).congr fun x => and_assoc.symm
  · refine h.congr fun x => ⟨fun hx => ⟨⟨?_, hx.1⟩, hx.2⟩, fun hx => ⟨hx.1.2, hx.2⟩⟩
    rintro rfl
    exact hq hx.2

theorem Lists.flatMap {β : Type*} {f : α → List β} {P : β → Prop} {Q : α → β → Prop}
    (hl : l.Nodup) (h : ∀ x ∈ l, Lists (f x) fun y => P y ∧ Q x y)
    (hQ : ∀ x ∈ l, ∀ x' ∈ l, ∀ y, Q x y → Q x' y → x = x') :
    Lists (l.flatMap f) fun y => P y ∧ ∃ x ∈ l, Q x y := by
  constructor
  · refine List.nodup_flatMap.mpr ⟨fun x hx => (h x hx).1, ?_⟩
    refine hl.pairwise_of_forall_ne fun x hx x' hx' hne => ?_
    intro y hy hy'
    exact hne (hQ x hx x' hx' y (((h x hx).2 y).mp hy).2 (((h x' hx').2 y).mp hy').2)
  · intro y
    rw [List.mem_flatMap]
    constructor
    · rintro ⟨x, hx, hy⟩
      obtain ⟨hP, hQy⟩ := ((h x hx).2 y).mp hy
      exact ⟨hP, x, hx, hQy⟩
    · rintro ⟨hP, x, hx, hQy⟩
      exact ⟨x, hx, ((h x hx).2 y).mpr ⟨hP, hQy⟩⟩

theorem walk_range' {σ β : Type*} {body : σ × List β → Nat → σ × List β} {g : Nat → σ}
    {v : Nat → List β} {k : Nat} (h : ∀ a acc, body (g a, acc) a = (g (a + k), acc ++ v a))
    (n s : Nat) (acc : List β) : (List.range' s n k).foldl body (g s, acc) =
      (g (s + n * k), acc ++ (List.range' s n k).flatMap v) := by
  induction n generalizing s acc with
  | zero => simp
  | succ n ih =>
    rw [List.range'_succ, List.foldl_cons, h, ih, List.flatMap_cons, List.append_assoc,
      Nat.succ_mul, Nat.add_assoc, Nat.add_comm k]

/-- One of the lists that are joined is replaced. -/
theorem count_flatMap_update [DecidableEq α] {β : Type*} [DecidableEq β] {f : α → List β}
    (hl : l.Nodup) (ha : a ∈ l) (v : List β) (b : β) :
    (l.flatMap (Function.update f a v)).count b + (f a).count b =
      (l.flatMap f).count b + v.count b := by
  induction l with
  | nil => cases ha
  | cons x l ih =>
    obtain ⟨hx, hl⟩ := List.nodup_cons.mp hl
    rw [List.flatMap_cons, List.flatMap_cons, List.count_append, List.count_append]
    by_cases hxa : x = a
    · subst hxa
      have hsame : l.flatMap (Function.update f x v) = l.flatMap f := by
        refine List.flatMap_congr fun y hy => ?_
        have hyx : y ≠ x := fun h => hx (h ▸ hy)
        rw [Function.update_of_ne hyx]
      rw [hsame, Function.update_self]
      omega
    · have htail := ih hl ((List.mem_cons.mp ha).resolve_left (Ne.symm hxa))
      rw [Function.update_of_ne hxa]
      omega

end Eloth.ListSet
