import Mathlib.Data.Finset.Card
import Mathlib.Data.List.Nodup
import Mathlib.Logic.Relation

/-!
# Worklists

A queue is processed from the front, and the successors of each element are appended at the
back. The fuel bounds how many elements are taken from the queue.
-/

namespace Eloth.Worklist

variable {α : Type*}

/-- The elements that the loop takes from the queue, in the order it takes them. -/
def visited (next : α → List α) : Nat → List α → List α
  | 0, _ => []
  | _ + 1, [] => []
  | fuel + 1, a :: queue => a :: visited next fuel (queue ++ next a)

/-- The elements that can be reached by way of successors. -/
def Reach (next : α → List α) : α → α → Prop := Relation.ReflTransGen fun a b => b ∈ next a

/-- Every successor names the one element that it succeeds. -/
structure Nested (next : α → List α) (parent : α → Option α) : Prop where
  parent : ∀ a, ∀ b ∈ next a, parent b = some a
  nodup : ∀ a, (next a).Nodup

/-- The elements that so many steps lead to, each row in the order of the row before it. -/
def level (next : α → List α) (queue : List α) (k : Nat) : List α :=
  (fun row => row.flatMap next)^[k] queue

/-- The loop comes to the end of the queue, and this is what it takes. -/
inductive Drains (next : α → List α) : List α → List α → Prop
  | nil : Drains next [] []
  | cons {a : α} {queue taken : List α} (h : Drains next (queue ++ next a) taken) :
      Drains next (a :: queue) (a :: taken)

variable {next : α → List α} {parent : α → Option α} {queue done : List α} {fuel : Nat} {a b : α}

theorem reach_of_mem_visited (h : b ∈ visited next fuel queue) : ∃ a ∈ queue, Reach next a b := by
  induction fuel generalizing queue with
  | zero => cases h
  | succ fuel ih =>
    cases queue with
    | nil => cases h
    | cons a queue =>
      rcases List.mem_cons.mp h with rfl | h
      · exact ⟨b, List.mem_cons_self, .refl⟩
      obtain ⟨x, hx, hreach⟩ := ih h
      rcases List.mem_append.mp hx with hx | hx
      · exact ⟨x, List.mem_cons_of_mem a hx, hreach⟩
      · exact ⟨a, List.mem_cons_self, .head hx hreach⟩

/-- A loop that does not use up its fuel has emptied the queue. -/
theorem drains_visited (h : (visited next fuel queue).length < fuel) :
    Drains next queue (visited next fuel queue) := by
  induction fuel generalizing queue with
  | zero => exact absurd h (Nat.not_lt_zero _)
  | succ fuel ih =>
    cases queue with
    | nil => exact .nil
    | cons a queue => exact .cons (ih (Nat.lt_of_succ_lt_succ h))

/-! ## Order -/

theorem level_nil (next : α → List α) (k : Nat) : level next [] k = [] := by
  induction k with
  | zero => rfl
  | succ k ih => rwa [level, Function.iterate_succ_apply, List.flatMap_nil]

theorem level_succ (k : Nat) : level next queue (k + 1) = (level next queue k).flatMap next :=
  Function.iterate_succ_apply' _ _ _

theorem visited_append (next : α → List α) (fuel : Nat) (queue rest : List α) :
    visited next fuel (queue ++ rest) = queue.take fuel ++
      visited next (fuel - queue.length) (rest ++ queue.flatMap next) := by
  induction queue generalizing fuel rest with
  | nil => simp
  | cons a queue ih =>
    cases fuel with
    | zero => simp [visited]
    | succ fuel =>
      rw [List.cons_append, visited, List.append_assoc, ih, List.take_succ_cons,
        List.flatMap_cons, List.length_cons, Nat.add_sub_add_right, List.append_assoc,
        List.cons_append]

/-- The elements are taken row by row. -/
theorem visited_eq_take_levels {m : Nat} (h : fuel ≤ m) :
    visited next fuel queue = ((List.range m).flatMap (level next queue)).take fuel := by
  induction fuel using Nat.strong_induction_on generalizing queue m with
  | _ fuel ih =>
    rcases Nat.eq_zero_or_pos fuel with rfl | hpos
    · rfl
    cases queue with
    | nil =>
      have hlevels : (List.range m).flatMap (level next []) = [] :=
        List.flatMap_eq_nil_iff.mpr fun k _ => level_nil next k
      obtain ⟨fuel, rfl⟩ := Nat.exists_eq_succ_of_ne_zero hpos.ne'
      rw [hlevels, List.take_nil]
      rfl
    | cons a queue =>
      obtain ⟨m, rfl⟩ := Nat.exists_eq_succ_of_ne_zero (hpos.trans_le h).ne'
      have hlt : fuel - (a :: queue).length < fuel := by
        rw [List.length_cons]
        omega
      have hrest := @ih _ hlt ((a :: queue).flatMap next) m (by omega)
      have hall := visited_append next fuel (a :: queue) []
      rw [List.append_nil, List.nil_append] at hall
      have hrows : (List.range (m + 1)).flatMap (level next (a :: queue)) = (a :: queue) ++
          (List.range m).flatMap (level next ((a :: queue).flatMap next)) := by
        rw [List.range_succ_eq_map, List.flatMap_cons, List.flatMap_map]
        rfl
      rw [hall, hrest, hrows, List.take_append]

namespace Nested

/-- Over two elements without a parent nothing is reached from both. -/
theorem root_unique (h : Nested next parent) {c : α} (ha : parent a = none) (hb : parent b = none)
    (hac : Reach next a c) (hbc : Reach next b c) : a = b := by
  induction hac with
  | refl =>
    rcases Relation.ReflTransGen.cases_tail hbc with heq | ⟨x, -, hx⟩
    · exact heq
    · rw [h.parent x _ hx] at ha
      cases ha
  | tail hax hxc ih =>
    rename_i x c
    rcases Relation.ReflTransGen.cases_tail hbc with heq | ⟨y, hby, hyc⟩
    · rw [← heq, h.parent x _ hxc] at hb
      cases hb
    · have hxy : x = y := Option.some.inj ((h.parent x _ hxc).symm.trans (h.parent y _ hyc))
      exact ih (hxy ▸ hby)

/-- With enough fuel nothing is taken twice and nothing is left out. -/
theorem visited_spec (h : Nested next parent) (s : Finset α) (hnext : ∀ a, ∀ b ∈ next a, b ∈ s)
    (hnodup : (done ++ queue).Nodup)
    (hfrom : ∀ b ∈ done ++ queue, parent b = none ∨ ∃ a ∈ done, parent b = some a)
    (hin : ∀ b ∈ done ++ queue, b ∈ s) (hfuel : s.card ≤ done.length + fuel) :
    (done ++ visited next fuel queue).Nodup ∧ (∀ b ∈ queue, b ∈ visited next fuel queue) ∧
      ∀ a ∈ visited next fuel queue, ∀ b ∈ next a, b ∈ visited next fuel queue := by
  classical
  induction fuel generalizing done queue with
  | zero =>
    have hsub : (done ++ queue).toFinset ⊆ s := fun b hb => hin b (List.mem_toFinset.mp hb)
    have hcard := Finset.card_le_card hsub
    rw [List.toFinset_card_of_nodup hnodup, List.length_append] at hcard
    have hqueue : queue = [] := List.length_eq_zero_iff.mp (by omega)
    subst hqueue
    exact ⟨hnodup, fun b hb => hb, fun a ha => nomatch ha⟩
  | succ fuel ih =>
    cases queue with
    | nil => exact ⟨hnodup, fun b hb => hb, fun a ha => nomatch ha⟩
    | cons a queue =>
      have hperm : (done ++ [a]) ++ queue = done ++ a :: queue := by simp
      have hfresh : ∀ b ∈ next a, b ∉ done ++ a :: queue := by
        intro b hb hmem
        have hparent := h.parent a b hb
        rcases hfrom b hmem with hnone | ⟨x, hx, hsome⟩
        · rw [hparent] at hnone
          cases hnone
        · rw [hparent] at hsome
          obtain rfl := Option.some.inj hsome
          exact (List.nodup_append.mp hnodup).2.2 a hx a List.mem_cons_self rfl
      obtain ⟨hnodup', hqueue', hclosed'⟩ := @ih (queue ++ next a) (done ++ [a]) (by
          rw [← List.append_assoc, hperm]
          refine List.nodup_append.mpr ⟨hnodup, h.nodup a, fun x hx y hy heq => ?_⟩
          exact hfresh y hy (heq ▸ hx)) (by
          intro b hb
          rw [← List.append_assoc, hperm] at hb
          rcases List.mem_append.mp hb with hb | hb
          · refine (hfrom b hb).imp id ?_
            rintro ⟨x, hx, hsome⟩
            exact ⟨x, List.mem_append_left _ hx, hsome⟩
          · exact .inr ⟨a, by simp, h.parent a b hb⟩) (by
          intro b hb
          rw [← List.append_assoc, hperm] at hb
          exact (List.mem_append.mp hb).elim (hin b) (hnext a b)) (by
          rw [List.length_append, List.length_singleton]
          omega)
      refine ⟨?_, fun b hb => ?_, fun x hx b hb => ?_⟩
      · rwa [List.append_assoc, List.singleton_append] at hnodup'
      · rcases List.mem_cons.mp hb with rfl | hb
        · exact List.mem_cons_self
        · exact List.mem_cons_of_mem a (hqueue' b (List.mem_append_left _ hb))
      · rcases List.mem_cons.mp hx with rfl | hx
        · exact List.mem_cons_of_mem x (hqueue' b (List.mem_append_right _ hb))
        · exact List.mem_cons_of_mem a (hclosed' x hx b hb)

/-- From one element without a parent the loop takes each element that it reaches once. -/
theorem visited_root (h : Nested next parent) (s : Finset α) (hnext : ∀ a, ∀ b ∈ next a, b ∈ s)
    (ha : parent a = none) (hin : a ∈ s) (hfuel : s.card ≤ fuel) :
    (visited next fuel [a]).Nodup ∧ ∀ b, b ∈ visited next fuel [a] ↔ Reach next a b := by
  obtain ⟨hnodup, hroot, hclosed⟩ := @visited_spec α next parent [a] [] fuel h s hnext (by simp)
    (by simpa using ha) (by simpa using hin) (by simpa using hfuel)
  refine ⟨by simpa using hnodup, fun b => ⟨fun hb => ?_, fun hreach => ?_⟩⟩
  · obtain ⟨x, hx, hreach⟩ := reach_of_mem_visited hb
    rwa [List.mem_singleton.mp hx] at hreach
  · induction hreach with
    | refl => exact hroot a List.mem_cons_self
    | tail _ hbc ih => exact hclosed _ ih _ hbc

end Nested

end Eloth.Worklist
