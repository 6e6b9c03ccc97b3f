import Mathlib.Data.Finset.Card
import Mathlib.Logic.Relation

/-!
# Cascades

An element that is taken away takes along what it names, each element once. The pending elements
form a stack, as the calls of a recursion do. What is left is what cannot be reached from the
stack within the elements that were there.
-/

namespace Eloth.Cascade

variable {α : Type*} {next : α → List α} {s s' : Finset α} {stack : List α}
  {a b c : α}

/-- Reached by way of elements that are all there. -/
def ReachIn (next : α → List α) (s : Finset α) (a b : α) : Prop :=
  a ∈ s ∧ Relation.ReflTransGen (fun x y => y ∈ next x ∧ y ∈ s) a b

theorem ReachIn.refl (h : a ∈ s) : ReachIn next s a a := ⟨h, .refl⟩

theorem ReachIn.tail (h : ReachIn next s a b) (hnext : c ∈ next b) (hc : c ∈ s) :
    ReachIn next s a c :=
  ⟨h.1, h.2.tail ⟨hnext, hc⟩⟩

theorem ReachIn.head (h : ReachIn next s b c) (ha : a ∈ s) (hnext : b ∈ next a) :
    ReachIn next s a c :=
  ⟨ha, h.2.head ⟨hnext, h.1⟩⟩

theorem ReachIn.trans (h : ReachIn next s a b) (h' : ReachIn next s b c) :
    ReachIn next s a c :=
  ⟨h.1, h.2.trans h'.2⟩

theorem ReachIn.mono (h : ReachIn next s a b) (hsub : s ⊆ s') : ReachIn next s' a b := by
  have hle : (fun x y => y ∈ next x ∧ y ∈ s) ≤ fun x y => y ∈ next x ∧ y ∈ s' :=
    fun _ _ hxy => ⟨hxy.1, hsub hxy.2⟩
  exact ⟨hsub h.1, Relation.ReflTransGen.mono hle a b h.2⟩

/-- Either all elements on the way are in the smaller set, or one of those taken out is on it. -/
theorem ReachIn.inside_or (h : ReachIn next s' a b) :
    ReachIn next s a b ∨ ∃ x ∈ s', x ∉ s ∧ ReachIn next s' x b := by
  obtain ⟨ha, hpath⟩ := h
  induction hpath using Relation.ReflTransGen.head_induction_on with
  | refl =>
    by_cases hb : b ∈ s
    · exact .inl (.refl hb)
    · exact .inr ⟨b, ha, hb, .refl ha⟩
  | head hstep hrest ih =>
    rename_i x y
    rcases ih hstep.2 with hinside | hout
    · by_cases hx : x ∈ s
      · exact .inl (hinside.head hx hstep.1)
      · exact .inr ⟨x, ha, hx, ⟨ha, .head hstep hrest⟩⟩
    · exact .inr hout

variable [DecidableEq α]

/-- The elements that are left once the stack has been worked off. -/
def left (next : α → List α) (present : Finset α) : List α → Finset α
  | [] => present
  | a :: stack =>
    if a ∈ present then left next (present.erase a) (next a ++ stack) else left next present stack
termination_by stack => (present.card, stack.length)
decreasing_by
  · exact Prod.Lex.left _ _ (Finset.card_erase_lt_of_mem ‹_›)
  · exact Prod.Lex.right _ (Nat.lt_succ_self _)

/-- A way out of an element passes what it names, without coming back to the element. -/
theorem ReachIn.split (h : ReachIn next s a b) (c : α) :
    b = c ∨ (∃ x ∈ next c, ReachIn next (s.erase c) x b) ∨ ReachIn next (s.erase c) a b := by
  obtain ⟨ha, hpath⟩ := h
  induction hpath with
  | refl =>
    by_cases hac : a = c
    · exact .inl hac
    · exact .inr (.inr (.refl (Finset.mem_erase.mpr ⟨hac, ha⟩)))
  | tail hprev hstep ih =>
    rename_i x y
    by_cases hyc : y = c
    · exact .inl hyc
    have hy : y ∈ s.erase c := Finset.mem_erase.mpr ⟨hyc, hstep.2⟩
    rcases ih with rfl | ⟨z, hz, hreach⟩ | hreach
    · exact .inr (.inl ⟨y, hstep.1, .refl hy⟩)
    · exact .inr (.inl ⟨z, hz, hreach.tail hstep.1 hy⟩)
    · exact .inr (.inr (hreach.tail hstep.1 hy))

theorem mem_left (next : α → List α) (s : Finset α) (stack : List α) (b : α) :
    b ∈ left next s stack ↔ b ∈ s ∧ ¬ ∃ a ∈ stack, ReachIn next s a b := by
  induction s, stack using left.induct next with
  | case1 s => simp [left]
  | case2 s a stack ha ih =>
    rw [left, if_pos ha, ih, Finset.mem_erase]
    have hsub := Finset.erase_subset a s
    constructor
    · rintro ⟨⟨hne, hb⟩, hnone⟩
      refine ⟨hb, ?_⟩
      rintro ⟨x, hx, hreach⟩
      rcases hreach.split a with rfl | ⟨y, hy, hy'⟩ | hx'
      · exact hne rfl
      · exact hnone ⟨y, List.mem_append_left _ hy, hy'⟩
      · rcases List.mem_cons.mp hx with rfl | hx
        · exact absurd hx'.1 (Finset.notMem_erase x s)
        · exact hnone ⟨x, List.mem_append_right _ hx, hx'⟩
    · rintro ⟨hb, hnone⟩
      refine ⟨⟨?_, hb⟩, ?_⟩
      · rintro rfl
        exact hnone ⟨b, List.mem_cons_self, .refl ha⟩
      · rintro ⟨x, hx, hreach⟩
        rcases List.mem_append.mp hx with hx | hx
        · exact hnone ⟨a, List.mem_cons_self, (hreach.mono hsub).head ha hx⟩
        · exact hnone ⟨x, List.mem_cons_of_mem a hx, hreach.mono hsub⟩
  | case3 s a stack ha ih =>
    rw [left, if_neg ha, ih]
    refine and_congr_right fun _ => not_congr ⟨?_, ?_⟩
    · rintro ⟨x, hx, hreach⟩
      exact ⟨x, List.mem_cons_of_mem a hx, hreach⟩
    · rintro ⟨x, hx, hreach⟩
      rcases List.mem_cons.mp hx with rfl | hx
      · exact absurd hreach.1 ha
      · exact ⟨x, hx, hreach⟩

end Eloth.Cascade
