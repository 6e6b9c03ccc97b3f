import Mathlib.Algebra.Order.BigOperators.Group.Finset

/-!
# Counted references

The objects of a state hold references on one another, others are held from outside, and every
object counts the references on it. Who gives a reference back lowers the counter. At zero the
object is destroyed, and what it held is given back in turn: the references that are still to be
given back form a stack, as the calls of the destructors do.
-/

namespace Eloth

/-- States with counted objects. `destroy` is what the destructor does apart from giving back the
references. -/
structure RefCount (σ α : Type*) [DecidableEq α] where
  alive : σ → Finset α
  refs : σ → α → List α
  counter : σ → α → Nat
  decrement : σ → α → σ
  destroy : σ → α → σ
  alive_decrement : ∀ s a, alive (decrement s a) = alive s
  refs_decrement : ∀ s a, refs (decrement s a) = refs s
  counter_decrement : ∀ s a b,
    counter (decrement s a) b = if b = a then counter s a - 1 else counter s b
  alive_destroy : ∀ s a, alive (destroy s a) = (alive s).erase a
  refs_destroy : ∀ s a b, b ≠ a → refs (destroy s a) b = refs s b
  counter_destroy : ∀ s a, counter (destroy s a) = counter s

namespace RefCount

variable {σ α : Type*} [DecidableEq α] (H : RefCount σ α) (s : σ)

/-- Gives the references back one after the other. -/
def giveBack (s : σ) : List α → σ
  | [] => s
  | a :: pending =>
    if H.counter (H.decrement s a) a = 0 ∧ a ∈ H.alive s then
      giveBack (H.destroy (H.decrement s a) a) (H.refs s a ++ pending)
    else giveBack (H.decrement s a) pending
termination_by pending => ((H.alive s).card, pending.length)
decreasing_by
  · rename_i h
    rw [H.alive_destroy, H.alive_decrement]
    exact Prod.Lex.left _ _ (Finset.card_erase_lt_of_mem h.2)
  · rw [H.alive_decrement]
    exact Prod.Lex.right _ (Nat.lt_succ_self _)

/-- The references on an object, given those that are held from outside. -/
def holders (outside : List α) (a : α) : Nat :=
  outside.count a + ∑ b ∈ H.alive s, (H.refs s b).count a

structure Counted (outside : List α) : Prop where
  counter_eq : ∀ a, H.counter s a = H.holders s outside a
  alive : ∀ a, 0 < H.counter s a → a ∈ H.alive s

variable {H s} {a : α} {outside pending : List α}

theorem Counted.alive_of_mem (h : H.Counted s outside) (ha : a ∈ outside) : a ∈ H.alive s := by
  have hpos : 0 < outside.count a := List.count_pos_iff.mpr ha
  refine h.alive a ?_
  rw [h.counter_eq, holders]
  omega

theorem Counted.alive_of_mem_refs (h : H.Counted s outside) {b : α} (hb : b ∈ H.alive s)
    (ha : a ∈ H.refs s b) : a ∈ H.alive s := by
  have hpos : 0 < (H.refs s b).count a := List.count_pos_iff.mpr ha
  have hle : (H.refs s b).count a ≤ ∑ b ∈ H.alive s, (H.refs s b).count a :=
    Finset.single_le_sum (f := fun b => (H.refs s b).count a) (fun _ _ => Nat.zero_le _) hb
  refine h.alive a ?_
  rw [h.counter_eq, holders]
  omega

theorem Counted.congr {s' : σ} {outside' : List α} (h : H.Counted s outside)
    (halive : H.alive s' = H.alive s) (hrefs : H.refs s' = H.refs s)
    (hcounter : H.counter s' = H.counter s)
    (hcount : ∀ a, outside.count a = outside'.count a) : H.Counted s' outside' where
  counter_eq a := by rw [hcounter, h.counter_eq, holders, holders, halive, hrefs, hcount]
  alive a ha := by
    rw [hcounter] at ha
    rw [halive]
    exact h.alive a ha

theorem Counted.decrement (h : H.Counted s (a :: outside)) :
    H.Counted (H.decrement s a) outside where
  counter_eq b := by
    have hb := h.counter_eq b
    rw [holders, H.alive_decrement, H.refs_decrement, H.counter_decrement]
    rw [holders, List.count_cons] at hb
    split_ifs with hba
    · subst hba
      simp only [beq_self_eq_true, if_true] at hb
      omega
    · have hab : (a == b) = false := by simpa using Ne.symm hba
      simp only [hab, Bool.false_eq_true, if_false, Nat.add_zero] at hb
      exact hb
  alive b hb := by
    rw [H.counter_decrement] at hb
    rw [H.alive_decrement]
    refine h.alive b ?_
    split_ifs at hb with hba
    · subst hba
      omega
    · exact hb

theorem Counted.destroy (h : H.Counted s outside) (ha : a ∈ H.alive s)
    (hzero : H.counter s a = 0) : H.Counted (H.destroy s a) (H.refs s a ++ outside) where
  counter_eq b := by
    have hsplit := Finset.add_sum_erase (H.alive s) (fun c => (H.refs s c).count b) ha
    have hsame : ∑ c ∈ (H.alive s).erase a, (H.refs (H.destroy s a) c).count b =
        ∑ c ∈ (H.alive s).erase a, (H.refs s c).count b :=
      Finset.sum_congr rfl fun c hc => by rw [H.refs_destroy s a c (Finset.ne_of_mem_erase hc)]
    rw [holders, H.counter_destroy, H.alive_destroy, h.counter_eq, holders, hsame,
      List.count_append]
    omega
  alive b hb := by
    rw [H.counter_destroy] at hb
    rw [H.alive_destroy]
    refine Finset.mem_erase.mpr ⟨?_, h.alive b hb⟩
    rintro rfl
    omega

/-- A new object comes without references on it or from it. -/
theorem Counted.create {s' : σ} (h : H.Counted s outside) (ha : a ∉ H.alive s)
    (halive : H.alive s' = insert a (H.alive s)) (hnone : H.refs s' a = [])
    (hrefs : ∀ b ∈ H.alive s, H.refs s' b = H.refs s b)
    (hcounter : ∀ b, H.counter s' b = if b = a then 0 else H.counter s b) :
    H.Counted s' outside where
  counter_eq b := by
    have hsame : ∑ c ∈ H.alive s, (H.refs s' c).count b = ∑ c ∈ H.alive s, (H.refs s c).count b :=
      Finset.sum_congr rfl fun c hc => by rw [hrefs c hc]
    have hb := h.counter_eq b
    rw [holders, halive, Finset.sum_insert ha, hnone, hsame, List.count_nil, Nat.zero_add, hcounter]
    split_ifs with hba
    · subst hba
      have hzero : H.counter s b = 0 := Nat.eq_zero_of_not_pos fun hpos => ha (h.alive b hpos)
      rw [← hzero]
      exact hb
    · exact hb
  alive b hb := by
    rw [hcounter] at hb
    rw [halive]
    split_ifs at hb with hba
    · omega
    · exact Finset.mem_insert_of_mem (h.alive b hb)

theorem Counted.increment {s' : σ} (h : H.Counted s outside) (ha : a ∈ H.alive s)
    (halive : H.alive s' = H.alive s) (hrefs : H.refs s' = H.refs s)
    (hcounter : ∀ b, H.counter s' b = if b = a then H.counter s a + 1 else H.counter s b) :
    H.Counted s' (a :: outside) where
  counter_eq b := by
    have hb := h.counter_eq b
    rw [holders] at hb
    rw [holders, halive, hrefs, hcounter, List.count_cons]
    split_ifs with hba hab hab
    · subst hba
      omega
    · subst hba
      exact absurd (beq_self_eq_true b) hab
    · exact absurd (beq_iff_eq.mp hab).symm hba
    · omega
  alive b hb := by
    rw [hcounter] at hb
    rw [halive]
    split_ifs at hb with hba
    · rwa [hba]
    · exact h.alive b hb

/-- References pass between an object and the outside. -/
theorem Counted.move {s' : σ} {b : α} (given taken : List α) (h : H.Counted s (given ++ outside))
    (hb : b ∈ H.alive s) (halive : H.alive s' = H.alive s) (hcounter : H.counter s' = H.counter s)
    (hrefs : ∀ c, c ≠ b → H.refs s' c = H.refs s c)
    (hcount : ∀ a, (H.refs s b).count a + given.count a =
      (H.refs s' b).count a + taken.count a) :
    H.Counted s' (taken ++ outside) where
  counter_eq a := by
    have ha := h.counter_eq a
    have hsplit := Finset.add_sum_erase (H.alive s) (fun c => (H.refs s c).count a) hb
    have hsplit' := Finset.add_sum_erase (H.alive s) (fun c => (H.refs s' c).count a) hb
    have hsame : ∑ c ∈ (H.alive s).erase b, (H.refs s' c).count a =
        ∑ c ∈ (H.alive s).erase b, (H.refs s c).count a :=
      Finset.sum_congr rfl fun c hc => by rw [hrefs c (Finset.ne_of_mem_erase hc)]
    have hmoved := hcount a
    rw [holders, List.count_append] at ha
    rw [holders, halive, hcounter, List.count_append]
    omega
  alive a ha := by
    rw [hcounter] at ha
    rw [halive]
    exact h.alive a ha

/-- What every step of giving back keeps is kept. -/
theorem Counted.giveBack_induction {P : σ → Prop}
    (hdecrement : ∀ s a, P s → P (H.decrement s a))
    (hdestroy : ∀ s a outside, P s → H.Counted s outside → a ∈ H.alive s → H.counter s a = 0 →
      P (H.destroy s a))
    (h : H.Counted s (pending ++ outside)) (hP : P s) :
    P (H.giveBack s pending) ∧ H.Counted (H.giveBack s pending) outside := by
  induction s, pending using RefCount.giveBack.induct H with
  | case1 s =>
    rw [RefCount.giveBack]
    exact ⟨hP, h⟩
  | case2 s a pending hgone ih =>
    rw [RefCount.giveBack, if_pos hgone]
    have hfewer : H.Counted (H.decrement s a) (pending ++ outside) := h.decrement
    have halive : a ∈ H.alive (H.decrement s a) := by
      rw [H.alive_decrement]
      exact hgone.2
    refine ih ?_ (hdestroy _ a _ (hdecrement s a hP) hfewer halive hgone.1)
    have hmore := hfewer.destroy halive hgone.1
    rwa [H.refs_decrement, ← List.append_assoc] at hmore
  | case3 s a pending hstays ih =>
    rw [RefCount.giveBack, if_neg hstays]
    exact ih h.decrement (hdecrement s a hP)

/-- An object on which there is no reference is not left behind by giving references back. -/
theorem counter_of_giveBack (halive : a ∈ H.alive (H.giveBack s pending))
    (hzero : H.counter (H.giveBack s pending) a = 0) :
    a ∈ H.alive s ∧ H.counter s a = 0 := by
  induction s, pending using RefCount.giveBack.induct H with
  | case1 s =>
    rw [RefCount.giveBack] at halive hzero
    exact ⟨halive, hzero⟩
  | case2 s b pending hgone ih =>
    rw [RefCount.giveBack, if_pos hgone] at halive hzero
    obtain ⟨hbefore, hcounter⟩ := ih halive hzero
    rw [H.alive_destroy, H.alive_decrement, Finset.mem_erase] at hbefore
    rw [H.counter_destroy, H.counter_decrement, if_neg hbefore.1] at hcounter
    exact ⟨hbefore.2, hcounter⟩
  | case3 s b pending hstays ih =>
    rw [RefCount.giveBack, if_neg hstays] at halive hzero
    obtain ⟨hbefore, hcounter⟩ := ih halive hzero
    rw [H.alive_decrement] at hbefore
    refine ⟨hbefore, ?_⟩
    by_cases hab : a = b
    · subst hab
      exact absurd ⟨hcounter, hbefore⟩ hstays
    · rwa [H.counter_decrement, if_neg hab] at hcounter

end RefCount

end Eloth
