import Eloth.Attire

/-!
# Two-handed items

What `Player::queryAdd` makes of two-handed items. The rules for one hand look at the other one,
and in some cases they let an item pass next to a two-handed one.
-/

namespace Eloth.Player

variable {env : Env} {w w' : World} {p : PlayerId} {item o : ItemRef} {index : Int}
  {count flags : Nat}

def isTwoHanded (env : Env) (w : World) (r : ItemRef) : Bool :=
  hasBitSet SLOTP_TWO_HAND ((w.item r).getSlotPosition env.items)

/-- No two-handed item is in one hand while there is any item in the other. -/
def HandsApart (env : Env) (w : World) (p : PlayerId) : Prop :=
  ∀ left right, (w.player p).inventory CONST_SLOT_LEFT = some left →
    (w.player p).inventory CONST_SLOT_RIGHT = some right →
    isTwoHanded env w left = false ∧ isTwoHanded env w right = false

/-- The slot of the other hand. -/
def otherHand (index : Int) : Option Nat :=
  if index = CONST_SLOT_RIGHT then some CONST_SLOT_LEFT
  else if index = CONST_SLOT_LEFT then some CONST_SLOT_RIGHT
  else none

/-- A hand takes the item without a look at the two-handed item in the other one. So does the left
hand without the classic rules, and any hand if the type has no slot but that for ammunition. -/
def Overlooks (env : Env) (w : World) (p : PlayerId) (index : Int) (item : ItemRef) : Prop :=
  ∃ hand o, otherHand index = some hand ∧ (w.player p).inventory hand = some o ∧
    isTwoHanded env w o = true ∧ isTwoHanded env w item = false ∧
    (env.classicEquipmentSlots = false ∧ index = CONST_SLOT_LEFT ∨
      dressResult env ((w.item item).getSlotPosition env.items) = .noError)

/-- Under the classic rules a two-handed item may come over from the other hand. Here some of its
units stay there. -/
def Splits (env : Env) (w : World) (p : PlayerId) (index : Int) (item : ItemRef) (count : Nat) :
    Prop :=
  ∃ hand, otherHand index = some hand ∧ (w.player p).inventory hand = some item ∧
    env.classicEquipmentSlots = true ∧ isTwoHanded env w item = true ∧
    (w.item item).isStackable env.items = true ∧ min count 100 ≠ (w.item item).getItemCount

/-! ## The rules for a hand -/

theorem hasBitSet_or (flag a b : Nat) :
    hasBitSet flag (a ||| b) = (hasBitSet flag a || hasBitSet flag b) := by
  unfold hasBitSet
  rw [Nat.and_or_distrib_right, Bool.eq_iff_iff]
  simp only [bne_iff_ne, ne_eq, Nat.or_eq_zero_iff, Bool.or_eq_true]
  tauto

theorem dressResult_twoHanded {slotPosition : Nat}
    (h : hasBitSet SLOTP_TWO_HAND slotPosition = true) :
    dressResult env slotPosition ≠ .noError := by
  unfold dressResult
  rw [h]
  split_ifs
  · decide
  · decide
  all_goals exact absurd rfl ‹_›

theorem dressResult_ne {slotPosition : Nat} :
    dressResult env slotPosition ≠ .notEnoughRoom ∧
      dressResult env slotPosition ≠ .needExchange := by
  unfold dressResult
  split_ifs <;> decide

theorem classicHandResult_ne {other : Option ItemRef} :
    classicHandResult env w item count other ≠ .notEnoughRoom ∧
      classicHandResult env w item count other ≠ .needExchange := by
  unfold classicHandResult
  dsimp only
  split_ifs
  · decide
  · decide
  · split
    · decide
    · split_ifs <;> decide

/-- Next to a two-handed item the classic rules let an item into a hand only from the other one. -/
theorem classicHandResult_spec (h : classicHandResult env w item count (some o) = .noError)
    (htwo : isTwoHanded env w item = true ∨ isTwoHanded env w o = true) :
    o = item ∧ isTwoHanded env w item = true := by
  unfold classicHandResult at h
  dsimp only at h
  unfold isTwoHanded at htwo ⊢
  split_ifs at h with hitem hother hdrop
  · refine ⟨?_, hitem⟩
    by_contra hne
    exact hother ⟨rfl, fun heq => hne (Option.some.inj heq)⟩
  all_goals rcases htwo with htwo | htwo
  all_goals first | exact absurd htwo hitem | exact absurd htwo hdrop

theorem slotResult_right : slotResult env w p CONST_SLOT_RIGHT item count =
    if hasBitSet SLOTP_RIGHT ((w.item item).getSlotPosition env.items) then
      rightHandResult env w p item count
    else dressResult env ((w.item item).getSlotPosition env.items) := rfl

theorem slotResult_left : slotResult env w p CONST_SLOT_LEFT item count =
    if hasBitSet SLOTP_LEFT ((w.item item).getSlotPosition env.items) then
      leftHandResult env w p item count
    else dressResult env ((w.item item).getSlotPosition env.items) := rfl

theorem slotResult_hand_ne {hand : Nat} (hhand : otherHand index = some hand) :
    slotResult env w p index item count ≠ .notEnoughRoom ∧
      slotResult env w p index item count ≠ .needExchange := by
  unfold otherHand at hhand
  split_ifs at hhand with hright hleft
  · rw [hright, slotResult_right]
    split_ifs
    · unfold rightHandResult
      dsimp only
      split_ifs
      · exact classicHandResult_ne
      · decide
      · split
        · decide
        · split_ifs <;> decide
    · exact dressResult_ne
  · rw [hleft, slotResult_left]
    split_ifs
    · unfold leftHandResult
      dsimp only
      split_ifs
      · exact classicHandResult_ne
      all_goals decide
    · exact dressResult_ne

/-- An item that a hand takes next to a two-handed one: the two-handed item itself, or one that the
hand takes without a look at the other hand. -/
theorem slotResult_hand {hand : Nat} (h : slotResult env w p index item count = .noError)
    (hhand : otherHand index = some hand) (ho : (w.player p).inventory hand = some o)
    (htwo : isTwoHanded env w item = true ∨ isTwoHanded env w o = true) :
    (env.classicEquipmentSlots = true ∧ o = item ∧ isTwoHanded env w item = true) ∨
      Overlooks env w p index item := by
  -- a type without a place in this hand is not two-handed
  have hdress : dressResult env ((w.item item).getSlotPosition env.items) = .noError →
      Overlooks env w p index item := by
    intro hdress
    have hitem : isTwoHanded env w item = false := by
      rw [Bool.eq_false_iff]
      exact fun hitem => dressResult_twoHanded hitem hdress
    exact ⟨hand, o, hhand, ho, htwo.resolve_left (by simp [hitem]), hitem, .inr hdress⟩
  have hcases := hhand
  unfold otherHand at hcases
  split_ifs at hcases with hright hleft
  · obtain rfl := Option.some.inj hcases
    rw [hright, slotResult_right] at h
    split_ifs at h with hbit
    · unfold rightHandResult at h
      dsimp only at h
      rw [ho] at h
      split_ifs at h with hclassic hshield
      · exact .inl ⟨hclassic, classicHandResult_spec h htwo⟩
      · dsimp only at h
        rw [hasBitSet_or] at h
        split_ifs at h with hboth
        exact absurd (Bool.or_eq_true_iff.mpr htwo.symm) hboth
    · exact .inr (hdress h)
  · obtain rfl := Option.some.inj hcases
    rw [hleft, slotResult_left] at h
    split_ifs at h with hbit
    · unfold leftHandResult at h
      dsimp only at h
      rw [ho] at h
      split_ifs at h with hclassic htype hboth
      · exact .inl ⟨hclassic, classicHandResult_spec h htwo⟩
      · have hitem : isTwoHanded env w item = false := by
          rw [Bool.eq_false_iff]
          exact fun hitem => hboth ⟨rfl, hitem⟩
        exact .inr ⟨_, o, hhand, ho, htwo.resolve_left (by simp [hitem]), hitem,
          .inl ⟨by simpa using hclassic, hleft⟩⟩
    · exact .inr (hdress h)

/-- `queryAdd` lets an item into a hand, or asks for an exchange, only if the hand takes it. -/
theorem slotResult_of_queryAdd {hand : Nat}
    (h : queryAdd env w p index item count flags = .noError ∨
      queryAdd env w p index item count flags = .needExchange)
    (hflags : hasBitSet FLAG_CHILDISOWNER flags = false) (hhand : otherHand index = some hand) :
    slotResult env w p index item count = .noError := by
  obtain ⟨hroom, hexchange⟩ := @slotResult_hand_ne env w p item index count hand hhand
  by_contra hne
  have hrefused : queryAdd env w p index item count flags =
      if !(w.item item).isPickupable env.items then .cannotPickup
      else slotResult env w p index item count := by
    unfold queryAdd
    dsimp only
    rw [hflags, if_neg Bool.false_ne_true]
    exact if_congr Iff.rfl rfl (if_pos ⟨hne, hroom⟩)
  rw [hrefused] at h
  split_ifs at h
  · rcases h with h | h <;> cases h
  · exact h.elim hne hexchange

end Eloth.Player
