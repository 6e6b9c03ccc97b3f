import Eloth.TwoHanded

/-!
# Runs of the hands

Items are created, added, moved, exchanged and removed. The hands stay apart as long as no step puts
an item into a hand in one of the ways in which the rules for a hand let it by.
-/

namespace Eloth

variable {env : Env} {w w' w'' : World} {p : PlayerId} {item r : ItemRef} {c : Cylinder}

/-- No item comes into a slot of the player, and every item keeps its type. -/
structure Sheds (p : PlayerId) (w w' : World) : Prop where
  slots : ∀ s r, (w'.player p).inventory s = some r → (w.player p).inventory s = some r
  id : ∀ r < w.next, (w'.item r).id = (w.item r).id
  next : w.next ≤ w'.next

namespace Sheds

theorem of_attire (h : w'.attire = w.attire) : Sheds p w w' :=
  ⟨fun s r hs => by rwa [inventory_of_attire h] at hs, fun r _ => id_of_attire h r,
    (next_of_attire h).ge⟩

theorem trans (h : Sheds p w w') (h' : Sheds p w' w'') : Sheds p w w'' :=
  ⟨fun s r hs => h.slots s r (h'.slots s r hs),
    fun r hr => (h'.id r (hr.trans_le h.next)).trans (h.id r hr), h.next.trans h'.next⟩

theorem isTwoHanded (h : Sheds p w w') (hr : r < w.next) :
    Player.isTwoHanded env w' r = Player.isTwoHanded env w r := by
  unfold Player.isTwoHanded Item.getSlotPosition
  rw [h.id r hr]

theorem isStackable (h : Sheds p w w') (hr : r < w.next) :
    (w'.item r).isStackable env.items = (w.item r).isStackable env.items := by
  unfold Item.isStackable
  rw [h.id r hr]

theorem alloc (w : World) (it : Item) : Sheds p w (w.alloc it) :=
  ⟨fun _ _ hs => hs, fun _ hr => congrArg Item.id (Function.update_of_ne (Nat.ne_of_lt hr) _ _),
    Nat.le_succ _⟩

theorem removeThing (count : Nat) : Sheds p w (Cylinder.removeThing env w c item count) := by
  refine ⟨?_, fun x _ => (Recounted.removeThing count).id x, next_removeThing.ge⟩
  cases c with
  | container self =>
    exact (of_attire attire_removeThing_container).slots
  | tile pos => exact (of_attire attire_removeThing_tile).slots
  | player q =>
    intro s r hs
    have hbare := inventory_of_skeleton
      (skeleton_of_untraded (untraded_onRemoveInventoryItem w q item)) p
    unfold Cylinder.removeThing Player.removeThing at hs
    dsimp only at hs
    split_ifs at hs
    · exact hs
    · rwa [inventory_of_skeleton
        (skeleton_of_untraded (untraded_onUpdateInventoryItem _ q item item))] at hs
    · rw [← hbare]
      by_cases hq : p = q
      · subst hq
        rw [Player.setSlot_inventory] at hs
        split_ifs at hs
        exact hs
      · rw [Player.setSlot_inventory_ne hq] at hs
        exact hs

end Sheds

/-- An item that stands in one slot only leaves the slots of the player when all its units go. -/
theorem absent_removeThing {count : Nat}
    (honce : ∀ s t r, (w.player p).inventory s = some r → (w.player p).inventory t = some r → s = t)
    (hplaced : ∀ s r, (w.player p).inventory s = some r → s ∈ inventorySlots)
    (hwhole : (w.item item).LeavesWhole env count) (s : Nat) :
    ((Cylinder.removeThing env w (.player p) item count).player p).inventory s ≠ some item := by
  intro hs
  have hbefore : (w.player p).inventory s = some item := (Sheds.removeThing count).slots s item hs
  have hindex : Player.getThingIndex w p item ≠ -1 :=
    Player.mem_iff_getThingIndex.mp
      (Player.mem_contents_iff.mpr ⟨s, hplaced s item hbefore, hbefore⟩)
  obtain ⟨slot, -, hnum, hitem⟩ := Player.getThingIndex_spec hindex
  obtain rfl := honce _ _ _ hitem hbefore
  unfold Cylinder.removeThing Player.removeThing at hs
  dsimp only at hs
  rw [if_neg hindex, if_neg hwhole, hnum, Int.toNat_natCast, Player.setSlot_inventory,
    if_pos rfl] at hs
  cases hs

/-- What holds between the operations. -/
structure HandsKept (env : Env) (w : World) (p : PlayerId) : Prop where
  placed : ∀ s r, (w.player p).inventory s = some r → s ∈ inventorySlots ∧ r < w.next
  once : ∀ s t r, (w.player p).inventory s = some r → (w.player p).inventory t = some r → s = t
  apart : Player.HandsApart env w p

namespace HandsKept

theorem shed (h : HandsKept env w p) (hshed : Sheds p w w') : HandsKept env w' p where
  placed s r hs :=
    have hbefore := h.placed s r (hshed.slots s r hs)
    ⟨hbefore.1, hbefore.2.trans_le hshed.next⟩
  once s t r hs ht := h.once s t r (hshed.slots s r hs) (hshed.slots t r ht)
  apart left right hleft hright := by
    rw [hshed.isTwoHanded (h.placed _ _ (hshed.slots _ _ hleft)).2,
      hshed.isTwoHanded (h.placed _ _ (hshed.slots _ _ hright)).2]
    exact h.apart left right (hshed.slots _ _ hleft) (hshed.slots _ _ hright)

/-- An item comes into a slot. If that is a hand, neither the item nor that in the other hand is
two-handed. -/
theorem setSlot {slot : Nat} (h : HandsKept env w p) (hslot : slot ∈ inventorySlots)
    (hitem : item < w.next) (habsent : ∀ s, (w.player p).inventory s ≠ some item)
    (hadmitted : ∀ hand o, Player.otherHand slot = some hand →
      (w.player p).inventory hand = some o →
        Player.isTwoHanded env w item = false ∧ Player.isTwoHanded env w o = false) :
    HandsKept env (w.setSlot p slot (some item)) p where
  placed s r hs := by
    rw [Player.setSlot_inventory] at hs
    split_ifs at hs with heq
    · obtain rfl := Option.some.inj hs
      exact ⟨heq ▸ hslot, hitem⟩
    · exact h.placed s r hs
  once s t r hs ht := by
    rw [Player.setSlot_inventory] at hs ht
    split_ifs at hs ht with heq heq'
    · exact heq.trans heq'.symm
    · exact absurd (hs ▸ ht) (habsent t)
    · exact absurd (ht ▸ hs) (habsent s)
    · exact h.once s t r hs ht
  apart left right hleft hright := by
    rw [Player.setSlot_inventory] at hleft hright
    split_ifs at hleft hright with heq heq'
    · exact absurd (heq.trans heq'.symm) (by decide)
    · obtain rfl := Option.some.inj hleft
      exact hadmitted _ right (by rw [← heq]; rfl) hright
    · obtain rfl := Option.some.inj hright
      rename_i heq'
      exact (hadmitted _ left (by rw [← heq']; rfl) hleft).symm
    · exact h.apart left right hleft hright

theorem addThing {index : Int} (h : HandsKept env w p) (hitem : item < w.next)
    (habsent : ∀ s, (w.player p).inventory s ≠ some item)
    (hadmitted : c = .player p → ∀ hand o, Player.otherHand index = some hand →
      (w.player p).inventory hand = some o →
        Player.isTwoHanded env w item = false ∧ Player.isTwoHanded env w o = false) :
    HandsKept env (Cylinder.addThing env w c index item) p := by
  cases c with
  | container self => exact h.shed (.of_attire attire_addThing_container)
  | tile pos => exact h.shed (.of_attire attire_addThing_tile)
  | player q =>
    unfold Cylinder.addThing Player.addThing
    dsimp only
    split_ifs with hindex
    · exact h
    have hset : Sheds p w (w.setParent item (some (.player q))) := .of_attire attire_setParent
    by_cases hq : p = q
    · subst hq
      refine (h.shed hset).setSlot (mem_inventorySlots.mpr ⟨by omega, by omega⟩) hitem habsent ?_
      intro hand o hhand ho
      rw [hset.isTwoHanded hitem, hset.isTwoHanded (h.placed hand o ho).2]
      refine hadmitted rfl hand o ?_ ho
      rwa [Int.toNat_of_nonneg (by omega)] at hhand
    · refine (h.shed hset).shed ⟨fun s r hs => ?_, fun _ _ => rfl, le_rfl⟩
      rwa [Player.setSlot_inventory_ne hq] at hs

end HandsKept

/-! ## Clones -/

namespace Game

variable {mv : Move} {d : Destination} {toItem moved : Option ItemRef} {m n : Nat}

theorem cloneItem_sheds {copy : ItemRef} (h : w.cloneItem env item = some (copy, w')) :
    Sheds p w w' ∧ copy = w.next ∧ copy < w'.next ∧
      ((w.item item).isStackable env.items = true → (w'.item copy).id = (w.item item).id) := by
  obtain ⟨rfl, hnext, hitem⟩ := World.cloneItem_spec h
  obtain ⟨it, hclone, hpair⟩ := Option.map_eq_some_iff.mp h
  have hw' : w'.player = w.player ∧ w'.item w.next = it := by
    rw [← (Prod.mk.inj hpair).2]
    split_ifs <;> exact ⟨rfl, Function.update_self _ _ _⟩
  refine ⟨⟨fun s r hs => by rwa [hw'.1] at hs, fun r hr => ?_, hnext ▸ Nat.le_succ _⟩,
    rfl, hnext ▸ Nat.lt_succ_self _, ?_⟩
  · rw [hitem r (Nat.ne_of_lt hr)]
  · intro hstack
    rw [hw'.2]
    exact Item.clone_id hstack hclone

theorem moveItem_sheds (h : moveItem env w item n = some (moved, w')) : Sheds p w w' ∧
    ∀ r, moved = some r → (w'.item r).id = (w.item item).id ∧
      (r = item ∧ (w.item item).isStackable env.items = false ∨ r = w.next ∧ r < w'.next) := by
  unfold moveItem at h
  split_ifs at h with hstack hcount
  · obtain ⟨⟨copy, w₁⟩, hclone, hpair⟩ := Option.map_eq_some_iff.mp h
    obtain ⟨rfl, rfl⟩ := Prod.mk.inj hpair
    obtain ⟨hshed, hcopy, hlt, hid⟩ := @cloneItem_sheds env w w₁ p item copy hclone
    have hcounted : (w₁.modifyItem copy fun it => it.setItemCount n).attire = w₁.attire :=
      attire_modifyItem fun it => it.setItemCount_id n
    refine ⟨hshed.trans (.of_attire hcounted), fun r hr => ?_⟩
    obtain rfl := Option.some.inj hr
    exact ⟨(id_of_attire hcounted _).trans (hid hstack), .inr ⟨hcopy, hlt⟩⟩
  · obtain ⟨rfl, rfl⟩ := Prod.mk.inj (Option.some.inj h)
    exact ⟨.of_attire rfl, fun r hr => nomatch hr⟩
  · obtain ⟨rfl, rfl⟩ := Prod.mk.inj (Option.some.inj h)
    refine ⟨.of_attire rfl, fun r hr => ?_⟩
    obtain rfl := Option.some.inj hr
    exact ⟨rfl, .inl ⟨rfl, by simpa using hstack⟩⟩

/-- Carrying an item over keeps the hands apart: what a hand takes is next to nothing two-handed,
unless it comes over whole from the other hand. -/
theorem carry_kept (h : HandsKept env w p) (hitem : mv.item < w.next)
    (hfrom : ∀ s, (w.player p).inventory s = some mv.item → mv.fromCylinder = .player p)
    (hadmitted : d.cylinder = .player p → ∀ hand o, Player.otherHand d.index = some hand →
      (w.player p).inventory hand = some o →
        o = mv.item ∧ (w.item mv.item).LeavesWhole env m ∨
          Player.isTwoHanded env w mv.item = false ∧ Player.isTwoHanded env w o = false)
    (hcarry : carry env w mv d toItem m = some (moved, w')) : HandsKept env w' p := by
  have hlift : Sheds p w (lifted env w mv m) := Sheds.removeThing m
  -- an item that goes whole is in no slot any more
  have habsent : (w.item mv.item).LeavesWhole env m →
      ∀ s, ((lifted env w mv m).player p).inventory s ≠ some mv.item := by
    intro hwhole s hs
    have hsource := hfrom s (hlift.slots s _ hs)
    unfold lifted at hs
    rw [hsource] at hs
    exact absent_removeThing h.once (fun s r hr => (h.placed s r hr).1) hwhole s hs
  unfold carry at hcarry
  dsimp only at hcarry
  obtain ⟨⟨made, w₁⟩, hmade, hpair⟩ := Option.map_eq_some_iff.mp hcarry
  obtain ⟨-, rfl⟩ := Prod.mk.inj hpair
  obtain ⟨hmoved, hspec⟩ := @moveItem_sheds env _ w₁ p mv.item made _ hmade
  have hmerge : Sheds p (lifted env w mv m) (mergeStack env (lifted env w mv m) d.cylinder
      (if (w.item mv.item).isStackable env.items = true then
        mergeCount (lifted env w mv m) mv.item toItem m else 0)
      (if (w.item mv.item).isStackable env.items = true then
        updateItem (lifted env w mv m) mv.item toItem else none)) := .of_attire attire_mergeStack
  have hmerged := hlift.trans hmerge
  have hlater : Sheds p (lifted env w mv m) (releaseRemoved env w₁ mv.item) :=
    (hmerge.trans hmoved).trans (.of_attire attire_releaseRemoved)
  have hshed := hlift.trans hlater
  refine HandsKept.shed ?_ (.of_attire
    (attire_notifyAdded.trans (attire_notifyAdded.trans attire_notifyRemoved)))
  unfold addMoved
  cases made with
  | none => exact h.shed hshed
  | some r =>
    obtain ⟨hid, hwhich⟩ := hspec r rfl
    have hmade : r < (releaseRemoved env w₁ mv.item).next ∧
        ∀ s, ((releaseRemoved env w₁ mv.item).player p).inventory s ≠ some r := by
      rw [next_of_attire attire_releaseRemoved]
      rcases hwhich with ⟨rfl, hplain⟩ | ⟨hfresh, hlt⟩
      · refine ⟨hitem.trans_le (hmerged.trans hmoved).next, fun s hs => ?_⟩
        refine habsent (fun hpart => ?_) s (hlater.slots s _ hs)
        exact Bool.false_ne_true ((hplain.symm.trans (hmerged.isStackable hitem)).trans hpart.1)
      · refine ⟨hlt, fun s hs => ?_⟩
        exact Nat.ne_of_lt ((h.placed s r (hshed.slots s r hs)).2.trans_le hmerged.next) hfresh
    refine (h.shed hshed).addThing hmade.1 hmade.2 fun hdest hand o hhand ho => ?_
    have hbefore := hshed.slots hand o ho
    rcases hadmitted hdest hand o hhand hbefore with ⟨rfl, hwhole⟩ | ⟨htwo, hother⟩
    · exact absurd (hlater.slots hand _ ho) (habsent hwhole hand)
    · rw [hshed.isTwoHanded (h.placed hand o hbefore).2]
      have hsame : ((releaseRemoved env w₁ mv.item).item r).id = (w.item mv.item).id :=
        (id_of_attire attire_releaseRemoved r).trans (hid.trans (hmerged.id _ hitem))
      refine ⟨?_, hother⟩
      unfold Player.isTwoHanded Item.getSlotPosition at htwo ⊢
      rwa [hsame]

theorem transfer_kept {ret : ReturnValue} (h : HandsKept env w p) (hitem : mv.item < w.next)
    (hfrom : ∀ s, (w.player p).inventory s = some mv.item → mv.fromCylinder = .player p)
    (hadmitted : d.cylinder = .player p → ∀ hand o, Player.otherHand d.index = some hand →
      (w.player p).inventory hand = some o →
        o = mv.item ∧ (w.item mv.item).LeavesWhole env (units env w mv d) ∨
          Player.isTwoHanded env w mv.item = false ∧ Player.isTwoHanded env w o = false)
    (htransfer : transfer env w mv d toItem = some (ret, w')) : HandsKept env w' p := by
  unfold transfer at htransfer
  dsimp only at htransfer
  split_ifs at htransfer
  · exact (Prod.mk.inj (Option.some.inj htransfer)).2 ▸ h
  · exact (Prod.mk.inj (Option.some.inj htransfer)).2 ▸ h
  · exact (Prod.mk.inj (Option.some.inj htransfer)).2 ▸ h
  · obtain ⟨⟨moved, w₁⟩, hcarry, hend⟩ := Option.map_eq_some_iff.mp htransfer
    refine (carry_kept h hitem hfrom hadmitted hcarry).shed (.of_attire ?_)
    dsimp only at hend
    split_ifs at hend
    · rw [← (Prod.mk.inj hend).2]
    · cases moved with
      | none => rw [← (Prod.mk.inj hend).2]
      | some r => rw [← (Prod.mk.inj hend).2, attire_registerDecay]

theorem exchange_sheds {toItem : ItemRef} : Sheds p w (exchange env w mv toItem c) := by
  have hanywhere : ∀ w : World,
      (Cylinder.addThingAnywhere env w mv.fromCylinder toItem).attire = w.attire := by
    intro w
    cases mv.fromCylinder with
    | container self => exact attire_addThing_container
    | player q => rfl
    | tile pos => exact attire_addThing_tile
  have htaken : Sheds p w (Cylinder.removeThing env w c toItem (w.item toItem).getItemCount) :=
    .removeThing _
  refine htaken.trans (.of_attire ?_)
  unfold exchange
  dsimp only
  split_ifs <;> simp [Cylinder.postAddNotification, Cylinder.postRemoveNotification, hanywhere]

theorem tryAdmit_sheds {ret : ReturnValue} {admitted : Admission}
    (h : tryAdmit env w mv d = some (ret, admitted)) : Sheds p w admitted.world := by
  rcases tryAdmit_cases h with ⟨toItem, -, rfl, -⟩ | ⟨-, rfl, -⟩
  · exact exchange_sheds
  · exact .of_attire rfl

/-- An item is admitted by the query of the destination, by an exchange and a second query, or by an
exchange that is asked for and does not take place. -/
theorem tryAdmit_admits {admitted : Admission}
    (h : tryAdmit env w mv d = some (.noError, admitted)) :
    (admitted.world = w ∧
      (Cylinder.queryAdd env w d.cylinder d.index mv.item mv.count d.flags mv.actor = .noError ∨
        Cylinder.queryAdd env w d.cylinder d.index mv.item mv.count d.flags mv.actor =
          .needExchange)) ∨
    (Cylinder.queryAdd env w d.cylinder d.index mv.item mv.count d.flags mv.actor =
        .needExchange ∧
      Cylinder.queryAdd env admitted.world d.cylinder d.index mv.item mv.count d.flags none =
        .noError) := by
  rcases tryAdmit_cases h with ⟨toItem, hexchanges, rfl, hret⟩ | ⟨-, rfl, -⟩
  · exact .inr ⟨hexchanges.asked, hret.symm⟩
  · refine .inl ⟨rfl, ?_⟩
    unfold tryAdmit at h
    dsimp only at h
    split_ifs at h with hasked
    · exact .inl (Prod.mk.inj (Option.some.inj h)).1
    · exact .inr (not_not.mp hasked)

/-- The destination is a hand, and its rules are not asked or let the item by. -/
def LetsBy (env : Env) (w : World) (p : PlayerId) (d : Destination) (item : ItemRef) (count : Nat) :
    Prop :=
  d.cylinder = .player p ∧
    (Player.queryAdd env w p d.index item count d.flags = .noError ∨
      Player.queryAdd env w p d.index item count d.flags = .needExchange) ∧
    ((Player.otherHand d.index).isSome = true ∧ hasBitSet FLAG_CHILDISOWNER d.flags = true ∨
      Player.Overlooks env w p d.index item ∨ Player.Splits env w p d.index item count)

/-- While a two-handed item is in one hand, nothing is in the other. -/
theorem free_of_twoHanded {index : Int} {hand : Nat} {o : ItemRef} (h : HandsKept env w p)
    (hhand : Player.otherHand index = some hand) (ho : (w.player p).inventory hand = some o)
    (htwo : Player.isTwoHanded env w o = true) : Player.getInventoryItem w p index = none := by
  unfold Player.otherHand at hhand
  cases hx : Player.getInventoryItem w p index with
  | none => rfl
  | some x =>
    unfold Player.getInventoryItem at hx
    split_ifs at hhand hx with hright hrange hleft hrange
    · obtain rfl := Option.some.inj hhand
      rw [hright] at hx
      rw [(h.apart o x ho hx).1] at htwo
      cases htwo
    · obtain rfl := Option.some.inj hhand
      rw [hleft] at hx
      rw [(h.apart x o hx ho).2] at htwo
      cases htwo

theorem onPlayerEquipCheck_ne {index : Int} :
    MoveEvents.onPlayerEquipCheck env w p item index ≠ .needExchange := by
  have hcheck : ∀ event, MoveEvents.equipItemCheck w p event ≠ .needExchange := by
    intro event
    unfold MoveEvents.equipItemCheck
    dsimp only
    split_ifs <;> decide
  unfold MoveEvents.onPlayerEquipCheck
  split
  · decide
  · split_ifs
    · decide
    · decide
    · exact hcheck _
    · exact hcheck _

/-- Nothing is exchanged with an empty hand. -/
theorem queryAdd_free_ne {index : Int} {count flags hand : Nat}
    (hflags : hasBitSet FLAG_CHILDISOWNER flags = false)
    (hhand : Player.otherHand index = some hand)
    (hfree : Player.getInventoryItem w p index = none) :
    Player.queryAdd env w p index item count flags ≠ .needExchange := by
  intro h
  have hslot := Player.slotResult_of_queryAdd (.inr h) hflags hhand
  unfold Player.queryAdd at h
  dsimp only at h
  rw [hflags, hslot, hfree] at h
  split_ifs at h
  all_goals exact onPlayerEquipCheck_ne h

theorem leavesWhole_of_free {hand : Nat} (hdest : d.cylinder = .player p)
    (hhand : Player.otherHand d.index = some hand)
    (hfree : Player.getInventoryItem w p d.index = none)
    (hquery : Player.queryAdd env w p d.index mv.item mv.count d.flags = .noError)
    (hcount : (w.item mv.item).isStackable env.items = true →
      min mv.count 100 = (w.item mv.item).getItemCount) :
    (w.item mv.item).LeavesWhole env (units env w mv d) := by
  rintro ⟨hstack, hne⟩
  have hindex : d.index ≠ INDEX_WHEREEVER := by
    unfold Player.otherHand at hhand
    unfold INDEX_WHEREEVER
    split_ifs at hhand with hright hleft
    · rw [hright]
      decide
    · rw [hleft]
      decide
  have hmax :
      (Cylinder.queryMaxCount env w d.cylinder d.index mv.item mv.count d.flags).2 = 100 := by
    rw [hdest]
    unfold Cylinder.queryMaxCount Player.queryMaxCount Player.getThing
    dsimp only
    rw [if_neg hindex, hfree]
    dsimp only
    rw [if_pos hquery, if_pos hstack]
  unfold units moveCount at hne
  rw [if_pos hstack, hmax] at hne
  exact hne (hcount hstack)

theorem overlooks_of_sheds {index : Int} (h : HandsKept env w p) (hshed : Sheds p w w')
    (hitem : item < w.next) (hover : Player.Overlooks env w' p index item) :
    Player.Overlooks env w p index item := by
  obtain ⟨hand, o, hhand, ho, htwo, hone, hrest⟩ := hover
  have hbefore := hshed.slots hand o ho
  rw [hshed.isTwoHanded (h.placed hand o hbefore).2] at htwo
  rw [hshed.isTwoHanded hitem] at hone
  refine ⟨hand, o, hhand, hbefore, htwo, hone, ?_⟩
  unfold Item.getSlotPosition at hrest ⊢
  rwa [hshed.id item hitem] at hrest

/-- A move keeps the hands apart unless the rules for a hand let the item by. -/
theorem move_kept {ret : ReturnValue} (h : HandsKept env w p) (hitem : mv.item < w.next)
    (hfrom : ∀ s, (w.player p).inventory s = some mv.item → mv.fromCylinder = .player p)
    (hno : ¬ LetsBy env w p (destination env w mv) mv.item mv.count)
    (hmove : internalMoveItem env w mv = some (ret, w')) : HandsKept env w' p := by
  rcases internalMoveItem_cases hmove with ⟨-, rfl⟩ | ⟨-, -, ret', admitted, hadmit, -, hrest⟩
  · exact h
  have hshed : Sheds p w admitted.world := tryAdmit_sheds hadmit
  rcases hrest with ⟨-, rfl⟩ | ⟨rfl, htransfer⟩
  · exact h.shed hshed
  refine transfer_kept (h.shed hshed) (hitem.trans_le hshed.next)
    (fun s hs => hfrom s (hshed.slots s _ hs)) (fun hdest hand o hhand ho => ?_) htransfer
  have hadmits := tryAdmit_admits hadmit
  rw [hdest] at hadmits
  have hquery : Player.queryAdd env w p (destination env w mv).index mv.item mv.count
      (destination env w mv).flags = .noError ∨ Player.queryAdd env w p (destination env w mv).index
        mv.item mv.count (destination env w mv).flags = .needExchange :=
    hadmits.elim And.right fun hx => .inr hx.1
  have hquery' : Player.queryAdd env admitted.world p (destination env w mv).index mv.item mv.count
      (destination env w mv).flags = .noError ∨ Player.queryAdd env admitted.world p
        (destination env w mv).index mv.item mv.count (destination env w mv).flags =
          .needExchange :=
    hadmits.elim (fun hx => hx.1.symm ▸ hx.2) fun hx => .inl hx.2
  have hflags : hasBitSet FLAG_CHILDISOWNER (destination env w mv).flags = false := by
    by_contra hflag
    exact hno ⟨hdest, hquery, .inl ⟨by rw [hhand]; rfl, by simpa using hflag⟩⟩
  by_cases hnone : Player.isTwoHanded env admitted.world mv.item = false ∧
      Player.isTwoHanded env admitted.world o = false
  · exact .inr hnone
  have htwo : Player.isTwoHanded env admitted.world mv.item = true ∨
      Player.isTwoHanded env admitted.world o = true := by
    rw [← Bool.not_eq_false, ← Bool.not_eq_false, ← not_and_or]
    exact hnone
  rcases Player.slotResult_hand (Player.slotResult_of_queryAdd hquery' hflags hhand) hhand ho htwo
    with ⟨hclassic, rfl, hboth⟩ | hover
  · -- the item comes over from the other hand, so that this one is empty
    have hbefore := hshed.slots hand _ ho
    rw [hshed.isTwoHanded hitem] at hboth
    have hfree := free_of_twoHanded h hhand hbefore hboth
    have hnex := @queryAdd_free_ne env w p mv.item (destination env w mv).index mv.count
      (destination env w mv).flags hand hflags hhand hfree
    rcases hadmits with ⟨heq, hok | hex⟩ | ⟨hex, -⟩
    · refine .inl ⟨rfl, ?_⟩
      rw [heq]
      refine leavesWhole_of_free hdest hhand hfree hok fun hstack => ?_
      by_contra hne
      exact hno ⟨hdest, hquery, .inr (.inr ⟨hand, hhand, hbefore, hclassic, hboth, hstack, hne⟩)⟩
    · exact absurd hex hnex
    · exact absurd hex hnex
  · exact absurd ⟨hdest, hquery, .inr (.inl (overlooks_of_sheds h hshed hitem hover))⟩ hno

/-! ## Additions -/

section Additions

variable {toCylinder : Cylinder} {a b : AddCall} {t : ItemRef}

theorem merged_sheds : Sheds p a.world (a.merged env toCylinder t) := .of_attire attire_updateThing

/-- The units that are left over are a new item, which is in no slot. -/
theorem remainder_sheds (h : HandsKept env a.world p)
    (hrest : a.remainder env toCylinder t = some b) :
    Sheds p a.world b.world ∧ b.item < b.world.next ∧
      ∀ s, (b.world.player p).inventory s ≠ some b.item := by
  obtain ⟨⟨copy, w₁⟩, hclone, rfl⟩ := Option.map_eq_some_iff.mp hrest
  obtain ⟨hshed, hcopy, hlt, -⟩ := @cloneItem_sheds env _ w₁ p a.item copy hclone
  have hcounted : (w₁.modifyItem copy fun it => it.setItemCount (a.rest env toCylinder t)).attire =
      w₁.attire := attire_modifyItem fun it => it.setItemCount_id _
  refine ⟨(merged_sheds.trans hshed).trans (.of_attire hcounted), hlt, fun s hs => ?_⟩
  have hbefore : ((a.merged env toCylinder t).player p).inventory s = some copy :=
    hshed.slots s copy hs
  exact Nat.ne_of_lt ((h.shed merged_sheds).placed s copy hbefore).2 hcopy

theorem addWhole_kept {d : Destination} (h : HandsKept env w p) (hitem : item < w.next)
    (habsent : ∀ s, (w.player p).inventory s ≠ some item)
    (hadmitted : d.cylinder = .player p → ∀ hand o, Player.otherHand d.index = some hand →
      (w.player p).inventory hand = some o →
        Player.isTwoHanded env w item = false ∧ Player.isTwoHanded env w o = false) :
    HandsKept env (addWhole env w d item) p :=
  (h.addThing hitem habsent hadmitted).shed (.of_attire attire_notifyAdded)

/-- What the query lets into a hand is next to nothing two-handed, unless the rules let it by. -/
theorem passes_admitted (habsent : ∀ s, (a.world.player p).inventory s ≠ some a.item)
    (hno : ¬ LetsBy env a.world p (a.dest env toCylinder) a.item a.count)
    (hpasses : a.Passes env toCylinder) (hdest : (a.dest env toCylinder).cylinder = .player p)
    {hand : Nat} {o : ItemRef} (hhand : Player.otherHand (a.dest env toCylinder).index = some hand)
    (ho : (a.world.player p).inventory hand = some o) :
    Player.isTwoHanded env a.world a.item = false ∧ Player.isTwoHanded env a.world o = false := by
  have hquery := hpasses.1
  rw [hdest] at hquery
  have hflags : hasBitSet FLAG_CHILDISOWNER (a.dest env toCylinder).flags = false := by
    by_contra hflag
    exact hno ⟨hdest, .inl hquery, .inl ⟨by rw [hhand]; rfl, by simpa using hflag⟩⟩
  by_contra hnone
  have htwo : Player.isTwoHanded env a.world a.item = true ∨
      Player.isTwoHanded env a.world o = true := by
    rw [← Bool.not_eq_false, ← Bool.not_eq_false, ← not_and_or]
    exact hnone
  rcases Player.slotResult_hand (Player.slotResult_of_queryAdd (.inl hquery) hflags hhand) hhand ho
    htwo with ⟨-, rfl, -⟩ | hover
  · exact habsent hand ho
  · exact hno ⟨hdest, .inl hquery, .inr (.inl hover)⟩

/-- An addition keeps the hands apart unless the rules for a hand let the item, or a remainder of
it, by. -/
theorem add_kept {fuel : Nat} {added : Added} (h : HandsKept env a.world p)
    (hitem : a.item < a.world.next)
    (habsent : ∀ s, (a.world.player p).inventory s ≠ some a.item)
    (hno : ∀ b, AddCall.Makes env toCylinder a b →
      ¬ LetsBy env b.world p (b.dest env toCylinder) b.item b.count)
    (hadd : internalAddItemAux env toCylinder a.flags false fuel a.world a.item a.index =
      some added) : HandsKept env added.world p := by
  induction fuel generalizing a added with
  | zero => cases hadd
  | succ fuel ih =>
    unfold internalAddItemAux at hadd
    dsimp only at hadd
    split_ifs at hadd with hquery hmax htest
    · rw [← Option.some.inj hadd]
      exact h
    · rw [← Option.some.inj hadd]
      exact h
    · cases htest
    have hpasses : a.Passes env toCylinder := ⟨not_not.mp hquery, not_not.mp hmax⟩
    obtain ⟨added₁, hplace, rfl⟩ := Option.map_eq_some_iff.mp hadd
    refine HandsKept.shed ?_ (.of_attire attire_registerAdded)
    have hadmitted := fun hdest hand o hhand ho =>
      @passes_admitted env p toCylinder a habsent (hno a (.self a)) hpasses hdest hand o hhand ho
    rcases AddCall.place_cases hplace with ⟨-, heq⟩ | ⟨t, hstack, ⟨-, heq⟩ | ⟨-, -, heq⟩ |
      ⟨hpos, hne, b, added', hb, hagain, heq⟩⟩
    · rw [heq]
      exact addWhole_kept h hitem habsent hadmitted
    · rw [heq]
      exact h.shed (merged_sheds.trans (.of_attire (attire_notifyAdded.trans attire_releaseItem)))
    · have hmerged : Sheds p a.world (a.merged env toCylinder t) := merged_sheds
      rw [heq]
      refine addWhole_kept (h.shed hmerged) (hitem.trans_le hmerged.next)
        (fun s hs => habsent s (hmerged.slots s _ hs)) fun hdest hand o hhand ho => ?_
      have hbefore := hmerged.slots hand o ho
      rw [hmerged.isTwoHanded hitem, hmerged.isTwoHanded (h.placed hand o hbefore).2]
      exact hadmitted hdest hand o hhand hbefore
    · obtain ⟨hshed, hlt, hnot⟩ := remainder_sheds h hb
      have hflags : b.flags = (a.dest env toCylinder).flags ∧ b.index = INDEX_WHEREEVER := by
        obtain ⟨_, -, rfl⟩ := Option.map_eq_some_iff.mp hb
        exact ⟨rfl, rfl⟩
      have hkept : HandsKept env added'.world p := by
        refine ih (h.shed hshed) hlt hnot (fun x hx => ?_) ?_
        · exact hno x (.remainder hpasses hstack hpos hne hb hx)
        · rw [hflags.1, hflags.2]
          exact hagain
      rcases heq with heq | heq <;> rw [heq]
      · exact hkept
      · exact hkept.shed (.of_attire attire_releaseItem)

end Additions

theorem internalRemoveItem_sheds {count : Option Nat} {test : Bool} {flags : Nat} :
    Sheds p w (internalRemoveItem env w item count test flags).2 := by
  have hgone : ∀ w : World, (if w.isRemoved item then
      (if w.canDecay env item then removeFromFirstBucket w item else w).releaseItem item
      else w).attire = w.attire := by
    intro w
    split_ifs <;> rfl
  unfold internalRemoveItem
  split
  · exact .of_attire rfl
  · dsimp only
    split
    · exact .of_attire rfl
    split
    · exact .of_attire rfl
    split
    · exact .of_attire rfl
    · exact (Sheds.removeThing _).trans (.of_attire (attire_refreshWeight.trans (hgone _)))

/-! ## Runs -/

/-- What the game does to items. -/
inductive ItemOp where
  | create (type count : Nat)
  | call (call : ItemCall)
  | remove (item : ItemRef) (count : Option Nat) (test : Bool) (flags : Nat)

namespace ItemOp

def run (env : Env) (w : World) : ItemOp → Option World
  | .create type count => (Item.CreateItem env.items type count).map w.alloc
  | .call c => c.run env w
  | .remove item count test flags => some (internalRemoveItem env w item count test flags).2

/-- What the callers see to: the items are there, an item is moved from where it is, and an item
that is added is not in the inventory yet. -/
def Stands (w : World) (p : PlayerId) : ItemOp → Prop
  | .call (.move mv) => mv.item < w.next ∧
      ∀ s, (w.player p).inventory s = some mv.item → mv.fromCylinder = .player p
  | .call (.add _ item _ _ _) => item < w.next ∧ ∀ s, (w.player p).inventory s ≠ some item
  | _ => True

/-- The operation puts an item into a hand whose rules let it by. -/
def LetBy (env : Env) (w : World) (p : PlayerId) : ItemOp → Prop
  | .call (.move mv) => LetsBy env w p (destination env w mv) mv.item mv.count
  | .call (.add toCylinder item index flags false) => ∃ b, AddCall.Makes env toCylinder
      ⟨w, item, index, flags⟩ b ∧ LetsBy env b.world p (b.dest env toCylinder) b.item b.count
  | _ => False

/-- Runs of operations, with a condition on the state before each. -/
inductive Runs (env : Env) (fits : World → ItemOp → Prop) : World → World → Prop
  | nil (w : World) : Runs env fits w w
  | step {w w' w'' : World} (op : ItemOp) (hfits : fits w op) (hrun : op.run env w = some w')
      (h : Runs env fits w' w'') : Runs env fits w w''

theorem run_kept {op : ItemOp} (h : HandsKept env w p) (hstands : op.Stands w p)
    (hno : ¬ op.LetBy env w p) (hrun : op.run env w = some w') : HandsKept env w' p := by
  cases op with
  | create type count =>
    obtain ⟨it, -, rfl⟩ := Option.map_eq_some_iff.mp hrun
    exact h.shed (.alloc w it)
  | remove item count test flags =>
    obtain rfl := Option.some.inj hrun
    exact h.shed internalRemoveItem_sheds
  | call call =>
    cases call with
    | move mv =>
      obtain ⟨⟨ret, w₁⟩, hmove, rfl⟩ := Option.map_eq_some_iff.mp hrun
      exact move_kept h hstands.1 hstands.2 hno hmove
    | add toCylinder item index flags test =>
      obtain ⟨added, hadd, rfl⟩ := Option.map_eq_some_iff.mp hrun
      unfold internalAddItem at hadd
      cases test with
      | true =>
        unfold internalAddItemAux at hadd
        dsimp only at hadd
        split_ifs at hadd with hquery hmax htest
        · exact Option.some.inj hadd ▸ h
        · exact Option.some.inj hadd ▸ h
        · exact Option.some.inj hadd ▸ h
        · exact absurd rfl htest
      | false =>
        exact @add_kept env p toCylinder ⟨w, item, index, flags⟩ _ added h hstands.1 hstands.2
          (fun b hb hlets => hno ⟨b, hb, hlets⟩) hadd

theorem Runs.kept (h : HandsKept env w p)
    (hruns : Runs env (fun w op => op.Stands w p ∧ ¬ op.LetBy env w p) w w') :
    HandsKept env w' p := by
  induction hruns with
  | nil w => exact h
  | step op hfits hrun _ ih => exact ih (run_kept h hfits.1 hfits.2 hrun)

/-- In a run in which no item is let by, the hands stay apart. -/
theorem Runs.handsApart (h : HandsKept env w p)
    (hruns : Runs env (fun w op => op.Stands w p ∧ ¬ op.LetBy env w p) w w') :
    Player.HandsApart env w' p := (hruns.kept h).apart

/-- Every run from an empty inventory leaves the hands apart. -/
def KeepsHandsApart : Prop := ∀ (env : Env) (p : PlayerId) (w w' : World),
  (∀ s, (w.player p).inventory s = none) → Runs env (fun w op => op.Stands w p) w w' →
    Player.HandsApart env w' p

/-! A server with the classic rules, on which throwing stars need both hands. -/

def throwingStar : ItemType :=
  { goldCoin with id := 2399, weight := 200, worth := 0, weaponType := .distance,
                  slotPosition := SLOTP_HAND ||| SLOTP_TWO_HAND }

def starEnv : Env :=
  { Env.quiet (Items.ofEntries [throwingStar]) with classicEquipmentSlots := true }

def twoStars : World :=
  World.ofItems [(Item.CreateItem starEnv.items throwingStar.id 2).getD (World.blank.item 0)]

def takeStars : ItemOp := .call (.add (.player 0) 0 CONST_SLOT_LEFT 0 false)

def moveStars (count : Nat) : ItemOp :=
  .call (.move
    { fromCylinder := .player 0, toCylinder := .player 0, index := CONST_SLOT_RIGHT, item := 0,
      count := count, flags := 0, actor := none, withEvents := false, tradeItem := none })

def starsInHand : World := Player.addThing twoStars 0 CONST_SLOT_LEFT 0

theorem starsInHand_inventory {s : Nat} {r : ItemRef}
    (h : (starsInHand.player 0).inventory s = some r) : s = CONST_SLOT_LEFT ∧ r = 0 := by
  have hinventory : (starsInHand.player 0).inventory =
      Function.update (fun _ => none) CONST_SLOT_LEFT (some 0) := rfl
  rw [hinventory] at h
  by_cases hs : s = CONST_SLOT_LEFT
  · rw [hs, Function.update_self] at h
    exact ⟨hs, (Option.some.inj h).symm⟩
  · rw [Function.update_of_ne hs] at h
    cases h

/-- Both stars change hands. -/
theorem handsApart_moveStars : ∃ w', (moveStars 2).run starEnv starsInHand = some w' ∧
    Player.HandsApart starEnv w' 0 := by
  obtain ⟨w', hrun⟩ : ∃ w', (moveStars 2).run starEnv starsInHand = some w' :=
    Option.isSome_iff_exists.mp (by decide)
  have hkept : HandsKept starEnv starsInHand 0 := by
    refine ⟨fun s r hs => ?_, fun s t r hs ht => ?_, fun left right _ hright => ?_⟩
    · obtain ⟨rfl, rfl⟩ := starsInHand_inventory hs
      decide
    · rw [(starsInHand_inventory hs).1, (starsInHand_inventory ht).1]
    · exact absurd (starsInHand_inventory hright).1 (by decide)
  have hno : ¬ (moveStars 2).LetBy starEnv starsInHand 0 := by
    rintro ⟨-, -, ⟨-, hflag⟩ | ⟨_, _, -, -, -, hitem, -⟩ | ⟨_, -, -, -, -, -, hne⟩⟩
    · exact absurd hflag (by decide)
    · exact absurd hitem (by decide)
    · exact hne (by decide)
  exact ⟨w', hrun, Runs.handsApart hkept
    (.step (moveStars 2) ⟨⟨by decide, fun _ _ => rfl⟩, hno⟩ hrun (.nil w'))⟩

/-- One of the two stars changes hands. -/
theorem not_keepsHandsApart : ¬ KeepsHandsApart := by
  intro hall
  have hsplit : (((takeStars.run starEnv twoStars).bind fun w => (moveStars 1).run starEnv w).map
      fun w => ((w.player 0).inventory CONST_SLOT_LEFT, (w.player 0).inventory CONST_SLOT_RIGHT,
        Player.isTwoHanded starEnv w 0)) = some (some 0, some 1, true) := by decide
  obtain ⟨w', hrun, hends⟩ := Option.map_eq_some_iff.mp hsplit
  obtain ⟨w₁, htake, hmove⟩ := Option.bind_eq_some_iff.mp hrun
  obtain ⟨hleft, hrest⟩ := Prod.mk.inj hends
  obtain ⟨hright, htwo⟩ := Prod.mk.inj hrest
  have hnext : (takeStars.run starEnv twoStars).map (·.next) = some 1 := by decide
  rw [htake] at hnext
  have hruns : Runs starEnv (fun w op => op.Stands w 0) twoStars w' := by
    refine .step takeStars ⟨by decide, fun _ hs => nomatch hs⟩ htake ?_
    refine .step (moveStars 1) ⟨?_, fun _ _ => rfl⟩ hmove (.nil w')
    exact lt_of_lt_of_eq Nat.zero_lt_one (Option.some.inj hnext).symm
  have hapart := hall starEnv 0 twoStars w' (fun _ => rfl) hruns 0 1 hleft hright
  rw [htwo] at hapart
  cases hapart.1

end ItemOp

end Game

end Eloth
