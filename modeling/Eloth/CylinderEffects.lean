import Eloth.Cylinder
import Eloth.ContainerRun
import Eloth.Holdings

/-!
# What containers and inventories do

Each change of a container or of an inventory as one of the three operations on holdings.
-/

namespace Eloth

/-! ## Items -/

namespace Item

variable {items : Items} {item : Item} {n : Nat}

@[simp] theorem setItemCount_count (item : Item) (n : Nat) :
    (item.setItemCount n).count = n % 2 ^ 8 := rfl

end Item

/-! ## Frames of the updates -/

section Updates

variable {w : World} {r self : ItemRef} {p : Option Cylinder} {g : Container → Container}

theorem record_modifyItem {f : Item → Item} (hne : r ≠ self) :
    ((w.modifyItem self f).item r).record = (w.item r).record := by
  rw [World.modifyItem_item_ne hne]

theorem record_setParent : ((w.setParent self p).item r).record = (w.item r).record :=
  World.setParent_proj Item.record fun _ => rfl

theorem record_modifyContainer : ((w.modifyContainer self g).item r).record = (w.item r).record :=
  World.modifyContainer_proj Item.record fun _ _ => rfl

theorem frame_setParent : Frame w (w.setParent self p) :=
  ⟨fun r => by simp, fun r => by simp, rfl⟩

theorem frame_modifyContainer (hg : ∀ c, (g c).maxSize = c.maxSize) :
    Frame w (w.modifyContainer self g) := by
  refine ⟨fun r => by simp, fun r => ?_, rfl⟩
  by_cases hr : r = self
  · subst hr
    cases hc : w.isContainer r with
    | true => rw [World.modifyContainer_container_self hc]; exact hg _
    | false => rw [World.container_of_not_isContainer hc,
        World.container_of_not_isContainer (by simpa using hc)]
  · rw [World.modifyContainer_container_ne hr]

theorem frame_setSlot (q : PlayerId) (slot : Nat) (x : Option ItemRef) :
    Frame w (w.setSlot q slot x) := ⟨fun _ => rfl, fun _ => rfl, rfl⟩

theorem changed_modifyItem {f : Item → Item} (hcls : ∀ it, (f it).cls = it.cls)
    (hparent : ∀ it, (f it).parent = it.parent) : Changed w (w.modifyItem self f) self := by
  have hcontainer : ∀ r, (w.modifyItem self f).container r = w.container r := fun r => by
    unfold World.container
    rw [show ((w.modifyItem self f).item r).getContainer = (w.item r).getContainer from
      World.modifyItem_proj Item.getContainer fun it => by simp only [Item.getContainer, hcls]]
  refine ⟨fun c => ?_, fun r => ?_, fun r hr => record_modifyItem hr, ?_, fun r => ?_, rfl⟩
  · cases c with
    | container r => exact congrArg Container.itemlist (hcontainer r)
    | player q => rfl
    | tile pos => rfl
  · exact World.modifyItem_proj Item.parent hparent
  · intro r
    unfold World.isContainer
    rw [show ((w.modifyItem self f).item r).getContainer = (w.item r).getContainer from
      World.modifyItem_proj Item.getContainer fun it => by simp only [Item.getContainer, hcls]]
  · exact congrArg Container.capacity (hcontainer r)

end Updates

variable {env : Env} {w : World} {item : ItemRef}

/-! ## Containers -/

namespace Container

variable {self : ItemRef}

theorem mem_iff_getThingIndex : item ∈ w.itemlist self ↔ getThingIndex w self item ≠ -1 := by
  refine ⟨fun h => ?_, getThingIndex_ne⟩
  unfold getThingIndex
  cases hi : (w.itemlist self).idxOf? item with
  | none => exact absurd h (List.idxOf?_eq_none_iff.mp hi)
  | some i =>
    dsimp only
    omega

theorem pushFront_put (hself : w.isContainer self = true) :
    Put w (pushFront w self item) (.container self) item where
  contents_self := by
    simp only [World.contents, itemlist_pushFront_self hself]
    exact .refl _
  contents_ne c hc := by
    cases c with
    | container r => exact itemlist_pushFront_ne fun h => hc (congrArg Cylinder.container h)
    | player p => rfl
    | tile pos => rfl
  parent r := by
    unfold pushFront
    rw [World.modifyContainer_parent, World.setParent_parent]
  record r := by
    unfold pushFront
    rw [record_modifyContainer, record_setParent]
  frame := frame_setParent.trans (frame_modifyContainer fun _ => rfl)

theorem unlink_took (hmem : item ∈ w.itemlist self) :
    Took w (unlink w self item) (.container self) item where
  contents_self := by
    simp only [World.contents, World.itemlist, unlink_container_self (World.isContainer_of_mem hmem)]
    exact List.perm_cons_erase hmem
  contents_ne c hc := by
    cases c with
    | container r =>
      simp only [World.contents, World.itemlist]
      rw [unlink_container_ne fun h => hc (congrArg Cylinder.container h)]
    | player p => rfl
    | tile pos => rfl
  parent r := by
    unfold unlink
    rw [World.modifyContainer_parent, World.setParent_parent]
  record r := by
    unfold unlink
    rw [record_modifyContainer, record_setParent]
  frame := frame_setParent.trans (frame_modifyContainer fun _ => rfl)

theorem skeleton_addWeight_notify (env : Env) (self : ItemRef) (w : World) (diff : UInt32)
    {event : World → PlayerId → World} (h : ∀ w p, (event w p).untraded = w.untraded) :
    (notifyHolders env (addWeight w self diff) self event).skeleton = w.skeleton :=
  (skeleton_of_untraded (untraded_notifyHolders env _ self h)).trans (skeleton_addWeight w self diff)

theorem addThing_put {index : Int} (hself : w.isContainer self = true)
    (hindex : index < (w.container self).capacity) :
    Put w (addThing env w self index item) (.container self) item := by
  unfold addThing
  rw [if_neg (not_le.mpr hindex)]
  exact (pushFront_put hself).of_skeleton rfl
    (skeleton_addWeight_notify _ _ _ _ fun w p => untraded_onAddContainerItem w p item)

theorem updateThing_changed (hmem : item ∈ w.itemlist self) (itemId count : Nat) :
    Changed w (updateThing env w self item itemId count) item ∧
      ((updateThing env w self item itemId count).item item).record =
        (((w.item item).setID env.items itemId).setSubType env.items count).record := by
  unfold updateThing
  rw [if_neg (mem_iff_getThingIndex.mp hmem)]
  dsimp only
  have hskel := skeleton_addWeight_notify env self
    (w.modifyItem item fun it => (it.setID env.items itemId).setSubType env.items count)
    (-(w.item item).getWeight env.items +
      ((w.modifyItem item fun it => (it.setID env.items itemId).setSubType env.items count).item
        item).getWeight env.items)
    fun w p => untraded_onUpdateContainerItem w p self item item
  refine ⟨(changed_modifyItem (fun it => (it.setSubType_setID env.items itemId count).1)
    fun it => (it.setSubType_setID env.items itemId count).2).of_skeleton rfl hskel, ?_⟩
  rw [record_of_skeleton hskel, World.modifyItem_item_self]

theorem removeThing_part {count : Nat} (hmem : item ∈ w.itemlist self)
    (hpart : (w.item item).isStackable env.items = true ∧ count ≠ (w.item item).getItemCount) :
    Changed w (removeThing env w self item count) item ∧
      ((removeThing env w self item count).item item).record =
        ((w.item item).setItemCount (reducedCount (w.item item).getItemCount count)).record := by
  unfold removeThing
  rw [if_neg (mem_iff_getThingIndex.mp hmem)]
  dsimp only
  rw [if_pos hpart]
  have hskel := skeleton_addWeight_notify env self
    (w.modifyItem item fun it => it.setItemCount (reducedCount it.getItemCount count))
    (-(w.item item).getWeight env.items +
      ((w.modifyItem item fun it => it.setItemCount (reducedCount it.getItemCount count)).item
        item).getWeight env.items)
    fun w p => untraded_onUpdateContainerItem w p self item item
  refine ⟨(changed_modifyItem (fun it => it.setItemCount_cls _)
    fun it => it.setItemCount_parent _).of_skeleton rfl hskel, ?_⟩
  rw [record_of_skeleton hskel, World.modifyItem_item_self]

theorem removeThing_took {count : Nat} (hmem : item ∈ w.itemlist self)
    (hwhole : ¬((w.item item).isStackable env.items = true ∧
      count ≠ (w.item item).getItemCount)) :
    Took w (removeThing env w self item count) (.container self) item := by
  unfold removeThing
  rw [if_neg (mem_iff_getThingIndex.mp hmem)]
  dsimp only
  rw [if_neg hwhole]
  have hskel := skeleton_addWeight_notify env self w
    (-(w.item item).getWeight env.items) fun w p => untraded_onRemoveContainerItem w p self item
  have hmem' : item ∈ (notifyHolders env (addWeight w self (-(w.item item).getWeight env.items))
      self fun w p => Player.onRemoveContainerItem w p self item).itemlist self := by
    rw [itemlist_of_skeleton hskel]
    exact hmem
  exact (unlink_took hmem').of_skeleton hskel rfl

end Container

/-! ## Inventories -/

namespace Player

variable {p : PlayerId}

theorem mem_contents_iff : item ∈ w.contents (.player p) ↔
    ∃ slot ∈ inventorySlots, (w.player p).inventory slot = some item := by
  simp [World.contents, List.mem_filterMap]

theorem getThingIndex_spec (h : getThingIndex w p item ≠ -1) :
    ∃ slot ∈ inventorySlots, getThingIndex w p item = slot ∧
      (w.player p).inventory slot = some item := by
  unfold getThingIndex at h ⊢
  cases hfind : inventorySlots.find? fun slot => (w.player p).inventory slot = some item with
  | none => simp [hfind] at h
  | some slot =>
    refine ⟨slot, List.mem_of_find?_eq_some hfind, rfl, ?_⟩
    simpa using List.find?_some hfind

theorem mem_iff_getThingIndex :
    item ∈ w.contents (.player p) ↔ getThingIndex w p item ≠ -1 := by
  rw [mem_contents_iff]
  constructor
  · rintro ⟨slot, hslot, hitem⟩
    unfold getThingIndex
    cases hfind : inventorySlots.find? fun slot => (w.player p).inventory slot = some item with
    | none => simpa [hitem] using List.find?_eq_none.mp hfind slot hslot
    | some slot' =>
      dsimp only
      omega
  · intro h
    obtain ⟨slot, hslot, -, hitem⟩ := getThingIndex_spec h
    exact ⟨slot, hslot, hitem⟩

theorem setSlot_inventory_ne {w : World} {p q : PlayerId} {slot : Nat} {x : Option ItemRef}
    (h : q ≠ p) : (w.setSlot p slot x).player q = w.player q := by
  simp [World.setSlot, World.setPlayer, h]

theorem setSlot_inventory {w : World} {p : PlayerId} {slot s : Nat} {x : Option ItemRef} :
    ((w.setSlot p slot x).player p).inventory s =
      if s = slot then x else (w.player p).inventory s := by
  by_cases h : s = slot
  · simp [World.setSlot, World.setPlayer, h]
  · simp [World.setSlot, World.setPlayer, h]

theorem contents_setSlot_ne {slot : Nat} {x : Option ItemRef} {c : Cylinder}
    (h : c ≠ .player p) : (w.setSlot p slot x).contents c = w.contents c := by
  cases c with
  | container r => rfl
  | player q =>
    have hne : q ≠ p := fun he => h (congrArg Cylinder.player he)
    simp only [World.contents, setSlot_inventory_ne hne]
  | tile pos => rfl

theorem contents_setParent (w : World) (r : ItemRef) (x : Option Cylinder) (c : Cylinder) :
    (w.setParent r x).contents c = w.contents c := by
  cases c with
  | container self => exact World.setParent_itemlist
  | player q => rfl
  | tile pos => rfl

theorem addThing_put {index : Int} (hindex : 1 ≤ index ∧ index ≤ 10)
    (hfree : (w.player p).inventory index.toNat = none) :
    Put w (addThing w p index item) (.player p) item := by
  have hslot : index.toNat ∈ inventorySlots := mem_inventorySlots.mpr ⟨by omega, by omega⟩
  unfold addThing
  rw [if_neg (by omega)]
  refine ⟨?_, fun c hc => ?_, fun r => ?_, fun r => ?_, ?_⟩
  · refine ListSet.filterMap_perm_cons inventorySlots_nodup hslot hfree ?_ fun s hs => ?_
    · rw [setSlot_inventory, if_pos rfl]
    · rw [setSlot_inventory, if_neg hs]
      rfl
  · rw [contents_setSlot_ne hc, contents_setParent]
  · exact World.setParent_parent
  · exact record_setParent
  · exact frame_setParent.trans (frame_setSlot p _ _)

theorem removeThing_part {count : Nat} (hmem : item ∈ w.contents (.player p))
    (hpart : (w.item item).isStackable env.items = true ∧ count ≠ (w.item item).getItemCount) :
    Changed w (removeThing env w p item count) item ∧
      ((removeThing env w p item count).item item).record =
        ((w.item item).setItemCount
          (Container.reducedCount (w.item item).getItemCount count)).record := by
  unfold removeThing
  dsimp only
  rw [if_neg (mem_iff_getThingIndex.mp hmem), if_pos hpart]
  have hskel := skeleton_of_untraded (untraded_onUpdateInventoryItem
    (w.modifyItem item fun it => it.setItemCount (Container.reducedCount it.getItemCount count)) p
      item item)
  refine ⟨(changed_modifyItem (fun it => it.setItemCount_cls _)
    fun it => it.setItemCount_parent _).of_skeleton rfl hskel, ?_⟩
  rw [record_of_skeleton hskel, World.modifyItem_item_self]

theorem removeThing_took {count : Nat} (hmem : item ∈ w.contents (.player p))
    (hwhole : ¬((w.item item).isStackable env.items = true ∧
      count ≠ (w.item item).getItemCount)) :
    Took w (removeThing env w p item count) (.player p) item := by
  have hindex := mem_iff_getThingIndex.mp hmem
  obtain ⟨slot, hslot, hnum, hitem⟩ := getThingIndex_spec hindex
  unfold removeThing
  dsimp only
  rw [if_neg hindex, if_neg hwhole, hnum, Int.toNat_natCast]
  have hskel := skeleton_of_untraded (untraded_onRemoveInventoryItem w p item)
  have hkeep : ((onRemoveInventoryItem w p item).player p).inventory slot = some item := by
    rw [inventory_of_skeleton hskel]
    exact hitem
  have htook : Took (onRemoveInventoryItem w p item)
      (((onRemoveInventoryItem w p item).setParent item none).setSlot p slot none) (.player p)
        item := by
    refine ⟨?_, fun c hc => ?_, fun r => ?_, fun r => ?_, ?_⟩
    · refine ListSet.filterMap_perm_cons inventorySlots_nodup hslot ?_ hkeep fun s hs => ?_
      · rw [setSlot_inventory, if_pos rfl]
      · rw [setSlot_inventory, if_neg hs]
        rfl
    · rw [contents_setSlot_ne hc, contents_setParent]
    · exact World.setParent_parent
    · exact record_setParent
    · exact frame_setParent.trans (frame_setSlot p _ _)
  exact htook.of_skeleton hskel rfl

end Player

end Eloth
