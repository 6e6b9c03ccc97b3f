import Eloth.AddItem
import Eloth.CylinderEffects
import Eloth.MoveParts
import Eloth.TileFrame

/-!
# The room in a container

How many children a container has after an item has been moved or added. An operation of a
cylinder that is not the container leaves its list alone.
-/

namespace Eloth

/-- A container without its weight. -/
def World.box (w : World) (r : ItemRef) : Option Container :=
  ((w.item r).getContainer).map fun c => { c with totalWeight := 0 }

/-- Whether all units of the item go when `count` of them are removed. -/
def Item.LeavesWhole (env : Env) (item : Item) (count : Nat) : Prop :=
  ¬(item.isStackable env.items = true ∧ count ≠ item.getItemCount)

instance (env : Env) (item : Item) (count : Nat) : Decidable (item.LeavesWhole env count) :=
  inferInstanceAs (Decidable (¬_))

/-- The containers without their weights, and the next free reference. -/
def World.boxes (w : World) : ItemRef × (ItemRef → Option Container) := (w.next, w.box)

section Box

variable {env : Env} {w w' : World} {r self item : ItemRef} {c : Cylinder}

theorem box_of_skeleton (h : w'.skeleton = w.skeleton) : w'.boxes = w.boxes :=
  Prod.ext (next_of_skeleton h) (funext (getContainer_of_skeleton h))

theorem next_of_boxes (h : w'.boxes = w.boxes) : w'.next = w.next := congrArg Prod.fst h

theorem box_of_boxes (h : w'.boxes = w.boxes) (r : ItemRef) : w'.box r = w.box r :=
  congrFun (congrArg Prod.snd h) r

theorem box_modifyItem (w : World) (r : ItemRef) {f : Item → Item} (h : ∀ it, (f it).cls = it.cls) :
    (w.modifyItem r f).boxes = w.boxes := by
  refine Prod.ext rfl (funext fun x => ?_)
  dsimp only [World.boxes]
  unfold World.box
  rw [show ((w.modifyItem r f).item x).getContainer = (w.item x).getContainer from
    World.modifyItem_proj Item.getContainer fun it => by simp only [Item.getContainer, h]]

@[simp] theorem box_setParent {p : Option Cylinder} : (w.setParent r p).boxes = w.boxes :=
  box_modifyItem w r fun _ => rfl

@[simp] theorem box_reduce {count : Nat} :
    (w.modifyItem r fun it =>
      it.setItemCount (Container.reducedCount it.getItemCount count)).boxes = w.boxes :=
  box_modifyItem w r fun it => it.setItemCount_cls _

@[simp] theorem box_retype {itemId count : Nat} :
    (w.modifyItem r fun it => (it.setID env.items itemId).setSubType env.items count).boxes = w.boxes :=
  box_modifyItem w r fun it => (Item.setSubType_setID env.items it itemId count).1

@[simp] theorem box_setTile {pos : Position} {t : Tile} : (w.setTile pos t).boxes = w.boxes := rfl

@[simp] theorem box_modify {pos : Position} {f : Tile → Tile} : (Tile.modify w pos f).boxes = w.boxes :=
  rfl

@[simp] theorem box_setSlot {p : PlayerId} {slot : Nat} {x : Option ItemRef} :
    (w.setSlot p slot x).boxes = w.boxes := rfl

@[simp] theorem box_releaseItem : (w.releaseItem r).boxes = w.boxes := rfl

@[simp] theorem box_pushToDecay : (w.pushToDecay r).boxes = w.boxes := rfl

@[simp] theorem box_updateInventoryWeight {p : PlayerId} :
    (Player.updateInventoryWeight env w p).boxes = w.boxes := by
  unfold Player.updateInventoryWeight
  dsimp only
  split_ifs <;> rfl

@[simp] theorem box_onRemoveInventoryItem {p : PlayerId} :
    (Player.onRemoveInventoryItem w p item).boxes = w.boxes :=
  box_of_skeleton (skeleton_of_untraded (untraded_onRemoveHeldItem w p item))

@[simp] theorem box_onUpdateInventoryItem {p : PlayerId} {newItem : ItemRef} :
    (Player.onUpdateInventoryItem w p item newItem).boxes = w.boxes :=
  box_of_skeleton (skeleton_of_untraded (untraded_onUpdateInventoryItem w p item newItem))

/-! ## Tiles and players -/

theorem boxes_frame (pos : Position) : Tile.Frame pos World.boxes where
  untraded h := box_of_skeleton (skeleton_of_untraded h)
  setTile _ _ := box_setTile
  setParent _ _ _ := box_setParent
  reduce _ _ _ := box_reduce
  releaseItem _ _ := box_releaseItem

@[simp] theorem box_addThing_tile {pos : Position} :
    (Tile.addThing env w pos item).boxes = w.boxes := (boxes_frame pos).addThing

@[simp] theorem box_removeThing_tile {pos : Position} {count : Nat} :
    (Tile.removeThing env w pos item count).boxes = w.boxes := (boxes_frame pos).removeThing

@[simp] theorem box_updateThing_tile {pos : Position} {itemId count : Nat} :
    (Tile.updateThing env w pos item itemId count).boxes = w.boxes :=
  (boxes_frame pos).updateThing fun _ => box_retype

@[simp] theorem box_addThing_player {p : PlayerId} {index : Int} :
    (Player.addThing w p index item).boxes = w.boxes := by
  unfold Player.addThing
  split_ifs <;> simp

@[simp] theorem box_updateThing_player {p : PlayerId} {itemId count : Nat} :
    (Player.updateThing env w p item itemId count).boxes = w.boxes := by
  unfold Player.updateThing
  split_ifs <;> simp

@[simp] theorem box_removeThing_player {p : PlayerId} {count : Nat} :
    (Player.removeThing env w p item count).boxes = w.boxes := by
  unfold Player.removeThing
  dsimp only
  split_ifs <;> simp

/-! ## Containers -/

theorem box_modifyContainer {g : Container → Container} :
    (w.modifyContainer self g).box r =
      if r = self then ((w.item r).getContainer).map fun c => { g c with totalWeight := 0 }
      else w.box r := by
  unfold World.box
  rw [World.modifyContainer_getContainer]
  split_ifs
  · rw [Option.map_map]
    rfl
  · rfl

theorem box_changeWeight (env : Env) (self : ItemRef) (w : World) (diff : UInt32)
    {event : World → PlayerId → World} (h : ∀ w p, (event w p).untraded = w.untraded) :
    (Container.notifyHolders env (Container.addWeight w self diff) self event).boxes = w.boxes :=
  box_of_skeleton (Container.skeleton_addWeight_notify env self w diff h)

/-- A new child stands in front of the others. -/
def Container.pushed (b : Container) (item : ItemRef) : Container :=
  { b with itemlist := item :: b.itemlist }

def Container.without (b : Container) (item : ItemRef) : Container :=
  { b with itemlist := b.itemlist.erase item }

theorem box_addThing_container {index : Int} :
    (Container.addThing env w self index item).box r =
      if r = self ∧ index < (w.container self).capacity then (w.box r).map (·.pushed item)
      else w.box r := by
  unfold Container.addThing
  by_cases hindex : ((w.container self).capacity : Int) ≤ index
  · rw [if_pos hindex, if_neg fun h => absurd h.2 (by omega)]
  have hbox := box_of_boxes (box_changeWeight env self (Container.pushFront w self item)
    (((Container.pushFront w self item).item item).getWeight env.items)
    fun w p => untraded_onAddContainerItem w p item) r
  rw [if_neg hindex]
  refine hbox.trans ?_
  rw [Container.pushFront, box_modifyContainer]
  by_cases hr : r = self
  · rw [if_pos hr, if_pos ⟨hr, by omega⟩, ← box_of_boxes box_setParent]
    unfold World.box
    rw [Option.map_map]
    rfl
  · rw [if_neg hr, if_neg fun h => hr h.1, box_of_boxes box_setParent]

theorem next_addThing_container {index : Int} :
    (Container.addThing env w self index item).next = w.next := by
  unfold Container.addThing
  split_ifs
  · rfl
  · have h := next_of_boxes (box_changeWeight env self (Container.pushFront w self item)
      (((Container.pushFront w self item).item item).getWeight env.items)
      fun w p => untraded_onAddContainerItem w p item)
    exact h

@[simp] theorem box_updateThing_container {itemId count : Nat} :
    (Container.updateThing env w self item itemId count).boxes = w.boxes := by
  unfold Container.updateThing
  split_ifs
  · rfl
  · dsimp only
    rw [box_changeWeight _ _ _ _ fun w p => untraded_onUpdateContainerItem w p self item item,
      box_retype]

/-- The item leaves the list of the container unless only some of its units go. -/
theorem box_removeThing_container {count : Nat} :
    (Container.removeThing env w self item count).box r =
      if r = self ∧ Container.getThingIndex w self item ≠ -1 ∧
          (w.item item).LeavesWhole env count then
        (w.box r).map (·.without item)
      else w.box r := by
  unfold Container.removeThing
  by_cases hindex : Container.getThingIndex w self item = -1
  · rw [if_pos hindex, if_neg fun h => h.2.1 hindex]
  rw [if_neg hindex]
  dsimp only
  by_cases hpart : (w.item item).isStackable env.items = true ∧ count ≠ (w.item item).getItemCount
  · rw [if_pos hpart, if_neg fun h => h.2.2 hpart, box_of_boxes (box_changeWeight _ _ _ _
      fun w p => untraded_onUpdateContainerItem w p self item item), box_of_boxes box_reduce]
  · have hbox : ((Container.notifyHolders env
        (Container.addWeight w self (-(w.item item).getWeight env.items)) self
          fun w p => Player.onRemoveContainerItem w p self item).setParent item none).boxes =
        w.boxes := by
      rw [box_setParent,
        box_changeWeight _ _ _ _ fun w p => untraded_onRemoveContainerItem w p self item]
    rw [if_neg hpart, box_modifyContainer]
    by_cases hr : r = self
    · rw [if_pos hr, if_pos ⟨hr, hindex, hpart⟩, ← box_of_boxes hbox]
      unfold World.box
      rw [Option.map_map]
      rfl
    · rw [if_neg hr, if_neg fun h => hr h.1, box_of_boxes hbox]

theorem next_removeThing_container {count : Nat} :
    (Container.removeThing env w self item count).next = w.next := by
  unfold Container.removeThing
  dsimp only
  split_ifs
  · rfl
  · exact next_of_boxes ((box_changeWeight _ _ _ _
      fun w p => untraded_onUpdateContainerItem w p self item item).trans box_reduce)
  · have h := next_of_boxes (box_changeWeight env self w
      (-(w.item item).getWeight env.items) fun w p => untraded_onRemoveContainerItem w p self item)
    exact h

end Box

/-- The number of children of a container and its capacity. -/
def World.room (w : World) (r : ItemRef) : Option (Nat × Nat) :=
  (w.box r).map fun c => (c.size, c.capacity)

section Room

variable {env : Env} {w w' : World} {r item : ItemRef} {c : Cylinder} {n capacity : Nat}

theorem room_eq_some_iff : w.room r = some (n, capacity) ↔ w.isContainer r = true ∧
    (w.container r).size = n ∧ (w.container r).capacity = capacity := by
  unfold World.room World.box World.isContainer World.container
  cases (w.item r).getContainer <;> simp [Container.size, Container.capacity]

theorem room_of_boxes (h : w'.boxes = w.boxes) (r : ItemRef) : w'.room r = w.room r := by
  unfold World.room
  rw [box_of_boxes h]

theorem room_addThing {index : Int} (h : w.room r = some (n, capacity)) :
    (Cylinder.addThing env w c index item).room r =
      some (if c = .container r ∧ index < capacity then n + 1 else n, capacity) := by
  obtain ⟨-, -, hcapacity⟩ := room_eq_some_iff.mp h
  cases c with
  | container self =>
    unfold World.room
    rw [Cylinder.addThing, box_addThing_container]
    by_cases hroom : r = self ∧ index < (w.container self).capacity
    · obtain ⟨rfl, hlt⟩ := hroom
      rw [hcapacity] at hlt
      rw [if_pos ⟨rfl, by omega⟩, if_pos ⟨rfl, hlt⟩, Option.map_map]
      obtain ⟨b, hb, hpair⟩ := Option.map_eq_some_iff.mp h
      obtain ⟨rfl, rfl⟩ := Prod.mk.inj hpair
      rw [hb]
      rfl
    · rw [if_neg hroom, if_neg]
      · exact h
      · rintro ⟨heq, hlt⟩
        obtain rfl := Cylinder.container.inj heq
        exact hroom ⟨rfl, by omega⟩
  | player p =>
    rw [Cylinder.addThing, room_of_boxes box_addThing_player, h, if_neg fun h => nomatch h.1]
  | tile pos =>
    rw [Cylinder.addThing, room_of_boxes box_addThing_tile, h, if_neg fun h => nomatch h.1]

theorem room_removeThing {count : Nat} (h : w.room r = some (n, capacity)) :
    (Cylinder.removeThing env w c item count).room r =
      some (if c = .container r ∧ Cylinder.getThingIndex env w c item ≠ -1 ∧
        (w.item item).LeavesWhole env count then n - 1 else n, capacity) := by
  cases c with
  | container self =>
    unfold World.room
    rw [Cylinder.removeThing, box_removeThing_container]
    by_cases hgone : r = self ∧ Container.getThingIndex w self item ≠ -1 ∧
        (w.item item).LeavesWhole env count
    · obtain ⟨rfl, hindex, hwhole⟩ := hgone
      have hmem : item ∈ w.itemlist r := Container.mem_iff_getThingIndex.mpr hindex
      obtain ⟨b, hb, hpair⟩ := Option.map_eq_some_iff.mp h
      obtain ⟨rfl, rfl⟩ := Prod.mk.inj hpair
      have hlist : b.itemlist = w.itemlist r := by
        unfold World.itemlist World.container
        obtain ⟨b', hb', rfl⟩ := Option.map_eq_some_iff.mp hb
        rw [hb']
        rfl
      rw [if_pos ⟨rfl, hindex, hwhole⟩, if_pos ⟨rfl, hindex, hwhole⟩, Option.map_map, hb]
      simp only [Option.map_some, Function.comp_apply, Container.without, Container.size,
        Container.capacity, hlist, List.length_erase_of_mem hmem]
    · rw [if_neg hgone, if_neg]
      · exact h
      · rintro ⟨heq, hrest⟩
        obtain rfl := Cylinder.container.inj heq
        exact hgone ⟨rfl, hrest⟩
  | player p =>
    rw [Cylinder.removeThing, room_of_boxes box_removeThing_player, h, if_neg fun h => nomatch h.1]
  | tile pos =>
    rw [Cylinder.removeThing, room_of_boxes box_removeThing_tile, h, if_neg fun h => nomatch h.1]

theorem next_addThing {index : Int} : (Cylinder.addThing env w c index item).next = w.next := by
  cases c with
  | container self => exact next_addThing_container
  | player p => exact next_of_boxes box_addThing_player
  | tile pos => exact next_of_boxes box_addThing_tile

theorem next_removeThing {count : Nat} :
    (Cylinder.removeThing env w c item count).next = w.next := by
  cases c with
  | container self => exact next_removeThing_container
  | player p => exact next_of_boxes box_removeThing_player
  | tile pos => exact next_of_boxes box_removeThing_tile

@[simp] theorem box_updateThing {itemId count : Nat} :
    (Cylinder.updateThing env w c item itemId count).boxes = w.boxes := by
  cases c <;> simp [Cylinder.updateThing]

@[simp] theorem box_refreshWeight : (Cylinder.refreshWeight env w c).boxes = w.boxes := by
  unfold Cylinder.refreshWeight
  split
  · split <;> simp
  · simp
  · rfl

namespace Game

theorem box_bookkeeping (env : Env) : Bookkeeping env fun w w' => w'.boxes = w.boxes where
  refl _ := rfl
  refreshWeight _ _ := box_refreshWeight
  recount _ _ _ _ := box_updateThing
  releaseItem _ _ := box_releaseItem

@[simp] theorem box_notifyAdded {added : Option ItemRef} :
    (notifyAdded env c w added).boxes = w.boxes := (box_bookkeeping env).notifyAdded w c added

@[simp] theorem box_notifyRemoved {itemIndex : Int} :
    (notifyRemoved env c itemIndex w).boxes = w.boxes :=
  (box_bookkeeping env).notifyRemoved w c itemIndex

@[simp] theorem box_mergeStack {n : Nat} {merged : Option ItemRef} :
    (mergeStack env w c n merged).boxes = w.boxes := (box_bookkeeping env).mergeStack w c n merged

@[simp] theorem box_releaseRemoved : (releaseRemoved env w item).boxes = w.boxes :=
  (box_bookkeeping env).releaseRemoved w item

@[simp] theorem box_setDecaying {n : Int} :
    (w.modifyItem item fun it => it.setDecaying n).boxes = w.boxes :=
  box_modifyItem w item fun _ => rfl

@[simp] theorem box_registerDecay : (registerDecay w item).boxes = w.boxes := by
  unfold registerDecay
  split_ifs
  · rw [box_pushToDecay, box_setDecaying]
  · rfl

@[simp] theorem box_registerAdded : (registerAdded w item).boxes = w.boxes := by
  unfold registerAdded
  split_ifs
  · rw [box_pushToDecay, box_setDecaying]
  · rfl

end Game

theorem World.cloneItem_spec {copy : ItemRef} (h : w.cloneItem env item = some (copy, w')) :
    copy = w.next ∧ w'.next = w.next + 1 ∧ ∀ x, x ≠ w.next → w'.item x = w.item x := by
  unfold World.cloneItem at h
  obtain ⟨it, -, hpair⟩ := Option.map_eq_some_iff.mp h
  obtain ⟨rfl, rfl⟩ := Prod.mk.inj hpair
  refine ⟨rfl, ?_, fun x hx => ?_⟩
  · split_ifs <;> rfl
  · split_ifs <;> exact Function.update_of_ne hx _ _

theorem room_cloneItem {copy : ItemRef} (h : w.cloneItem env item = some (copy, w'))
    (hr : r < w.next) : w'.room r = w.room r := by
  unfold World.room World.box
  rw [(World.cloneItem_spec h).2.2 r (Nat.ne_of_lt hr)]

/-- Ids and attributes stay, and so do the counts of the other items. -/
structure Recounted (w w' : World) (item : ItemRef) : Prop where
  count : ∀ x, x ≠ item → (w'.item x).count = (w.item x).count
  id : ∀ x, (w'.item x).id = (w.item x).id
  attributes : ∀ x, (w'.item x).attributes = (w.item x).attributes

namespace Recounted

variable {w'' : World}

theorem trans (h : Recounted w w' item) (h' : Recounted w' w'' item) : Recounted w w'' item :=
  ⟨fun x hx => (h'.count x hx).trans (h.count x hx), fun x => (h'.id x).trans (h.id x),
    fun x => (h'.attributes x).trans (h.attributes x)⟩

theorem of_skeleton (h : w'.skeleton = w.skeleton) : Recounted w w' item :=
  ⟨fun x _ => count_of_skeleton h x, id_of_skeleton h, attributes_of_skeleton h⟩

theorem of_item (h : w'.item = w.item) : Recounted w w' item :=
  ⟨fun x _ => by rw [h], fun x => by rw [h], fun x => by rw [h]⟩

theorem setParent (w : World) (item x : ItemRef) (p : Option Cylinder) :
    Recounted w (w.setParent x p) item :=
  ⟨fun _ _ => World.setParent_count, fun _ => World.setParent_id,
    fun _ => World.setParent_proj Item.attributes fun _ => rfl⟩

theorem reduce (w : World) (item : ItemRef) (count : Nat) :
    Recounted w (w.modifyItem item fun it =>
      it.setItemCount (Container.reducedCount it.getItemCount count)) item :=
  ⟨fun x hx => by rw [World.modifyItem_item_ne hx],
    fun x => World.modifyItem_proj Item.id fun it => it.setItemCount_id _,
    fun x => World.modifyItem_proj Item.attributes fun it => it.setItemCount_attributes _⟩

theorem modifyContainer (w : World) (item self : ItemRef) (g : Container → Container) :
    Recounted w (w.modifyContainer self g) item :=
  ⟨fun _ _ => World.modifyContainer_count, fun _ => World.modifyContainer_id,
    fun _ => World.modifyContainer_proj Item.attributes fun _ _ => rfl⟩

theorem removeThing_container (self : ItemRef) (count : Nat) :
    Recounted w (Container.removeThing env w self item count) item := by
  unfold Container.removeThing
  dsimp only
  split_ifs
  · exact of_item rfl
  · exact (reduce w item count).trans (of_skeleton (Container.skeleton_addWeight_notify _ _ _ _
      fun w p => untraded_onUpdateContainerItem w p self item item))
  · exact ((of_skeleton (Container.skeleton_addWeight_notify _ _ _ _
      fun w p => untraded_onRemoveContainerItem w p self item)).trans (setParent _ _ _ _)).trans
      (modifyContainer _ _ _ _)

theorem removeThing_player (p : PlayerId) (count : Nat) :
    Recounted w (Player.removeThing env w p item count) item := by
  unfold Player.removeThing
  dsimp only
  split_ifs
  · exact of_item rfl
  · exact (reduce w item count).trans (of_skeleton
      (skeleton_of_untraded (untraded_onUpdateInventoryItem _ p item item)))
  · exact ((of_skeleton (skeleton_of_untraded (untraded_onRemoveInventoryItem w p item))).trans
      (setParent _ _ _ _)).trans (of_item rfl)

theorem onRemoveTileItem (w : World) (pos : Position) (item : ItemRef) :
    Recounted w (Tile.onRemoveTileItem env w pos item) item := by
  have hflags : Recounted w (Tile.modify w pos fun t => Tile.resetTileFlags env w t item) item :=
    of_item rfl
  exact hflags.trans (of_skeleton
    (skeleton_notify _ _ fun w p => untraded_onRemoveTileItem w p item))

theorem removeThing_tile (pos : Position) (count : Nat) :
    Recounted w (Tile.removeThing env w pos item count) item := by
  have htaken : ∀ t, Recounted w
      (Tile.onRemoveTileItem env ((w.setParent item none).setTile pos t) pos item) item := by
    intro t
    have htile : Recounted w ((w.setParent item none).setTile pos t) item :=
      (setParent w item item none).trans (of_item rfl)
    exact htile.trans (onRemoveTileItem _ _ _)
  unfold Tile.removeThing
  dsimp only
  split_ifs
  · exact of_item rfl
  · exact htaken _
  · exact htaken _
  · exact of_item rfl
  · exact (reduce w item count).trans (of_skeleton (skeleton_notify _ _
      fun w p => untraded_onUpdateTileItem w p item item))
  · exact htaken _
  · exact of_item rfl

theorem removeThing (count : Nat) : Recounted w (Cylinder.removeThing env w c item count) item := by
  cases c with
  | container self => exact removeThing_container self count
  | player p => exact removeThing_player p count
  | tile pos => exact removeThing_tile pos count

end Recounted

theorem id_retype {count : Nat} (x : ItemRef) :
    ((w.modifyItem item fun it =>
      (it.setID env.items (w.item item).id).setSubType env.items count).item x).id =
        (w.item x).id := by
  rw [World.modifyItem_item]
  split_ifs with hx
  · rw [Item.setSubType_id, Item.setID_id, hx]
  · rfl

theorem id_updateThing {count : Nat} (x : ItemRef) :
    ((Cylinder.updateThing env w c item (w.item item).id count).item x).id = (w.item x).id := by
  cases c with
  | container self =>
    unfold Cylinder.updateThing Container.updateThing
    dsimp only
    split_ifs
    · rfl
    · rw [id_of_skeleton (Container.skeleton_addWeight_notify _ _ _ _
        fun w p => untraded_onUpdateContainerItem w p self item item), id_retype]
  | player p =>
    unfold Cylinder.updateThing Player.updateThing
    dsimp only
    split_ifs
    · rfl
    · rw [id_of_skeleton (skeleton_of_untraded (untraded_onUpdateInventoryItem _ p item item)),
        id_retype]
  | tile pos =>
    unfold Cylinder.updateThing Tile.updateThing
    dsimp only
    split_ifs
    · rfl
    · rw [Tile.onUpdateTileItem, id_of_skeleton (skeleton_notify _ _
        fun w p => untraded_onUpdateTileItem w p item item)]
      exact @id_retype env (Tile.modify w pos fun t => Tile.resetTileFlags env w t item) item count x

/-! ## Destinations -/

theorem getItemByIndex_findStack {self : ItemRef} {k : Nat} {x : ItemRef}
    (h : Container.findStack w self item = some (k, x)) :
    Container.getItemByIndex w self k = some x := by
  unfold Container.findStack at h
  dsimp only at h
  split at h
  · rename_i i y hi hy
    obtain ⟨rfl, rfl⟩ := Prod.mk.inj (Option.some.inj h)
    rw [List.find?_eq_bind_findIdx?_getElem?, hi] at hy
    simpa [Container.getItemByIndex] using hy
  · cases h

/-- What a container answers: itself or another container with `INDEX_WHEREEVER`, and for another
index the item that stands there. -/
structure Settled (w : World) (flags : Nat) (asked : ItemRef) (d : Destination) : Prop where
  flags : d.flags = flags
  cylinder : ∃ x, d.cylinder = .container x
  wherever : d.index = INDEX_WHEREEVER → d.destItem = none
  leads : d.cylinder ≠ .container asked → d.index = INDEX_WHEREEVER
  stands : d.cylinder = .container asked → d.index ≠ INDEX_WHEREEVER →
    ∀ x, Container.getItemByIndex w asked d.index = some x → d.destItem = some x

namespace Settled

variable {flags : Nat} {self : ItemRef}

theorem elsewhere (w : World) (flags : Nat) (self x : ItemRef) :
    Settled w flags self ⟨.container x, INDEX_WHEREEVER, none, flags⟩ :=
  ⟨rfl, ⟨x, rfl⟩, fun _ => rfl, fun _ => rfl, fun _ h => absurd rfl h⟩

theorem here {index : Int} {destItem : Option ItemRef}
    (hwherever : index = INDEX_WHEREEVER → destItem = none)
    (hstands : index ≠ INDEX_WHEREEVER → ∀ x, Container.getItemByIndex w self index = some x →
      destItem = some x) :
    Settled w flags self ⟨.container self, index, destItem, flags⟩ :=
  ⟨rfl, ⟨self, rfl⟩, hwherever, fun h => absurd rfl h, fun _ => hstands⟩

end Settled

theorem settled_queryDestination (env : Env) (w : World) (self : ItemRef) (index : Int)
    (item : ItemRef) (destItem : Option ItemRef) (flags : Nat)
    (hdest : index = INDEX_WHEREEVER → destItem = none) :
    Settled w flags self (Container.queryDestination env w self index item destItem flags) := by
  unfold Container.queryDestination
  by_cases hup : index = 254
  · rw [if_pos hup]
    exact .elsewhere w flags self _
  rw [if_neg hup]
  dsimp only
  generalize hi : (if index = 255 ∨ ((w.container self).capacity : Int) ≤ index
    then INDEX_WHEREEVER else index) = i
  generalize hd : (if index = 255 ∨ ((w.container self).capacity : Int) ≤ index
    then none else destItem) = dest
  generalize hd' : (if i ≠ INDEX_WHEREEVER then (Container.getItemByIndex w self i).or dest
    else dest) = dest'
  have hwherever : i = INDEX_WHEREEVER → dest' = none := by
    intro hw
    rw [← hd', if_neg (not_not.mpr hw), ← hd]
    split_ifs at hi ⊢ with hout
    · rfl
    · exact hdest (hi.trans hw)
  have hstands : i ≠ INDEX_WHEREEVER → ∀ x, Container.getItemByIndex w self i = some x →
      dest' = some x := by
    intro hw x hx
    rw [← hd', if_pos hw, hx]
    rfl
  split
  · rename_i sub hsub
    split_ifs at hsub
    obtain ⟨x, -, hx⟩ := Option.bind_eq_some_iff.mp hsub
    unfold World.asCylinder at hx
    split_ifs at hx
    rw [← Option.some.inj hx]
    exact .elsewhere w flags self x
  · split_ifs
    · split
      · rename_i k x hfound
        refine .here (fun h => ?_) fun _ y hy => ?_
        · exact absurd h (by unfold INDEX_WHEREEVER; omega)
        · rw [getItemByIndex_findStack hfound] at hy
          exact hy
      · exact .here hwherever hstands
    · exact .here hwherever hstands

theorem searchSlots_player {p : PlayerId} {flags : Nat} {slots : List Nat}
    {containers : List ItemRef} {d : Destination}
    (h : Player.searchSlots env w p item flags slots containers = .inl d) :
    d.cylinder = .player p ∧ d.flags = flags := by
  induction slots generalizing containers with
  | nil => cases h
  | cons slot slots ih =>
    unfold Player.searchSlots at h
    dsimp only at h
    split at h
    · split_ifs at h
      · exact ih h
      · rw [← Sum.inl.inj h]
        exact ⟨rfl, rfl⟩
      · exact ih h
      · exact ih h
    · split_ifs at h
      · rw [← Sum.inl.inj h]
        exact ⟨rfl, rfl⟩
      · exact ih h

theorem searchContainer_spec {p : PlayerId} {flags : Nat} {self : ItemRef} {d : Destination}
    (h : Player.searchContainer env w p item flags self = some d) :
    d.cylinder = .container self ∧ d.index ≠ INDEX_WHEREEVER ∧ d.flags = flags := by
  have hnat : ∀ k : Nat, (k : Int) ≠ INDEX_WHEREEVER := fun k => by
    unfold INDEX_WHEREEVER
    omega
  unfold Player.searchContainer at h
  dsimp only at h
  by_cases hstack : (!hasBitSet FLAG_IGNOREAUTOSTACK flags &&
      (w.item item).isStackable env.items) = true
  · rw [if_pos hstack] at h
    split at h
    · rw [← Option.some.inj h]
      exact ⟨rfl, hnat _, rfl⟩
    · split_ifs at h
      rw [← Option.some.inj h]
      exact ⟨rfl, hnat _, rfl⟩
  · rw [if_neg hstack] at h
    obtain ⟨k, -, hk⟩ := Option.map_eq_some_iff.mp h
    rw [← hk]
    exact ⟨rfl, hnat _, rfl⟩

/-- A player leaves the flags unchanged, and answers itself, or a container with an item to stack
with only at an index. -/
theorem queryDestination_player (env : Env) (w : World) (p : PlayerId) (index : Int)
    (item : ItemRef) (destItem : Option ItemRef) (flags : Nat) :
    let d := Player.queryDestination env w p index item destItem flags
    d.flags = flags ∧ (d.cylinder = .player p ∨ (∃ self, d.cylinder = .container self) ∧
      (d.index = INDEX_WHEREEVER → d.destItem = none)) := by
  dsimp only
  unfold Player.queryDestination
  split_ifs with hindex
  · cases hsearch : Player.searchSlots env w p item flags inventorySlots [] with
    | inl d =>
      obtain ⟨hplayer, hflags⟩ := searchSlots_player hsearch
      exact ⟨hflags, .inl hplayer⟩
    | inr containers =>
      dsimp only
      cases hfound : (Worklist.visited (Player.searchNext env w p item flags) w.next
          containers).findSome? (Player.searchContainer env w p item flags) with
      | none => exact ⟨rfl, .inl rfl⟩
      | some d =>
        obtain ⟨x, -, hx⟩ := List.exists_of_findSome?_eq_some hfound
        obtain ⟨hself, hne, hflags⟩ := searchContainer_spec hx
        exact ⟨hflags, .inr ⟨⟨x, hself⟩, fun h => absurd h hne⟩⟩
  · dsimp only
    cases hsub : (Player.getThing w p index).bind w.asCylinder with
    | none => exact ⟨rfl, .inl rfl⟩
    | some sub =>
      obtain ⟨x, -, hx⟩ := Option.bind_eq_some_iff.mp hsub
      unfold World.asCylinder at hx
      split_ifs at hx
      exact ⟨rfl, .inr ⟨⟨x, (Option.some.inj hx).symm⟩, fun _ => rfl⟩⟩

theorem queryDestination_tile {pos : Position} {index : Int} {flags : Nat} :
    ∃ pos', (Tile.queryDestination w pos index flags).cylinder = .tile pos' := by
  unfold Tile.queryDestination
  split
  · exact ⟨_, rfl⟩
  · exact ⟨_, rfl⟩

end Room

end Eloth
