import Eloth.CylinderEffects
import Eloth.TileFrame
import Eloth.Transform

/-!
# The marks of decaying items

The cylinders leave the types and the attributes of all items alone. Only the update of an item
changes them, and no subtype has a say in whether the item decays.
-/

namespace Eloth

/-- The type and the attributes of every item. -/
def World.marks (w : World) : ItemRef → Nat × Option Attributes :=
  fun r => ((w.item r).id, (w.item r).attributes)

section Marks

variable {env : Env} {w w' : World} {r self item : ItemRef} {c : Cylinder} {p : PlayerId}

theorem id_of_marks (h : w'.marks r = w.marks r) : (w'.item r).id = (w.item r).id :=
  congrArg Prod.fst h

theorem attributes_of_marks (h : w'.marks r = w.marks r) :
    (w'.item r).attributes = (w.item r).attributes := congrArg Prod.snd h

theorem marks_of_skeleton (h : w'.skeleton = w.skeleton) : w'.marks = w.marks :=
  funext fun r => Prod.ext (id_of_skeleton h r) (attributes_of_skeleton h r)

theorem marks_modifyItem {f : Item → Item} (hid : ∀ it, (f it).id = it.id)
    (hattributes : ∀ it, (f it).attributes = it.attributes) :
    (w.modifyItem r f).marks = w.marks :=
  funext fun _ => World.modifyItem_proj (fun it => (it.id, it.attributes)) fun it =>
    Prod.ext (hid it) (hattributes it)

theorem marks_modifyItem_ne {x : ItemRef} {f : Item → Item} (hne : x ≠ r) :
    (w.modifyItem r f).marks x = w.marks x := by
  rw [World.marks, World.marks, World.modifyItem_item_ne hne]

@[simp] theorem marks_setParent {parent : Option Cylinder} :
    (w.setParent r parent).marks = w.marks := marks_modifyItem (fun _ => rfl) fun _ => rfl

@[simp] theorem marks_setItemCount {n : Nat} :
    (w.modifyItem r fun it => it.setItemCount n).marks = w.marks :=
  marks_modifyItem (fun it => it.setItemCount_id n) fun it => it.setItemCount_attributes n

@[simp] theorem marks_reduce {count : Nat} :
    (w.modifyItem r fun it =>
      it.setItemCount (Container.reducedCount it.getItemCount count)).marks = w.marks :=
  marks_modifyItem (fun it => it.setItemCount_id _) fun it => it.setItemCount_attributes _

@[simp] theorem marks_modifyContainer {g : Container → Container} :
    (w.modifyContainer self g).marks = w.marks :=
  funext fun _ => World.modifyContainer_proj (fun it => (it.id, it.attributes)) fun _ _ => rfl

@[simp] theorem marks_setSlot {slot : Nat} {x : Option ItemRef} :
    (w.setSlot p slot x).marks = w.marks := rfl

@[simp] theorem marks_setTile {pos : Position} {t : Tile} : (w.setTile pos t).marks = w.marks := rfl

@[simp] theorem marks_modify {pos : Position} {f : Tile → Tile} :
    (Tile.modify w pos f).marks = w.marks := rfl

@[simp] theorem marks_releaseItem : (w.releaseItem r).marks = w.marks := rfl

@[simp] theorem marks_updateInventoryWeight :
    (Player.updateInventoryWeight env w p).marks = w.marks := by
  unfold Player.updateInventoryWeight
  dsimp only
  split_ifs <;> rfl

@[simp] theorem marks_refreshWeight : (Cylinder.refreshWeight env w c).marks = w.marks := by
  unfold Cylinder.refreshWeight
  split
  · split <;> simp
  · simp
  · rfl

/-! ## Tiles -/

theorem marks_frame (pos : Position) : Tile.Frame pos World.marks where
  untraded h := marks_of_skeleton (skeleton_of_untraded h)
  setTile _ _ := marks_setTile
  setParent _ _ _ := marks_setParent
  reduce _ _ _ := marks_reduce
  releaseItem _ _ := marks_releaseItem

@[simp] theorem marks_onUpdateTileItem {pos : Position} {newItem : ItemRef} :
    (Tile.onUpdateTileItem env w pos item newItem).marks = w.marks :=
  (marks_frame pos).onUpdateTileItem

theorem marks_replaceThing_tile {pos : Position} {index : Nat} :
    (Tile.replaceThing env w pos index item).marks = w.marks := by
  unfold Tile.replaceThing
  split
  · rfl
  · dsimp only
    rw [marks_setParent, marks_onUpdateTileItem, marks_modify, marks_setParent, marks_setTile]

/-! ## Containers -/

theorem marks_changeWeight (env : Env) (self : ItemRef) (w : World) (diff : UInt32)
    {event : World → PlayerId → World} (h : ∀ w p, (event w p).untraded = w.untraded) :
    (Container.notifyHolders env (Container.addWeight w self diff) self event).marks = w.marks :=
  marks_of_skeleton (Container.skeleton_addWeight_notify env self w diff h)

theorem marks_addThing_container {index : Int} :
    (Container.addThing env w self index item).marks = w.marks := by
  unfold Container.addThing
  split_ifs
  · rfl
  · refine (marks_changeWeight env self (Container.pushFront w self item) _
      fun w p => untraded_onAddContainerItem w p item).trans ?_
    rw [Container.pushFront, marks_modifyContainer, marks_setParent]

theorem marks_removeThing_container {count : Nat} :
    (Container.removeThing env w self item count).marks = w.marks := by
  unfold Container.removeThing
  dsimp only
  split_ifs
  · rfl
  · rw [marks_changeWeight _ _ _ _ fun w p => untraded_onUpdateContainerItem w p self item item,
      marks_reduce]
  · rw [marks_modifyContainer, marks_setParent,
      marks_changeWeight _ _ _ _ fun w p => untraded_onRemoveContainerItem w p self item]

theorem marks_replaceThing_container {index : Int} :
    (Container.replaceThing env w self index item).marks = w.marks := by
  unfold Container.replaceThing
  split
  · rfl
  · next replacedItem _ =>
    dsimp only
    rw [marks_setParent, marks_changeWeight _ _ _ _
      fun w p => untraded_onUpdateContainerItem w p self replacedItem item, marks_setParent,
      marks_modifyContainer]

/-! ## Players -/

theorem marks_removeThing_player {count : Nat} :
    (Player.removeThing env w p item count).marks = w.marks := by
  unfold Player.removeThing
  dsimp only
  split_ifs
  · rfl
  · rw [marks_of_skeleton (skeleton_of_untraded (untraded_onUpdateInventoryItem _ p item item)),
      marks_reduce]
  · rw [marks_setSlot, marks_setParent,
      marks_of_skeleton (skeleton_of_untraded (untraded_onRemoveInventoryItem w p item))]

theorem marks_replaceThing_player {index : Int} :
    (Player.replaceThing w p index item).marks = w.marks := by
  unfold Player.replaceThing
  split
  · rfl
  · next oldItem _ =>
    rw [marks_setSlot, marks_setParent,
      marks_of_skeleton (skeleton_of_untraded (untraded_onUpdateInventoryItem w p oldItem item))]

/-! ## Any cylinder -/

@[simp] theorem marks_addThing {index : Int} :
    (Cylinder.addThing env w c index item).marks = w.marks := by
  cases c with
  | container self => exact marks_addThing_container
  | player p =>
    rw [Cylinder.addThing, Player.addThing]
    split_ifs
    · rfl
    · rw [marks_setSlot, marks_setParent]
  | tile pos => exact (marks_frame pos).addThing

@[simp] theorem marks_addThingAnywhere :
    (Cylinder.addThingAnywhere env w c item).marks = w.marks := by
  cases c with
  | container self => exact marks_addThing_container
  | player p => rfl
  | tile pos => exact (marks_frame pos).addThing

@[simp] theorem marks_removeThing {count : Nat} :
    (Cylinder.removeThing env w c item count).marks = w.marks := by
  cases c with
  | container self => exact marks_removeThing_container
  | player p => exact marks_removeThing_player
  | tile pos => exact (marks_frame pos).removeThing

@[simp] theorem marks_replaceThing {index : Int} :
    (Cylinder.replaceThing env w c index item).marks = w.marks := by
  cases c with
  | container self => exact marks_replaceThing_container
  | player p => exact marks_replaceThing_player
  | tile pos => exact marks_replaceThing_tile

/-- The item gets the type and the subtype, unless the cylinder does not hold it. -/
theorem marks_updateThing (env : Env) (w : World) (c : Cylinder) (item : ItemRef)
    (itemId count : Nat) :
    (Cylinder.updateThing env w c item itemId count).marks = w.marks ∨
      (Cylinder.updateThing env w c item itemId count).marks = (w.modifyItem item fun it =>
        (it.setID env.items itemId).setSubType env.items count).marks := by
  cases c with
  | container self =>
    rw [Cylinder.updateThing, Container.updateThing]
    split_ifs
    · exact .inl rfl
    · exact .inr (marks_changeWeight _ _ _ _
        fun w p => untraded_onUpdateContainerItem w p self item item)
  | player p =>
    rw [Cylinder.updateThing, Player.updateThing]
    split_ifs
    · exact .inl rfl
    · exact .inr (marks_of_skeleton
        (skeleton_of_untraded (untraded_onUpdateInventoryItem _ p item item)))
  | tile pos =>
    rw [Cylinder.updateThing, Tile.updateThing]
    split_ifs
    · exact .inl rfl
    · refine .inr ?_
      dsimp only
      rw [marks_onUpdateTileItem, marks_modify]
      rfl

theorem marks_updateThing_ne {x : ItemRef} {itemId count : Nat} (hne : x ≠ item) :
    (Cylinder.updateThing env w c item itemId count).marks x = w.marks x := by
  obtain h | h := marks_updateThing env w c item itemId count
  · rw [h]
  · rw [h, marks_modifyItem_ne hne]

end Marks

namespace Game

variable {env : Env} {w w' : World} {item : ItemRef} {mv : Move} {d : Destination}

@[simp] theorem marks_notifyAdded {c : Cylinder} {added : Option ItemRef} :
    (notifyAdded env c w added).marks = w.marks := by
  unfold notifyAdded
  split
  · rfl
  · split_ifs
    · exact marks_refreshWeight
    · rfl

theorem marks_exchange (toItem : ItemRef) (dest : Cylinder) :
    (exchange env w mv toItem dest).marks = w.marks := by
  unfold exchange
  dsimp only
  split_ifs <;> simp [Cylinder.postRemoveNotification, Cylinder.postAddNotification]

@[simp] theorem marks_removeFromFirstBucket :
    (removeFromFirstBucket w item).marks = w.marks := rfl

theorem marks_internalRemoveItem (env : Env) (w : World) (item : ItemRef) (count : Option Nat)
    (test : Bool) (flags : Nat) : (internalRemoveItem env w item count test flags).2.marks =
      w.marks := by
  unfold internalRemoveItem
  split
  · rfl
  · dsimp only
    split_ifs <;> simp [Cylinder.postRemoveNotification]

theorem marks_replaceItem {cylinder : Cylinder} {itemIndex : Int} {newItem : ItemRef} :
    (replaceItem env w cylinder itemIndex item newItem).marks = w.marks := by
  simp [replaceItem, Cylinder.postRemoveNotification, Cylinder.postAddNotification]

/-- What follows the copying of the units. -/
theorem marks_delivered (itemIndex : Int) (moved merged : Option ItemRef) :
    (notifyAdded env d.cylinder (notifyAdded env d.cylinder (notifyRemoved env mv.fromCylinder
      itemIndex (addMoved env (releaseRemoved env w mv.item) d moved)) moved) merged).marks =
        w.marks := by
  have hreleased : (releaseRemoved env w mv.item).marks = w.marks := by
    unfold releaseRemoved
    split_ifs <;> rfl
  have hadded : (addMoved env (releaseRemoved env w mv.item) d moved).marks = w.marks := by
    cases moved with
    | none => exact hreleased
    | some r => exact marks_addThing.trans hreleased
  rw [marks_notifyAdded, marks_notifyAdded, notifyRemoved]
  split_ifs
  · exact marks_refreshWeight.trans hadded
  · exact hadded

end Game

end Eloth
