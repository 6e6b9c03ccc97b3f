import Eloth.AddRoom

/-!
# What the slots hold

Few operations reach the slots of a player: its own `addThing` and `removeThing`. No operation
changes the type of an item that there is already.
-/

namespace Eloth

/-- What the players have in their slots, the type of every item, and the next free reference. -/
def World.attire (w : World) : (PlayerId → Nat → Option ItemRef) × (ItemRef → Nat) × ItemRef :=
  (fun p => (w.player p).inventory, fun r => (w.item r).id, w.next)

variable {env : Env} {w w' : World} {r self item : ItemRef} {c : Cylinder} {p : PlayerId}

section Attire

theorem inventory_of_attire (h : w'.attire = w.attire) (p : PlayerId) :
    (w'.player p).inventory = (w.player p).inventory := congrFun (congrArg Prod.fst h) p

theorem id_of_attire (h : w'.attire = w.attire) (r : ItemRef) : (w'.item r).id = (w.item r).id :=
  congrFun (congrArg (fun a => a.2.1) h) r

theorem next_of_attire (h : w'.attire = w.attire) : w'.next = w.next :=
  congrArg (fun a => a.2.2) h

theorem attire_of_skeleton (h : w'.skeleton = w.skeleton) : w'.attire = w.attire :=
  Prod.ext (funext (inventory_of_skeleton h))
    (Prod.ext (funext (id_of_skeleton h)) (next_of_skeleton h))

theorem attire_modifyItem {f : Item → Item} (h : ∀ it, (f it).id = it.id) :
    (w.modifyItem r f).attire = w.attire :=
  Prod.ext rfl (Prod.ext (funext fun _ => World.modifyItem_proj Item.id h) rfl)

@[simp] theorem attire_setParent {parent : Option Cylinder} :
    (w.setParent r parent).attire = w.attire := attire_modifyItem fun _ => rfl

@[simp] theorem attire_reduce {count : Nat} :
    (w.modifyItem r fun it =>
      it.setItemCount (Container.reducedCount it.getItemCount count)).attire = w.attire :=
  attire_modifyItem fun it => it.setItemCount_id _

@[simp] theorem attire_setDecaying {n : Int} :
    (w.modifyItem r fun it => it.setDecaying n).attire = w.attire := attire_modifyItem fun _ => rfl

@[simp] theorem attire_modifyContainer {g : Container → Container} :
    (w.modifyContainer self g).attire = w.attire :=
  Prod.ext rfl (Prod.ext (funext fun _ => World.modifyContainer_id) rfl)

@[simp] theorem attire_setTile {pos : Position} {t : Tile} :
    (w.setTile pos t).attire = w.attire := rfl

@[simp] theorem attire_modify {pos : Position} {f : Tile → Tile} :
    (Tile.modify w pos f).attire = w.attire := rfl

@[simp] theorem attire_releaseItem : (w.releaseItem r).attire = w.attire := rfl

@[simp] theorem attire_pushToDecay : (w.pushToDecay r).attire = w.attire := rfl

@[simp] theorem attire_updateInventoryWeight :
    (Player.updateInventoryWeight env w p).attire = w.attire := by
  have hkept : ∀ player : Player, player.inventory = (w.player p).inventory →
      (w.setPlayer p player).attire = w.attire := by
    intro player hplayer
    refine Prod.ext (funext fun q => ?_) rfl
    by_cases hq : q = p
    · subst hq
      simpa [World.attire, World.setPlayer] using hplayer
    · simp [World.attire, World.setPlayer, hq]
  unfold Player.updateInventoryWeight
  dsimp only
  split_ifs
  · rfl
  · exact hkept _ rfl

/-! ## Tiles -/

theorem attire_frame (pos : Position) : Tile.Frame pos World.attire where
  untraded h := attire_of_skeleton (skeleton_of_untraded h)
  setTile _ _ := attire_setTile
  setParent _ _ _ := attire_setParent
  reduce _ _ _ := attire_reduce
  releaseItem _ _ := attire_releaseItem

@[simp] theorem attire_onUpdateTileItem {pos : Position} {newItem : ItemRef} :
    (Tile.onUpdateTileItem env w pos item newItem).attire = w.attire :=
  (attire_frame pos).onUpdateTileItem

@[simp] theorem attire_removeThing_tile {pos : Position} {count : Nat} :
    (Tile.removeThing env w pos item count).attire = w.attire := (attire_frame pos).removeThing

@[simp] theorem attire_addThing_tile {pos : Position} :
    (Tile.addThing env w pos item).attire = w.attire := (attire_frame pos).addThing

/-! ## Containers -/

theorem attire_changeWeight (env : Env) (self : ItemRef) (w : World) (diff : UInt32)
    {event : World → PlayerId → World} (h : ∀ w p, (event w p).untraded = w.untraded) :
    (Container.notifyHolders env (Container.addWeight w self diff) self event).attire = w.attire :=
  attire_of_skeleton (Container.skeleton_addWeight_notify env self w diff h)

@[simp] theorem attire_addThing_container {index : Int} :
    (Container.addThing env w self index item).attire = w.attire := by
  unfold Container.addThing
  split_ifs
  · rfl
  · refine (attire_changeWeight env self (Container.pushFront w self item)
      (((Container.pushFront w self item).item item).getWeight env.items)
      fun w p => untraded_onAddContainerItem w p item).trans ?_
    simp [Container.pushFront]

@[simp] theorem attire_removeThing_container {count : Nat} :
    (Container.removeThing env w self item count).attire = w.attire := by
  unfold Container.removeThing
  dsimp only
  split_ifs
  · rfl
  · rw [attire_changeWeight _ _ _ _ fun w p => untraded_onUpdateContainerItem w p self item item,
      attire_reduce]
  · rw [attire_modifyContainer, attire_setParent,
      attire_changeWeight _ _ _ _ fun w p => untraded_onRemoveContainerItem w p self item]

/-! ## Any cylinder -/

/-- An update that keeps the type of the item. -/
@[simp] theorem attire_updateThing {count : Nat} :
    (Cylinder.updateThing env w c item (w.item item).id count).attire = w.attire := by
  refine Prod.ext (funext fun q => ?_)
    (Prod.ext (funext id_updateThing) (next_of_boxes box_updateThing))
  cases c with
  | container self =>
    unfold Cylinder.updateThing Container.updateThing
    dsimp only
    split_ifs
    · rfl
    · exact inventory_of_skeleton (Container.skeleton_addWeight_notify _ _ _ _
        fun w p => untraded_onUpdateContainerItem w p self item item) q
  | player p =>
    unfold Cylinder.updateThing Player.updateThing
    dsimp only
    split_ifs
    · rfl
    · exact inventory_of_skeleton
        (skeleton_of_untraded (untraded_onUpdateInventoryItem _ p item item)) q
  | tile pos =>
    unfold Cylinder.updateThing Tile.updateThing
    dsimp only
    split_ifs
    · rfl
    · exact inventory_of_attire attire_onUpdateTileItem q

@[simp] theorem attire_refreshWeight : (Cylinder.refreshWeight env w c).attire = w.attire := by
  unfold Cylinder.refreshWeight
  split
  · split <;> simp
  · simp
  · rfl

namespace Game

theorem attire_bookkeeping (env : Env) : Bookkeeping env fun w w' => w'.attire = w.attire where
  refl _ := rfl
  refreshWeight _ _ := attire_refreshWeight
  recount _ _ _ _ := attire_updateThing
  releaseItem _ _ := attire_releaseItem

@[simp] theorem attire_notifyAdded {added : Option ItemRef} :
    (notifyAdded env c w added).attire = w.attire := (attire_bookkeeping env).notifyAdded w c added

@[simp] theorem attire_notifyRemoved {itemIndex : Int} :
    (notifyRemoved env c itemIndex w).attire = w.attire :=
  (attire_bookkeeping env).notifyRemoved w c itemIndex

@[simp] theorem attire_mergeStack {n : Nat} {merged : Option ItemRef} :
    (mergeStack env w c n merged).attire = w.attire :=
  (attire_bookkeeping env).mergeStack w c n merged

@[simp] theorem attire_releaseRemoved : (releaseRemoved env w item).attire = w.attire :=
  (attire_bookkeeping env).releaseRemoved w item

@[simp] theorem attire_registerDecay : (registerDecay w item).attire = w.attire := by
  unfold registerDecay
  split_ifs
  · rw [attire_pushToDecay, attire_setDecaying]
  · rfl

@[simp] theorem attire_registerAdded : (registerAdded w item).attire = w.attire := by
  unfold registerAdded
  split_ifs
  · rw [attire_pushToDecay, attire_setDecaying]
  · rfl

end Game

end Attire

end Eloth
