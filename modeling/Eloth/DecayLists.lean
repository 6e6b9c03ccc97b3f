import Mathlib.Tactic.Ring
import Eloth.Skeleton
import Eloth.Transform

/-!
# What the operations do to the decay lists

The cylinders leave the decay lists and the reference counters alone, and only put items into the
release queue. The other operations enter items at the front of the list of new entries, and take a
reference with each entry.
-/

namespace Eloth

/-- What the entries of the decay lists consist of, and what they are compared with. -/
structure DecayLists where
  toDecayItems : List ItemRef
  decayItems : Nat → List ItemRef
  lastBucket : Nat
  next : ItemRef
  referenceCounter : ItemRef → Int

def World.decays (w : World) : DecayLists :=
  ⟨w.toDecayItems, w.decayItems, w.lastBucket, w.next, w.referenceCounter⟩

/-- The decay lists are left alone, and nothing is taken out of the release queue. -/
structure Quiet (w w' : World) : Prop where
  decays : w'.decays = w.decays
  released : w.toReleaseItems <+: w'.toReleaseItems

section Quiet

variable {env : Env} {w w' w'' : World} {p : PlayerId} {item : ItemRef}

theorem Quiet.trans (h : Quiet w w') (h' : Quiet w' w'') : Quiet w w'' :=
  ⟨h'.decays.trans h.decays, h.released.trans h'.released⟩

theorem Quiet.same (hdecays : w'.decays = w.decays)
    (hreleased : w'.toReleaseItems = w.toReleaseItems) : Quiet w w' :=
  ⟨hdecays, hreleased ▸ List.prefix_rfl⟩

theorem Quiet.of_same (h : Quiet w' w'') (hdecays : w'.decays = w.decays)
    (hreleased : w'.toReleaseItems = w.toReleaseItems) : Quiet w w'' :=
  (Quiet.same hdecays hreleased).trans h

theorem Quiet.refl (w : World) : Quiet w w := .same rfl rfl

theorem quiet_releaseItem (w : World) (r : ItemRef) : Quiet w (w.releaseItem r) :=
  ⟨rfl, List.prefix_append _ _⟩

/-- A notice is only given if the items differ. -/
theorem Quiet.ite (cond : Prop) [Decidable cond] (h : Quiet w w') :
    Quiet w (if cond then w' else w) := by
  split_ifs
  · exact h
  · exact .refl w

/-! ## Notifications -/

theorem quiet_unlockTradeItem (w : World) (item : Option ItemRef) :
    Quiet w (Game.unlockTradeItem w item) := by
  cases item with
  | none => exact .refl w
  | some r =>
    simp only [Game.unlockTradeItem]
    split_ifs
    · exact (quiet_releaseItem w r).trans (.same rfl rfl)
    · exact .refl w

theorem quiet_closeHalf (w : World) (p : PlayerId) : Quiet w (Game.closeHalf w p) :=
  (quiet_unlockTradeItem w _).trans (.same rfl rfl)

theorem quiet_internalCloseTrade (w : World) (p : PlayerId) :
    Quiet w (Game.internalCloseTrade w p) := by
  unfold Game.internalCloseTrade
  split <;> split_ifs
  · exact .refl w
  · exact quiet_closeHalf w p
  · exact .refl w
  · exact (quiet_closeHalf w p).trans (quiet_closeHalf _ _)

theorem quiet_checkTradeState (w : World) (p : PlayerId) (item : ItemRef) :
    Quiet w (Player.checkTradeState w p item) := by
  unfold Player.checkTradeState
  split
  · exact .refl w
  · split_ifs
    · exact .refl w
    · exact quiet_internalCloseTrade w p
    · exact .refl w

/-- The trade is closed when the offered item is lost. -/
theorem Quiet.closeOffered (h : Quiet w w') (p : PlayerId) (lost : ItemRef → Prop)
    [DecidablePred lost] :
    Quiet w (match (w'.trade p).tradeItem with
      | none => w'
      | some offered => if lost offered then Game.internalCloseTrade w' p else w') := by
  split
  · exact h
  · exact h.trans ((quiet_internalCloseTrade w' p).ite _)

/-- What follows the removal of the old item is left out during a transfer. -/
theorem Quiet.unlessTransferring (h : Quiet w w') (h' : Quiet w' w'') (p : PlayerId) :
    Quiet w (if Game.isTransferring w' p then w' else w'') := by
  split_ifs
  · exact h
  · exact h.trans h'

theorem quiet_onRemoveContainerItem (w : World) (p : PlayerId) (container item : ItemRef) :
    Quiet w (Player.onRemoveContainerItem w p container item) :=
  (Quiet.refl w).unlessTransferring ((quiet_checkTradeState w p item).closeOffered p _) p

theorem quiet_onUpdateContainerItem (w : World) (p : PlayerId)
    (container oldItem newItem : ItemRef) :
    Quiet w (Player.onUpdateContainerItem w p container oldItem newItem) :=
  ((quiet_onRemoveContainerItem w p container oldItem).ite _).unlessTransferring
    (quiet_checkTradeState _ p oldItem) p

theorem quiet_onRemoveHeldItem (w : World) (p : PlayerId) (item : ItemRef) :
    Quiet w (Player.onRemoveHeldItem w p item) :=
  (Quiet.refl w).unlessTransferring ((quiet_checkTradeState w p item).closeOffered p _) p

theorem quiet_onUpdateInventoryItem (w : World) (p : PlayerId) (oldItem newItem : ItemRef) :
    Quiet w (Player.onUpdateInventoryItem w p oldItem newItem) :=
  ((quiet_onRemoveHeldItem w p oldItem).ite _).unlessTransferring
    (quiet_checkTradeState _ p oldItem) p

theorem quiet_onUpdateTileItem (w : World) (p : PlayerId) (oldItem newItem : ItemRef) :
    Quiet w (Player.onUpdateTileItem w p oldItem newItem) :=
  ((quiet_onRemoveHeldItem w p oldItem).ite _).unlessTransferring
    ((quiet_internalCloseTrade _ p).ite _) p

theorem quiet_notify (w : World) (players : List PlayerId) {event : World → PlayerId → World}
    (h : ∀ w p, Quiet w (event w p)) : Quiet w (w.notify players event) := by
  induction players generalizing w with
  | nil => exact .refl w
  | cons p players ih => exact (h w p).trans (ih (event w p))

theorem quiet_notifyHolders (env : Env) (w : World) (self : ItemRef)
    {event : World → PlayerId → World} (h : ∀ w p, Quiet w (event w p)) :
    Quiet w (Container.notifyHolders env w self event) := by
  unfold Container.notifyHolders
  split_ifs
  · exact quiet_notify w _ h
  · exact .refl w

theorem quiet_updateItemWeight (diff : UInt32) (fuel : Nat) (w : World) (self : ItemRef) :
    Quiet w (Container.updateItemWeight diff fuel w self) := by
  induction fuel generalizing w self with
  | zero => exact .refl w
  | succ fuel ih =>
    rw [Container.updateItemWeight]
    split
    · exact .same rfl rfl
    · exact Quiet.of_same (ih _ _) rfl rfl

theorem quiet_changeWeight (env : Env) (w : World) (self : ItemRef) (diff : UInt32)
    {event : World → PlayerId → World} (h : ∀ w p, Quiet w (event w p)) :
    Quiet w (Container.notifyHolders env (Container.addWeight w self diff) self event) :=
  (quiet_updateItemWeight diff w.climbFuel w self).trans (quiet_notifyHolders env _ self h)

/-! ## Cylinders -/

theorem quiet_onRemoveTileItem (env : Env) (w : World) (pos : Position) (item : ItemRef) :
    Quiet w (Tile.onRemoveTileItem env w pos item) :=
  Quiet.of_same (quiet_notify _ _ fun w p => quiet_onRemoveHeldItem w p item) rfl rfl

theorem quiet_updateTile (env : Env) (w : World) (pos : Position) (oldItem newItem : ItemRef) :
    Quiet w (Tile.onUpdateTileItem env w pos oldItem newItem) :=
  quiet_notify w _ fun w p => quiet_onUpdateTileItem w p oldItem newItem

theorem quiet_removeThing_tile (env : Env) (w : World) (pos : Position) (item : ItemRef)
    (count : Nat) : Quiet w (Tile.removeThing env w pos item count) := by
  unfold Tile.removeThing
  dsimp only
  split_ifs
  · exact .refl w
  · exact Quiet.of_same (quiet_onRemoveTileItem env _ pos item) rfl rfl
  · exact Quiet.of_same (quiet_onRemoveTileItem env _ pos item) rfl rfl
  · exact .refl w
  · exact Quiet.of_same (quiet_updateTile env _ pos item item) rfl rfl
  · exact Quiet.of_same (quiet_onRemoveTileItem env _ pos item) rfl rfl
  · exact .refl w

theorem quiet_discard (env : Env) (w : World) (pos : Position) (item : ItemRef) :
    Quiet w (Tile.discard env w pos item) :=
  (quiet_removeThing_tile env w pos item 1).trans (Quiet.of_same
    (quiet_releaseItem _ item) rfl rfl)

theorem quiet_addGround (env : Env) (w : World) (pos : Position) (item : ItemRef) :
    Quiet w (Tile.addGround env w pos item) := by
  unfold Tile.addGround
  dsimp only
  split
  · exact .same rfl rfl
  · next oldGround _ =>
    have hrelease : Quiet w ((w.setParent oldGround none).releaseItem oldGround) :=
      Quiet.of_same (quiet_releaseItem _ oldGround) rfl rfl
    exact hrelease.trans (Quiet.of_same (quiet_updateTile env _ pos _ item) rfl rfl)

theorem quiet_addTopItem (env : Env) (w : World) (pos : Position) (item : ItemRef) :
    Quiet w (Tile.addTopItem env w pos item) := by
  unfold Tile.addTopItem
  dsimp only
  generalize (if (env.items.get (w.item item).id).isSplash = true then
    (w.tile pos).topItems.find? fun r => (env.items.get (w.item r).id).isSplash else none) = old
  cases old with
  | none => exact .same rfl rfl
  | some r => exact (quiet_discard env w pos r).trans (.same rfl rfl)

theorem quiet_addThing_tile (env : Env) (w : World) (pos : Position) (item : ItemRef) :
    Quiet w (Tile.addThing env w pos item) := by
  have hparent : Quiet w (w.setParent item (some (.tile pos))) := .same rfl rfl
  unfold Tile.addThing
  dsimp only
  split_ifs
  · exact .refl w
  · exact hparent.trans (quiet_addGround env _ pos item)
  · exact hparent.trans (quiet_addTopItem env _ pos item)
  all_goals
    split
    · exact hparent.trans (.same rfl rfl)
    · next field _ =>
      split_ifs
      · exact hparent.trans ((quiet_discard env _ pos field).trans (.same rfl rfl))
      · exact hparent.trans (Quiet.of_same (quiet_releaseItem _ item) rfl rfl)

theorem quiet_addThing_container (env : Env) (w : World) (self : ItemRef) (index : Int)
    (item : ItemRef) : Quiet w (Container.addThing env w self index item) := by
  unfold Container.addThing
  split_ifs
  · exact .refl w
  · exact Quiet.of_same
      (quiet_changeWeight env _ self _ fun w p => quiet_checkTradeState w p item) rfl rfl

namespace Cylinder

theorem quiet_addThing (env : Env) (w : World) (c : Cylinder) (index : Int) (item : ItemRef) :
    Quiet w (addThing env w c index item) := by
  cases c with
  | container self => exact quiet_addThing_container env w self index item
  | player p =>
    rw [addThing, Player.addThing]
    split_ifs
    · exact .refl w
    · exact .same rfl rfl
  | tile pos => exact quiet_addThing_tile env w pos item

theorem quiet_addThingAnywhere (env : Env) (w : World) (c : Cylinder) (item : ItemRef) :
    Quiet w (addThingAnywhere env w c item) := by
  cases c with
  | container self => exact quiet_addThing_container env w self 0 item
  | player p => exact .refl w
  | tile pos => exact quiet_addThing_tile env w pos item

theorem quiet_updateThing (env : Env) (w : World) (c : Cylinder) (item : ItemRef)
    (itemId count : Nat) : Quiet w (updateThing env w c item itemId count) := by
  cases c with
  | container self =>
    rw [updateThing, Container.updateThing]
    split_ifs
    · exact .refl w
    · exact Quiet.of_same (quiet_changeWeight env _ self _
        fun w p => quiet_onUpdateContainerItem w p self item item) rfl rfl
  | player p =>
    rw [updateThing, Player.updateThing]
    split_ifs
    · exact .refl w
    · exact Quiet.of_same (quiet_onUpdateInventoryItem _ p item item) rfl rfl
  | tile pos =>
    rw [updateThing, Tile.updateThing]
    split_ifs
    · exact .refl w
    · exact Quiet.of_same (quiet_updateTile env _ pos item item) rfl rfl

theorem quiet_replaceThing (env : Env) (w : World) (c : Cylinder) (index : Int)
    (item : ItemRef) : Quiet w (replaceThing env w c index item) := by
  cases c with
  | container self =>
    rw [replaceThing, Container.replaceThing]
    split
    · exact .refl w
    · next replacedItem _ =>
      have hchanged := fun w diff => quiet_changeWeight env w self diff
        fun w p => quiet_onUpdateContainerItem w p self replacedItem item
      exact Quiet.of_same ((hchanged _ _).trans (.same rfl rfl)) rfl rfl
  | player p =>
    rw [replaceThing, Player.replaceThing]
    split
    · exact .refl w
    · next oldItem _ =>
      exact (quiet_onUpdateInventoryItem w p oldItem item).trans (.same rfl rfl)
  | tile pos =>
    rw [replaceThing, Tile.replaceThing]
    split
    · exact .refl w
    · next oldItem t _ =>
      exact Quiet.of_same
        ((quiet_updateTile env _ pos oldItem item).trans (.same rfl rfl)) rfl rfl

theorem quiet_removeThing (env : Env) (w : World) (c : Cylinder) (item : ItemRef) (count : Nat) :
    Quiet w (removeThing env w c item count) := by
  cases c with
  | container self =>
    rw [removeThing, Container.removeThing]
    dsimp only
    split_ifs
    · exact .refl w
    · exact Quiet.of_same (quiet_changeWeight env _ self _
        fun w p => quiet_onUpdateContainerItem w p self item item) rfl rfl
    · exact (quiet_changeWeight env w self _
        fun w p => quiet_onRemoveContainerItem w p self item).trans (.same rfl rfl)
  | player p =>
    rw [removeThing, Player.removeThing]
    dsimp only
    split_ifs
    · exact .refl w
    · exact Quiet.of_same (quiet_onUpdateInventoryItem _ p item item) rfl rfl
    · exact (quiet_onRemoveHeldItem w p item).trans (.same rfl rfl)
  | tile pos => exact quiet_removeThing_tile env w pos item count

theorem quiet_refreshWeight (env : Env) (w : World) (c : Cylinder) :
    Quiet w (refreshWeight env w c) := by
  have hplayer (p : PlayerId) : Quiet w (Player.updateInventoryWeight env w p) := by
    unfold Player.updateInventoryWeight
    dsimp only
    split_ifs
    · exact .refl w
    · exact .same rfl rfl
  cases c with
  | container r =>
    rw [refreshWeight]
    split
    · exact hplayer _
    · exact .refl w
  | player p => exact hplayer p
  | tile pos => exact .refl w

end Cylinder

end Quiet

end Eloth
