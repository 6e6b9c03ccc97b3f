import Mathlib.Logic.Relation
import Eloth.MoveParts
import Eloth.Transform

/-!
# What moving items does to trades

All that the cylinders and the item functions of the game do to the trades of the players is to
close some of them. Items may be created on the way.
-/

namespace Eloth

structure Trades where
  trade : PlayerId → Trade
  tradeItems : ItemRef → Option PlayerId

def World.trades (w : World) : Trades := ⟨w.trade, w.tradeItems⟩

inductive CloseStep : World → World → Prop
  | other {w w' : World} (htrades : w'.trades = w.trades) (hnext : w.next ≤ w'.next) :
      CloseStep w w'
  | close (w : World) (p : PlayerId) : CloseStep w (Game.internalCloseTrade w p)

def Closes : World → World → Prop := Relation.ReflTransGen CloseStep

namespace Closes

variable {w w₁ w₂ w₃ : World}

theorem refl (w : World) : Closes w w := Relation.ReflTransGen.refl

theorem trans (h : Closes w₁ w₂) (h' : Closes w₂ w₃) : Closes w₁ w₃ :=
  Relation.ReflTransGen.trans h h'

theorem other (htrades : w₂.trades = w₁.trades) (hnext : w₁.next ≤ w₂.next) : Closes w₁ w₂ :=
  .single (.other htrades hnext)

theorem same (h : Closes w₁ w₂) (htrades : w₃.trades = w₂.trades) (hnext : w₃.next = w₂.next) :
    Closes w₁ w₃ :=
  h.trans (.other htrades hnext.ge)

theorem close (w : World) (p : PlayerId) : Closes w (Game.internalCloseTrade w p) :=
  .single (.close w p)

theorem notify (players : List PlayerId) {event : World → PlayerId → World}
    (h : ∀ w p, Closes w (event w p)) : Closes w (w.notify players event) := by
  induction players generalizing w with
  | nil => exact refl w
  | cons p players ih => exact (h w p).trans ih

theorem induction {I : World → Prop} (h : Closes w₁ w₂) (h₁ : I w₁)
    (hother : ∀ w w' : World, w'.trades = w.trades → w.next ≤ w'.next → I w → I w')
    (hclose : ∀ w p, I w → I (Game.internalCloseTrade w p)) : I w₂ := by
  induction h with
  | refl => exact h₁
  | tail _ hstep ih =>
    cases hstep with
    | other htrades hnext => exact hother _ _ htrades hnext ih
    | close p => exact hclose _ p ih

end Closes

/-! ## Notifications -/

namespace Player

variable (w : World) (p : PlayerId)

theorem checkTradeState_closes (item : ItemRef) : Closes w (checkTradeState w p item) := by
  unfold checkTradeState
  split
  · exact .refl w
  · split_ifs
    · exact .refl w
    · exact .close w p
    · exact .refl w

theorem onRemoveContainerItem_closes (container item : ItemRef) :
    Closes w (onRemoveContainerItem w p container item) := by
  have hcheck := checkTradeState_closes w p item
  unfold onRemoveContainerItem
  split_ifs
  · exact .refl w
  · dsimp only
    split
    · exact hcheck
    · split_ifs
      · exact hcheck.trans (.close _ p)
      · exact hcheck

theorem onUpdateContainerItem_closes (container oldItem newItem : ItemRef) :
    Closes w (onUpdateContainerItem w p container oldItem newItem) := by
  have hremove := onRemoveContainerItem_closes w p container oldItem
  unfold onUpdateContainerItem
  dsimp only
  split_ifs
  · exact hremove
  · exact hremove.trans (checkTradeState_closes _ p oldItem)
  · exact .refl w
  · exact checkTradeState_closes w p oldItem

theorem onRemoveHeldItem_closes (item : ItemRef) : Closes w (onRemoveHeldItem w p item) := by
  have hcheck := checkTradeState_closes w p item
  unfold onRemoveHeldItem
  split_ifs
  · exact .refl w
  · dsimp only
    split
    · exact hcheck
    · split_ifs
      · exact hcheck.trans (.close _ p)
      · exact hcheck

theorem onUpdateInventoryItem_closes (oldItem newItem : ItemRef) :
    Closes w (onUpdateInventoryItem w p oldItem newItem) := by
  have hremove := onRemoveHeldItem_closes w p oldItem
  unfold onUpdateInventoryItem
  dsimp only
  split_ifs
  · exact hremove
  · exact hremove.trans (checkTradeState_closes _ p oldItem)
  · exact .refl w
  · exact checkTradeState_closes w p oldItem

theorem onUpdateTileItem_closes (oldItem newItem : ItemRef) :
    Closes w (onUpdateTileItem w p oldItem newItem) := by
  have hremove : Closes w (onRemoveTileItem w p oldItem) := onRemoveHeldItem_closes w p oldItem
  unfold onUpdateTileItem
  dsimp only
  split_ifs
  · exact hremove
  · exact hremove.trans (.close _ p)
  · exact hremove
  · exact .refl w
  · exact .close w p
  · exact .refl w

end Player

/-! ## Containers -/

namespace Container

variable (env : Env) (w : World) (self : ItemRef)

theorem addWeight_closes (diff : UInt32) : Closes w (addWeight w self diff) := by
  unfold addWeight
  generalize w.climbFuel = fuel
  induction fuel generalizing w self with
  | zero => exact .refl w
  | succ fuel ih =>
    have hstep : Closes w (w.modifyContainer self fun c =>
        { c with totalWeight := c.totalWeight + diff }) := .other rfl le_rfl
    unfold updateItemWeight
    dsimp only
    split
    · exact hstep
    · exact hstep.trans (ih _ _)

theorem notifyHolders_closes {event : World → PlayerId → World}
    (h : ∀ w p, Closes w (event w p)) : Closes w (notifyHolders env w self event) := by
  unfold notifyHolders
  split_ifs
  · exact .notify _ h
  · exact .refl w

theorem addThing_closes (index : Int) (item : ItemRef) :
    Closes w (addThing env w self index item) := by
  unfold addThing
  split_ifs
  · exact .refl w
  · have hpush : Closes w (pushFront w self item) := .other rfl le_rfl
    exact (hpush.trans (addWeight_closes _ _ _)).trans
      (notifyHolders_closes env _ self fun w p => Player.checkTradeState_closes w p item)

theorem updateThing_closes (item : ItemRef) (itemId count : Nat) :
    Closes w (updateThing env w self item itemId count) := by
  unfold updateThing
  split_ifs
  · exact .refl w
  · have hmodify : Closes w (w.modifyItem item fun it =>
        (it.setID env.items itemId).setSubType env.items count) := .other rfl le_rfl
    exact (hmodify.trans (addWeight_closes _ _ _)).trans (notifyHolders_closes env _ self
      fun w p => Player.onUpdateContainerItem_closes w p self item item)

theorem replaceThing_closes (index : Int) (item : ItemRef) :
    Closes w (replaceThing env w self index item) := by
  unfold replaceThing
  split
  · exact .refl w
  · rename_i replacedItem _
    have hswap : Closes w ((w.modifyContainer self fun c =>
        { c with itemlist := c.itemlist.set index.toNat item }).setParent item
          (some (.container self))) := .other rfl le_rfl
    exact ((hswap.trans (addWeight_closes _ _ _)).trans (notifyHolders_closes env _ self
      fun w p => Player.onUpdateContainerItem_closes w p self replacedItem item)).same rfl rfl

theorem removeThing_closes (item : ItemRef) (count : Nat) :
    Closes w (removeThing env w self item count) := by
  unfold removeThing
  dsimp only
  split_ifs
  · exact .refl w
  · have hreduce : Closes w (w.modifyItem item fun it =>
        it.setItemCount (reducedCount it.getItemCount count)) := .other rfl le_rfl
    exact (hreduce.trans (addWeight_closes _ _ _)).trans (notifyHolders_closes env _ self
      fun w p => Player.onUpdateContainerItem_closes w p self item item)
  · exact ((addWeight_closes _ _ _).trans (notifyHolders_closes env _ self
      fun w p => Player.onRemoveContainerItem_closes w p self item)).same rfl rfl

end Container

/-! ## Players -/

namespace Player

variable (env : Env) (w : World) (p : PlayerId)

theorem addThing_closes (index : Int) (item : ItemRef) : Closes w (addThing w p index item) := by
  unfold addThing
  split_ifs
  · exact .refl w
  · exact .other rfl le_rfl

theorem updateThing_closes (item : ItemRef) (itemId count : Nat) :
    Closes w (updateThing env w p item itemId count) := by
  unfold updateThing
  split_ifs
  · exact .refl w
  · have hmodify : Closes w (w.modifyItem item fun it =>
        (it.setID env.items itemId).setSubType env.items count) := .other rfl le_rfl
    exact hmodify.trans (onUpdateInventoryItem_closes _ p item item)

theorem replaceThing_closes (index : Int) (item : ItemRef) :
    Closes w (replaceThing w p index item) := by
  unfold replaceThing
  split
  · exact .refl w
  · exact (onUpdateInventoryItem_closes w p _ item).same rfl rfl

theorem removeThing_closes (item : ItemRef) (count : Nat) :
    Closes w (removeThing env w p item count) := by
  unfold removeThing
  dsimp only
  split_ifs
  · exact .refl w
  · have hreduce : Closes w (w.modifyItem item fun it =>
        it.setItemCount (Container.reducedCount it.getItemCount count)) := .other rfl le_rfl
    exact hreduce.trans (onUpdateInventoryItem_closes _ p item item)
  · exact (onRemoveHeldItem_closes w p item).same rfl rfl

theorem updateInventoryWeight_closes : Closes w (updateInventoryWeight env w p) := by
  unfold updateInventoryWeight
  dsimp only
  split_ifs
  · exact .refl w
  · exact .other rfl le_rfl

end Player

/-! ## Tiles -/

namespace Tile

variable (env : Env) (w : World) (pos : Position)

theorem onRemoveTileItem_closes (item : ItemRef) : Closes w (onRemoveTileItem env w pos item) := by
  have hreset : Closes w (modify w pos fun t => resetTileFlags env w t item) := .other rfl le_rfl
  exact hreset.trans (.notify _ fun w p => Player.onRemoveHeldItem_closes w p item)

theorem onUpdateTileItem_closes (oldItem newItem : ItemRef) :
    Closes w (onUpdateTileItem env w pos oldItem newItem) :=
  .notify _ fun w p => Player.onUpdateTileItem_closes w p oldItem newItem

theorem removeThing_closes (item : ItemRef) (count : Nat) :
    Closes w (removeThing env w pos item count) := by
  have hdetach : ∀ t, Closes w ((w.setParent item none).setTile pos t) := fun _ =>
    .other rfl le_rfl
  unfold removeThing
  dsimp only
  split_ifs
  · exact .refl w
  · exact (hdetach _).trans (onRemoveTileItem_closes env _ pos item)
  · exact (hdetach _).trans (onRemoveTileItem_closes env _ pos item)
  · exact .refl w
  · have hreduce : Closes w (w.modifyItem item fun it =>
        it.setItemCount (Container.reducedCount it.getItemCount count)) := .other rfl le_rfl
    exact hreduce.trans (onUpdateTileItem_closes env _ pos item item)
  · exact (hdetach _).trans (onRemoveTileItem_closes env _ pos item)
  · exact .refl w

theorem discard_closes (item : ItemRef) : Closes w (discard env w pos item) :=
  (removeThing_closes env w pos item 1).same rfl rfl

theorem addGround_closes (item : ItemRef) : Closes w (addGround env w pos item) := by
  unfold addGround
  dsimp only
  split
  · exact .other rfl le_rfl
  · refine Closes.trans ?_ (onUpdateTileItem_closes env _ pos _ item)
    exact .other rfl le_rfl

theorem addTopItem_closes (item : ItemRef) : Closes w (addTopItem env w pos item) := by
  unfold addTopItem
  dsimp only
  split
  · exact .other rfl le_rfl
  · exact (discard_closes env w pos _).same rfl rfl

theorem addThing_closes (item : ItemRef) : Closes w (addThing env w pos item) := by
  have hparent : Closes w (w.setParent item (some (.tile pos))) := .other rfl le_rfl
  unfold addThing
  dsimp only
  split_ifs
  · exact .refl w
  · exact hparent.trans (addGround_closes env _ pos item)
  · exact hparent.trans (addTopItem_closes env _ pos item)
  all_goals split
  · exact hparent.same rfl rfl
  · split_ifs
    · exact (hparent.trans (discard_closes env _ pos _)).same rfl rfl
    · exact .other rfl le_rfl
  · exact hparent.same rfl rfl
  · split_ifs
    · exact (hparent.trans (discard_closes env _ pos _)).same rfl rfl
    · exact .other rfl le_rfl

theorem updateThing_closes (item : ItemRef) (itemId count : Nat) :
    Closes w (updateThing env w pos item itemId count) := by
  unfold updateThing
  split_ifs
  · exact .refl w
  · refine Closes.trans ?_ (onUpdateTileItem_closes env _ pos item item)
    exact .other rfl le_rfl

theorem replaceThing_closes (index : Nat) (item : ItemRef) :
    Closes w (replaceThing env w pos index item) := by
  unfold replaceThing
  split
  · exact .refl w
  · dsimp only
    refine Closes.same (Closes.trans ?_ (onUpdateTileItem_closes env _ pos _ item)) rfl rfl
    exact .other rfl le_rfl

end Tile

/-! ## Cylinders -/

namespace Cylinder

variable (env : Env) (w : World) (c : Cylinder)

theorem addThing_closes (index : Int) (item : ItemRef) :
    Closes w (addThing env w c index item) := by
  cases c with
  | container r => exact Container.addThing_closes env w r index item
  | player p => exact Player.addThing_closes w p index item
  | tile pos => exact Tile.addThing_closes env w pos item

theorem addThingAnywhere_closes (item : ItemRef) : Closes w (addThingAnywhere env w c item) := by
  cases c with
  | container r => exact Container.addThing_closes env w r 0 item
  | player p => exact .refl w
  | tile pos => exact Tile.addThing_closes env w pos item

theorem updateThing_closes (item : ItemRef) (itemId count : Nat) :
    Closes w (updateThing env w c item itemId count) := by
  cases c with
  | container r => exact Container.updateThing_closes env w r item itemId count
  | player p => exact Player.updateThing_closes env w p item itemId count
  | tile pos => exact Tile.updateThing_closes env w pos item itemId count

theorem replaceThing_closes (index : Int) (item : ItemRef) :
    Closes w (replaceThing env w c index item) := by
  cases c with
  | container r => exact Container.replaceThing_closes env w r index item
  | player p => exact Player.replaceThing_closes w p index item
  | tile pos => exact Tile.replaceThing_closes env w pos index.toNat item

theorem removeThing_closes (item : ItemRef) (count : Nat) :
    Closes w (removeThing env w c item count) := by
  cases c with
  | container r => exact Container.removeThing_closes env w r item count
  | player p => exact Player.removeThing_closes env w p item count
  | tile pos => exact Tile.removeThing_closes env w pos item count

theorem refreshWeight_closes : Closes w (refreshWeight env w c) := by
  cases c with
  | container r =>
    unfold refreshWeight
    dsimp only
    split
    · exact Player.updateInventoryWeight_closes env w _
    · exact .refl w
  | player p => exact Player.updateInventoryWeight_closes env w p
  | tile pos => exact .refl w

end Cylinder

/-! ## Moving, adding, removing and transforming -/

namespace Game

variable (env : Env) (w : World)

theorem registerDecay_closes (r : ItemRef) : Closes w (registerDecay w r) := by
  unfold registerDecay
  split_ifs
  · exact .other rfl le_rfl
  · exact .refl w

theorem registerAdded_closes (r : ItemRef) : Closes w (registerAdded w r) := by
  unfold registerAdded
  split_ifs
  · exact .other rfl le_rfl
  · exact .refl w

theorem cloneItem_closes {w' : World} {r copy : ItemRef}
    (h : w.cloneItem env r = some (copy, w')) : Closes w w' := by
  obtain ⟨item, -, heq⟩ := Option.map_eq_some_iff.mp h
  obtain ⟨-, rfl⟩ := Prod.mk.inj heq
  split_ifs
  · exact .other rfl (Nat.le_succ _)
  · exact .other rfl (Nat.le_succ _)

theorem closes_carriage : Carriage env Closes where
  refl := .refl
  trans := .trans
  refreshWeight w c := Cylinder.refreshWeight_closes env w c
  recount w c item := Cylinder.updateThing_closes env w c item _
  releaseItem _ _ := .other rfl le_rfl
  removeThing w c := Cylinder.removeThing_closes env w c
  addThing w c := Cylinder.addThing_closes env w c
  addThingAnywhere w c := Cylinder.addThingAnywhere_closes env w c

theorem moveItem_closes {w' : World} {item : ItemRef} {newCount : Nat} {moved : Option ItemRef}
    (h : moveItem env w item newCount = some (moved, w')) : Closes w w' := by
  unfold moveItem at h
  split_ifs at h
  · obtain ⟨⟨copy, w₁⟩, hclone, heq⟩ := Option.map_eq_some_iff.mp h
    cases heq
    exact (cloneItem_closes env w hclone).same rfl rfl
  · cases h
    exact .refl w
  · cases h
    exact .refl w

theorem carry_closes {w' : World} {mv : Move} {d : Destination} {toItem moved : Option ItemRef}
    {m : Nat} (h : carry env w mv d toItem m = some (moved, w')) : Closes w w' := by
  unfold carry at h
  dsimp only at h
  obtain ⟨⟨moved, w₂⟩, hmoved, heq⟩ := Option.map_eq_some_iff.mp h
  obtain ⟨rfl, rfl⟩ := Prod.mk.inj heq
  have hbefore := (closes_carriage env).merged w mv d.cylinder m
  have hafter := fun i => (closes_carriage env).delivered w₂ mv d i moved
  exact ((hbefore _ _).trans (moveItem_closes env _ hmoved)).trans (hafter _ _)

theorem transfer_closes {w' : World} {mv : Move} {d : Destination} {toItem : Option ItemRef}
    {ret : ReturnValue} (h : transfer env w mv d toItem = some (ret, w')) : Closes w w' := by
  unfold transfer at h
  dsimp only at h
  split_ifs at h
  · cases h
    exact .refl w
  · cases h
    exact .refl w
  · cases h
    exact .refl w
  · obtain ⟨⟨moved, w₁⟩, hcarry, heq⟩ := Option.map_eq_some_iff.mp h
    have hclose := carry_closes env w hcarry
    dsimp only at heq
    split_ifs at heq
    · cases heq
      exact hclose
    · split at heq <;> cases heq
      · exact hclose
      · exact hclose.trans (registerDecay_closes _ _)

theorem internalMoveItem_closes {w' : World} {mv : Move} {ret : ReturnValue}
    (h : internalMoveItem env w mv = some (ret, w')) : Closes w w' := by
  unfold internalMoveItem at h
  dsimp only at h
  split_ifs at h
  · cases h
    exact .refl w
  · cases h
    exact .refl w
  · split at h
    · cases h
    · rename_i ret' admitted hjoins
      have hadmitted := (closes_carriage env).tryAdmit hjoins
      split_ifs at h
      · cases h
        exact hadmitted
      · exact hadmitted.trans (transfer_closes env _ h)

theorem addWhole_closes (d : Destination) (item : ItemRef) :
    Closes w (addWhole env w d item) :=
  (Cylinder.addThing_closes env w d.cylinder d.index item).trans
    ((closes_carriage env).notifyAdded _ d.cylinder _)

theorem addRemainder_closes {again : World → ItemRef → Option Added} {d : Destination}
    {item toItem : ItemRef} {count : Nat} {added : Added}
    (hagain : ∀ w r added, again w r = some added → Closes w added.world)
    (h : addRemainder env again w d item toItem count = some added) :
    Closes w added.world := by
  unfold addRemainder at h
  split_ifs at h
  · split at h
    · cases h
    · rename_i remainderItem w₁ hclone
      obtain ⟨added', hadded, heq⟩ := Option.map_eq_some_iff.mp h
      have hcount : Closes w (w₁.modifyItem remainderItem fun it => it.setItemCount count) :=
        (cloneItem_closes env w hclone).same rfl rfl
      have hrest := hcount.trans (hagain _ _ _ hadded)
      split_ifs at heq <;> cases heq
      · exact hrest.same rfl rfl
      · exact hrest
  · cases h
    exact addWhole_closes env w d item
  · cases h
    have hrelease : Closes w (w.releaseItem item) := .other rfl le_rfl
    exact hrelease.trans ((closes_carriage env).notifyAdded _ d.cylinder (some toItem))

theorem place_closes {again : World → ItemRef → Option Added} {d : Destination}
    {item : ItemRef} {maxQueryCount : Nat} {added : Added}
    (hagain : ∀ w r added, again w r = some added → Closes w added.world)
    (h : place env again w d item maxQueryCount = some added) : Closes w added.world := by
  unfold place at h
  dsimp only at h
  split at h
  · exact (Cylinder.updateThing_closes env w d.cylinder _ _ _).trans
      (addRemainder_closes env _ hagain h)
  · cases h
    exact addWhole_closes env w d item

theorem internalAddItemAux_closes {c : Cylinder} {flags fuel : Nat} {test : Bool}
    {item : ItemRef} {index : Int} {added : Added}
    (h : internalAddItemAux env c flags test fuel w item index = some added) :
    Closes w added.world := by
  induction fuel generalizing w item index flags test added with
  | zero => cases h
  | succ fuel ih =>
    unfold internalAddItemAux at h
    dsimp only at h
    split_ifs at h
    · cases h
      exact .refl w
    · cases h
      exact .refl w
    · cases h
      exact .refl w
    · obtain ⟨added', hplace, rfl⟩ := Option.map_eq_some_iff.mp h
      exact (place_closes env w (fun w r added hr => ih w hr) hplace).trans
        (registerAdded_closes _ item)

theorem internalAddItem_closes {c : Cylinder} {flags : Nat} {test : Bool} {item : ItemRef}
    {index : Int} {added : Added}
    (h : internalAddItem env w c item index flags test = some added) :
    Closes w added.world :=
  internalAddItemAux_closes env w h

theorem internalRemoveItem_closes (item : ItemRef) (count : Option Nat) (test : Bool)
    (flags : Nat) : Closes w (internalRemoveItem env w item count test flags).2 := by
  unfold internalRemoveItem
  split
  · exact .refl w
  · rename_i cylinder _
    dsimp only
    split_ifs
    · exact .refl w
    · exact .refl w
    · exact .refl w
    all_goals
      refine Closes.trans ?_ (Cylinder.refreshWeight_closes env _ cylinder)
      exact (Cylinder.removeThing_closes env w cylinder item _).same rfl rfl

theorem replaceItem_closes (cylinder : Cylinder) (itemIndex : Int) (item newItem : ItemRef) :
    Closes w (replaceItem env w cylinder itemIndex item newItem) := by
  have hreplace := (Cylinder.replaceThing_closes env w cylinder itemIndex newItem).trans
    (Cylinder.refreshWeight_closes env _ cylinder)
  have hdetach : Closes w ((Cylinder.postAddNotification env (Cylinder.replaceThing env w cylinder
      itemIndex newItem) cylinder).setParent item none) := hreplace.same rfl rfl
  exact (hdetach.trans (Cylinder.refreshWeight_closes env _ cylinder)).same rfl rfl

theorem readdItem_closes (cylinder : Cylinder) (item : ItemRef) (newId : Nat) (newCount : Int) :
    Closes w (readdItem env w cylinder item newId newCount).2 := by
  have hremove := (Cylinder.removeThing_closes env w cylinder item (w.item item).getItemCount).trans
    (Cylinder.refreshWeight_closes env _ cylinder)
  have hretype : ∀ w₁, Closes w w₁ → Closes w (retype env w₁ item newId newCount) := fun w₁ h =>
    h.same rfl rfl
  have hadd := (hretype _ hremove).trans (Cylinder.addThingAnywhere_closes env _ cylinder item)
  unfold readdItem
  dsimp only
  split
  · exact hadd.same rfl rfl
  · exact hadd.trans (Cylinder.refreshWeight_closes env _ _)

theorem updateItemType_closes (cylinder : Cylinder) (item : ItemRef) (newId : Nat)
    (newCount : Int) : Closes w (updateItemType env w cylinder item newId newCount).2 := by
  have hpost := Cylinder.refreshWeight_closes env w cylinder
  have hsubtype : Closes w ((Cylinder.postRemoveNotification env w cylinder).modifyItem item
      fun it => it.setDefaultSubtype env.items) := hpost.same rfl rfl
  unfold updateItemType
  dsimp only
  refine Closes.trans (Closes.trans ?_ (Cylinder.updateThing_closes env _ cylinder item _ _))
    (Cylinder.refreshWeight_closes env _ cylinder)
  split_ifs
  · exact hsubtype
  · exact hpost

theorem replaceItemType_closes (cylinder : Cylinder) (itemIndex : Int) (item : ItemRef)
    (newId : Nat) (newCount : Int) :
    Closes w (replaceItemType env w cylinder itemIndex item newId newCount).2 := by
  unfold replaceItemType
  split
  · exact .refl w
  · rename_i new _
    have halloc : Closes w (w.alloc new) := .other rfl (Nat.le_succ _)
    exact (halloc.trans (replaceItem_closes env _ cylinder itemIndex item _)).trans
      (registerDecay_closes _ _)

theorem consumeItem_closes {again : World → Nat → Option ItemRef × World}
    (hagain : ∀ w id, Closes w (again w id).2) (cylinder : Cylinder) (itemIndex : Int)
    (item : ItemRef) (newId : Nat) :
    Closes w (consumeItem env again w cylinder itemIndex item newId).2 := by
  have hremove := internalRemoveItem_closes env w item none false 0
  unfold consumeItem
  dsimp only
  generalize (if (env.items.get (w.item item).id).id = (env.items.get newId).id then
    (w.item item).getDecayTo env.items else (newId : Int)) = newItemId
  split_ifs
  · exact hremove
  · exact hremove
  · split
    · exact .refl w
    · rename_i new _
      have halloc : Closes w (w.alloc new) := .other rfl (Nat.le_succ _)
      exact halloc.trans (replaceItem_closes env _ cylinder itemIndex item _)
  · exact hagain w _

theorem transformItemAux_closes {again : World → Nat → Option ItemRef × World}
    (hagain : ∀ w id, Closes w (again w id).2) (item : ItemRef) (newId : Nat) (newCount : Int) :
    Closes w (transformItemAux env again w item newId newCount).2 := by
  unfold transformItemAux
  dsimp only
  split
  · exact .refl w
  · split
    · exact .refl w
    · split_ifs
      · exact .refl w
      · exact .refl w
      · exact .refl w
      · exact readdItem_closes env w _ item newId newCount
      · exact consumeItem_closes env w hagain _ _ item newId
      · exact updateItemType_closes env w _ item newId newCount
      · exact replaceItemType_closes env w _ _ item newId newCount

theorem transformItem_closes (item : ItemRef) (newId : Nat) (newCount : Int) :
    Closes w (transformItem env w item newId newCount).2 :=
  transformItemAux_closes env w
    (fun w id => transformItemAux_closes env w (fun w _ => .refl w) item id (-1)) item newId
    newCount

end Game

end Eloth
