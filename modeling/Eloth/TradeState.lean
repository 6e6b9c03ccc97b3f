import Eloth.World

/-!
# Closing a trade

Two players that trade point at each other, and the game keeps the offered items in a lock
table. A trade is closed by hand, and by the notifications that players near a container, a
slot or a tile receive when its contents change. Messages to the clients are left out.
-/

namespace Eloth

namespace Game

/-- Drops an entry of the lock table and the reference that it held. -/
def unlockTradeItem (w : World) (item : Option ItemRef) : World :=
  match item with
  | none => w
  | some r =>
    if (w.tradeItems r).isSome then
      { w.releaseItem r with tradeItems := Function.update w.tradeItems r none }
    else w

/-- The half of `Game::internalCloseTrade` that each of the two players goes through. -/
def closeHalf (w : World) (p : PlayerId) : World :=
  (unlockTradeItem w (w.trade p).tradeItem).setTrade p Trade.none

def isTransferring (w : World) (p : PlayerId) : Bool := (w.trade p).tradeState = .transfer

def internalCloseTrade (w : World) (p : PlayerId) : World :=
  match (w.trade p).tradePartner with
  | none => if isTransferring w p then w else closeHalf w p
  | some q => if isTransferring w q || isTransferring w p then w else closeHalf (closeHalf w p) q

end Game

namespace Player

/-- `Player::checkTradeState`: the item is the offered one or lies inside it. -/
def checkTradeState (w : World) (p : PlayerId) (item : ItemRef) : World :=
  match (w.trade p).tradeItem with
  | none => w
  | some offered =>
    if Game.isTransferring w p then w
    else if offered = item ∨ offered ∈ w.containersAbove item then Game.internalCloseTrade w p
    else w

def onAddContainerItem (w : World) (p : PlayerId) (item : ItemRef) : World :=
  checkTradeState w p item

def onRemoveContainerItem (w : World) (p : PlayerId) (container item : ItemRef) : World :=
  if Game.isTransferring w p then w
  else
    let w := checkTradeState w p item
    match (w.trade p).tradeItem with
    | none => w
    | some offered =>
      if (w.item offered).parent ≠ some (.container container) ∧
          w.isHoldingItem container offered then
        Game.internalCloseTrade w p
      else w

def onUpdateContainerItem (w : World) (p : PlayerId) (container oldItem newItem : ItemRef) :
    World :=
  let w := if oldItem ≠ newItem then onRemoveContainerItem w p container oldItem else w
  if Game.isTransferring w p then w else checkTradeState w p oldItem

def onRemoveHeldItem (w : World) (p : PlayerId) (item : ItemRef) : World :=
  if Game.isTransferring w p then w
  else
    let w := checkTradeState w p item
    match (w.trade p).tradeItem with
    | none => w
    | some offered =>
      if w.isContainer item ∧ w.isHoldingItem item offered then Game.internalCloseTrade w p
      else w

def onRemoveInventoryItem (w : World) (p : PlayerId) (item : ItemRef) : World :=
  onRemoveHeldItem w p item

def onUpdateInventoryItem (w : World) (p : PlayerId) (oldItem newItem : ItemRef) : World :=
  let w := if oldItem ≠ newItem then onRemoveInventoryItem w p oldItem else w
  if Game.isTransferring w p then w else checkTradeState w p oldItem

def onRemoveTileItem (w : World) (p : PlayerId) (item : ItemRef) : World :=
  onRemoveHeldItem w p item

def onUpdateTileItem (w : World) (p : PlayerId) (oldItem newItem : ItemRef) : World :=
  let w := if oldItem ≠ newItem then onRemoveTileItem w p oldItem else w
  if Game.isTransferring w p then w
  else if (w.trade p).tradeItem = some oldItem then Game.internalCloseTrade w p
  else w

end Player

def World.notify (w : World) (players : List PlayerId) (event : World → PlayerId → World) :
    World :=
  players.foldl event w

/-! ## Notifications leave the store alone -/

/-- The world without the trade table and the release queue. -/
def World.untraded (w : World) : World :=
  { w with trade := fun _ => Trade.none, tradeItems := fun _ => none, toReleaseItems := [] }

section Untraded

variable (w : World) (p : PlayerId)

@[simp] theorem untraded_setTrade (trade : Trade) : (w.setTrade p trade).untraded = w.untraded :=
  rfl

@[simp] theorem untraded_releaseItem (r : ItemRef) : (w.releaseItem r).untraded = w.untraded :=
  rfl

@[simp] theorem untraded_unlockTradeItem (item : Option ItemRef) :
    (Game.unlockTradeItem w item).untraded = w.untraded := by
  cases item with
  | none => rfl
  | some r =>
    simp only [Game.unlockTradeItem]
    split_ifs <;> rfl

@[simp] theorem untraded_closeHalf : (Game.closeHalf w p).untraded = w.untraded := by
  simp [Game.closeHalf]

@[simp] theorem untraded_internalCloseTrade :
    (Game.internalCloseTrade w p).untraded = w.untraded := by
  unfold Game.internalCloseTrade
  split <;> split_ifs <;> simp

@[simp] theorem untraded_checkTradeState (item : ItemRef) :
    (Player.checkTradeState w p item).untraded = w.untraded := by
  unfold Player.checkTradeState
  split
  · rfl
  · split_ifs <;> simp

@[simp] theorem untraded_onAddContainerItem (item : ItemRef) :
    (Player.onAddContainerItem w p item).untraded = w.untraded :=
  untraded_checkTradeState w p item

@[simp] theorem untraded_onRemoveContainerItem (container item : ItemRef) :
    (Player.onRemoveContainerItem w p container item).untraded = w.untraded := by
  unfold Player.onRemoveContainerItem
  split_ifs
  · rfl
  · dsimp only
    split
    · simp
    · split_ifs <;> simp

@[simp] theorem untraded_onUpdateContainerItem (container oldItem newItem : ItemRef) :
    (Player.onUpdateContainerItem w p container oldItem newItem).untraded = w.untraded := by
  unfold Player.onUpdateContainerItem
  dsimp only
  split_ifs <;> simp

@[simp] theorem untraded_onRemoveHeldItem (item : ItemRef) :
    (Player.onRemoveHeldItem w p item).untraded = w.untraded := by
  unfold Player.onRemoveHeldItem
  split_ifs
  · rfl
  · dsimp only
    split
    · simp
    · split_ifs <;> simp

@[simp] theorem untraded_onRemoveInventoryItem (item : ItemRef) :
    (Player.onRemoveInventoryItem w p item).untraded = w.untraded :=
  untraded_onRemoveHeldItem w p item

@[simp] theorem untraded_onUpdateInventoryItem (oldItem newItem : ItemRef) :
    (Player.onUpdateInventoryItem w p oldItem newItem).untraded = w.untraded := by
  unfold Player.onUpdateInventoryItem
  dsimp only
  split_ifs <;> simp

@[simp] theorem untraded_onRemoveTileItem (item : ItemRef) :
    (Player.onRemoveTileItem w p item).untraded = w.untraded :=
  untraded_onRemoveHeldItem w p item

@[simp] theorem untraded_onUpdateTileItem (oldItem newItem : ItemRef) :
    (Player.onUpdateTileItem w p oldItem newItem).untraded = w.untraded := by
  unfold Player.onUpdateTileItem
  dsimp only
  split_ifs <;> simp

theorem untraded_notify (players : List PlayerId) {event : World → PlayerId → World}
    (h : ∀ w p, (event w p).untraded = w.untraded) :
    (w.notify players event).untraded = w.untraded := by
  induction players generalizing w with
  | nil => rfl
  | cons p players ih => exact (ih (event w p)).trans (h w p)

variable {w} {w' : World}

theorem item_of_untraded (h : w'.untraded = w.untraded) : w'.item = w.item :=
  (congrArg World.item h :)

theorem player_of_untraded (h : w'.untraded = w.untraded) : w'.player = w.player :=
  (congrArg World.player h :)

theorem tile_of_untraded (h : w'.untraded = w.untraded) : w'.tile = w.tile :=
  (congrArg World.tile h :)

theorem next_of_untraded (h : w'.untraded = w.untraded) : w'.next = w.next :=
  (congrArg World.next h :)

end Untraded

end Eloth
