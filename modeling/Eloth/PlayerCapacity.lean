import Eloth.World

/-!
# Weight and capacity of a player
-/

namespace Eloth.Player

/-- The item in a slot; slot numbers outside the inventory read as empty. -/
def getInventoryItem (w : World) (p : PlayerId) (slot : Int) : Option ItemRef :=
  if 1 ≤ slot ∧ slot ≤ 10 then (w.player p).inventory slot.toNat else none

def updateInventoryWeight (env : Env) (w : World) (p : PlayerId) : World :=
  let pl := w.player p
  if pl.hasInfiniteCapacity then w
  else
    w.setPlayer p
      { pl with
        inventoryWeight := (inventorySlots.map fun slot =>
          match pl.inventory slot with
          | none => 0
          | some r => (w.item r).getWeight env.items).sum }

/-- `Player::getFreeCapacity`: the difference is taken unsigned and clamped as signed. -/
def getFreeCapacity (w : World) (p : PlayerId) : UInt32 :=
  let pl := w.player p
  if pl.cannotPickupItem then 0
  else if pl.hasInfiniteCapacity then 0xFFFFFFFF
  else
    let free := pl.capacity - pl.inventoryWeight
    if free < 0x80000000 then free else 0

def hasCapacity (env : Env) (w : World) (p : PlayerId) (item : ItemRef) (count : Nat) : Bool :=
  let pl := w.player p
  let it := w.item item
  if pl.cannotPickupItem then false
  else if pl.hasInfiniteCapacity || w.getTopParent item = some (.player p) then true
  else
    let itemWeight :=
      if it.getContainer.isSome then it.getWeight env.items else it.getBaseWeight env.items
    let itemWeight :=
      if it.isStackable env.items then itemWeight * UInt32.ofNat count else itemWeight
    itemWeight ≤ getFreeCapacity w p

end Eloth.Player
