import Eloth.TradeState
import Eloth.PlayerCapacity

/-!
# Containers as cylinders

The functions of `container.cpp` and the checks that a depot chest adds. A container is named
by the reference of its item.
-/

namespace Eloth

/-- What `queryDestination` answers: the cylinder to use and the values it leaves in its
reference arguments. -/
structure Destination where
  cylinder : Cylinder
  index : Int
  destItem : Option ItemRef
  flags : Nat

namespace Container

def getItemByIndex (w : World) (self : ItemRef) (index : Int) : Option ItemRef :=
  if 0 ≤ index then (w.itemlist self)[index.toNat]? else none

def getThingIndex (w : World) (self item : ItemRef) : Int :=
  match (w.itemlist self).idxOf? item with
  | some i => i
  | none => -1

/-! ## Queries -/

/-- The limit that `DepotChest::queryAdd` checks before a container does. -/
def depotIsFull (env : Env) (w : World) (self item : ItemRef) (count flags : Nat) : Bool :=
  match (w.container self).kind with
  | .depotChest maxDepotItems =>
    if hasBitSet FLAG_NOLIMIT flags then false
    else
      let it := w.item item
      let addCount :=
        if w.getTopParent item ≠ some (.container self) then
          if w.isContainer item then w.getItemHoldingCount item + 1 else 1
        else if it.isStackable env.items ∧ it.getItemCount ≠ count then 1
        else 0
      maxDepotItems < w.getItemHoldingCount self + addCount
  | _ => false

/-- The query of a child container to its top parent, with `FLAG_CHILDISOWNER` set. -/
def queryAddOwner (env : Env) (w : World) (top : Cylinder) (item : ItemRef) (count flags : Nat) :
    ReturnValue :=
  match top with
  | .player p =>
    if hasBitSet FLAG_NOLIMIT flags || Player.hasCapacity env w p item count then .noError
    else .notEnoughCapacity
  | .container c => if depotIsFull env w c item count flags then .depotIsFull else .noError
  | .tile _ => .noError

def queryAdd (env : Env) (w : World) (self : ItemRef) (index : Int) (item : ItemRef)
    (count flags : Nat) : ReturnValue :=
  if depotIsFull env w self item count flags then .depotIsFull
  else if hasBitSet FLAG_CHILDISOWNER flags then .noError
  else if !(w.item item).isPickupable env.items then .cannotPickup
  else if item = self then .thisIsImpossible
  else if Cylinder.container item ∈ w.parents (.container self) then .thisIsImpossible
  else if !hasBitSet FLAG_NOLIMIT flags && index = INDEX_WHEREEVER &&
      (w.container self).capacity ≤ (w.container self).size then .containerNotEnoughRoom
  else
    match w.getTopParent self with
    | none => .noError
    | some top =>
      if top ≠ .container self then queryAddOwner env w top item count flags else .noError

/-- The free room that the stacks of the container offer to an item, added up in list order. -/
def freeStackRoom (env : Env) (w : World) (self item : ItemRef) (count flags : Nat) : Nat :=
  ((w.itemlist self).foldl (fun (acc : Nat × Nat) r =>
    if r ≠ item ∧ (w.item r).equals (w.item item) ∧ (w.item r).getItemCount < 100 then
      (acc.1 + 1,
        if queryAdd env w self acc.1 item count flags = .noError then
          acc.2 + (100 - (w.item r).getItemCount)
        else acc.2)
    else acc) (0, 0)).2

def queryMaxCount (env : Env) (w : World) (self : ItemRef) (index : Int) (item : ItemRef)
    (count flags : Nat) : ReturnValue × Nat :=
  if hasBitSet FLAG_NOLIMIT flags then (.noError, max 1 count)
  else
    let it := w.item item
    let freeSlots := (w.container self).capacity - (w.container self).size
    if it.isStackable env.items then
      let n :=
        if index = INDEX_WHEREEVER then freeStackRoom env w self item count flags
        else
          match getItemByIndex w self index with
          | none => 0
          | some r =>
            if it.equals (w.item r) ∧ (w.item r).getItemCount < 100 ∧
                queryAdd env w self index item count flags = .noError then
              100 - (w.item r).getItemCount
            else 0
      let maxQueryCount := (freeSlots * 100 + n) % 2 ^ 32
      (if maxQueryCount < count then .containerNotEnoughRoom else .noError, maxQueryCount)
    else (if freeSlots = 0 then .containerNotEnoughRoom else .noError, freeSlots)

/-- `queryRemove`. The top parent of a container is never a tile, so the
house check at its end is not reached. -/
def queryRemove (env : Env) (w : World) (self item : ItemRef) (count flags : Nat) : ReturnValue :=
  let it := w.item item
  if getThingIndex w self item = -1 then .notPossible
  else if count = 0 ∨ (it.isStackable env.items ∧ it.getItemCount < count) then .notPossible
  else if !it.isMoveable env.items && !hasBitSet FLAG_IGNORENOTMOVEABLE flags then .notMoveable
  else .noError

/-- The first stack, from the front of the list, that an item can be stacked with. -/
def findStack (w : World) (self item : ItemRef) : Option (Nat × ItemRef) :=
  let fits := fun r =>
    decide (r ≠ item) && (w.item r).equals (w.item item) && (w.item r).getItemCount < 100
  match (w.itemlist self).findIdx? fits, (w.itemlist self).find? fits with
  | some n, some r => some (n, r)
  | _, _ => none

def queryDestination (env : Env) (w : World) (self : ItemRef) (index : Int) (item : ItemRef)
    (destItem : Option ItemRef) (flags : Nat) : Destination :=
  if index = 254 then
    ⟨.container ((w.getParentContainer self).getD self), INDEX_WHEREEVER, none, flags⟩
  else
    let wherever := index = 255 ∨ ((w.container self).capacity : Int) ≤ index
    let index := if wherever then INDEX_WHEREEVER else index
    let destItem := if wherever then none else destItem
    let destItem :=
      if index ≠ INDEX_WHEREEVER then (getItemByIndex w self index).or destItem else destItem
    match (if index ≠ INDEX_WHEREEVER then destItem.bind w.asCylinder else none) with
    | some sub => ⟨sub, INDEX_WHEREEVER, none, flags⟩
    | none =>
      let it := w.item item
      let autoStack := !hasBitSet FLAG_IGNOREAUTOSTACK flags
      let stacksHere :=
        match destItem with
        | none => false
        | some d => (w.item d).equals it && (w.item d).getItemCount < 100
      if autoStack && it.isStackable env.items && it.parent ≠ some (.container self) &&
          !stacksHere then
        match findStack w self item with
        | some (n, r) => ⟨.container self, n, some r, flags⟩
        | none => ⟨.container self, index, destItem, flags⟩
      else ⟨.container self, index, destItem, flags⟩

/-! ## Changes -/

/-- `updateItemWeight`: the difference goes to the container and to every container above. -/
def updateItemWeight (diff : UInt32) : Nat → World → ItemRef → World
  | 0, w, _ => w
  | fuel + 1, w, self =>
    let w' := w.modifyContainer self fun c => { c with totalWeight := c.totalWeight + diff }
    match w'.getParentContainer self with
    | none => w'
    | some above => updateItemWeight diff fuel w' above

def addWeight (w : World) (self : ItemRef) (diff : UInt32) : World :=
  updateItemWeight diff w.climbFuel w self

/-- Tells the players around the container, if it is held by something. -/
def notifyHolders (env : Env) (w : World) (self : ItemRef) (event : World → PlayerId → World) :
    World :=
  if (w.item self).parent.isSome then w.notify (env.spectators w (w.getPosition self)) event
  else w

def pushFront (w : World) (self item : ItemRef) : World :=
  (w.setParent item (some (.container self))).modifyContainer self fun c =>
    { c with itemlist := item :: c.itemlist }

def addThing (env : Env) (w : World) (self : ItemRef) (index : Int) (item : ItemRef) : World :=
  if ((w.container self).capacity : Int) ≤ index then w
  else
    let w := pushFront w self item
    let w := addWeight w self ((w.item item).getWeight env.items)
    notifyHolders env w self fun w p => Player.onAddContainerItem w p item

def addItemBack (env : Env) (w : World) (self item : ItemRef) : World :=
  let w := (w.modifyContainer self fun c => { c with itemlist := c.itemlist ++ [item] }).setParent
    item (some (.container self))
  let w := addWeight w self ((w.item item).getWeight env.items)
  notifyHolders env w self fun w p => Player.onAddContainerItem w p item

def internalAddThing (env : Env) (w : World) (self item : ItemRef) : World :=
  let w := pushFront w self item
  addWeight w self ((w.item item).getWeight env.items)

def updateThing (env : Env) (w : World) (self item : ItemRef) (itemId count : Nat) : World :=
  if getThingIndex w self item = -1 then w
  else
    let oldWeight := (w.item item).getWeight env.items
    let w := w.modifyItem item fun it => (it.setID env.items itemId).setSubType env.items count
    let w := addWeight w self (-oldWeight + (w.item item).getWeight env.items)
    notifyHolders env w self fun w p => Player.onUpdateContainerItem w p self item item

def replaceThing (env : Env) (w : World) (self : ItemRef) (index : Int) (item : ItemRef) :
    World :=
  match getItemByIndex w self index with
  | none => w
  | some replacedItem =>
    let w := w.modifyContainer self fun c => { c with itemlist := c.itemlist.set index.toNat item }
    let w := w.setParent item (some (.container self))
    let w := addWeight w self
      (-(w.item replacedItem).getWeight env.items + (w.item item).getWeight env.items)
    let w := notifyHolders env w self fun w p =>
      Player.onUpdateContainerItem w p self replacedItem item
    w.setParent replacedItem none

/-- The count that `removeThing` leaves on a stack: the difference of two unsigned numbers,
read as signed, not below zero, and cut to a byte. -/
def reducedCount (itemCount count : Nat) : Nat :=
  (max 0 (toInt32 (itemCount + 2 ^ 32 - count % 2 ^ 32))).toNat % 2 ^ 8

def removeThing (env : Env) (w : World) (self item : ItemRef) (count : Nat) : World :=
  if getThingIndex w self item = -1 then w
  else
    let it := w.item item
    if it.isStackable env.items ∧ count ≠ it.getItemCount then
      let oldWeight := it.getWeight env.items
      let w := w.modifyItem item fun it => it.setItemCount (reducedCount it.getItemCount count)
      let w := addWeight w self (-oldWeight + (w.item item).getWeight env.items)
      notifyHolders env w self fun w p => Player.onUpdateContainerItem w p self item item
    else
      let w := addWeight w self (-(w.item item).getWeight env.items)
      let w := notifyHolders env w self fun w p => Player.onRemoveContainerItem w p self item
      (w.setParent item none).modifyContainer self fun c =>
        { c with itemlist := c.itemlist.erase item }

end Container

end Eloth
