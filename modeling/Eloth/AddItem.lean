import Eloth.MoveItem

/-!
# Adding and removing items
-/

namespace Eloth.Game

structure Added where
  ret : ReturnValue
  remainderCount : Nat
  world : World

/-- An item with a duration enters `toDecayItems`; there is no look at its decay state here. -/
def registerAdded (w : World) (r : ItemRef) : World :=
  if 0 < (w.item r).getDuration then
    (w.modifyItem r fun it => it.setDecaying DECAYING_TRUE).pushToDecay r
  else w

def addWhole (env : Env) (w : World) (d : Destination) (item : ItemRef) : World :=
  notifyAdded env d.cylinder (Cylinder.addThing env w d.cylinder d.index item) (some item)

/-- Places the units that the stack at the destination does not take. `again` is the recursive
call. -/
def addRemainder (env : Env) (again : World → ItemRef → Option Added) (w : World)
    (d : Destination) (item toItem : ItemRef) (count : Nat) : Option Added :=
  if 0 < count then
    if (w.item item).getItemCount ≠ count then
      match w.cloneItem env item with
      | none => none
      | some (remainderItem, w) =>
        let w := w.modifyItem remainderItem fun it => it.setItemCount count
        (again w remainderItem).map fun added =>
          if added.ret ≠ .noError then
            ⟨.noError, count, added.world.releaseItem remainderItem⟩
          else ⟨.noError, 0, added.world⟩
    else some ⟨.noError, 0, addWhole env w d item⟩
  else some ⟨.noError, 0, notifyAdded env d.cylinder (w.releaseItem item) (some toItem)⟩

def place (env : Env) (again : World → ItemRef → Option Added) (w : World) (d : Destination)
    (item : ItemRef) (maxQueryCount : Nat) : Option Added :=
  let it := w.item item
  match d.destItem.filter fun t => it.isStackable env.items && it.equals (w.item t) with
  | some toItem =>
    let m := min it.getItemCount maxQueryCount
    let n := min ((100 + 2 ^ 32 - (w.item toItem).getItemCount) % 2 ^ 32) m
    let w := Cylinder.updateThing env w d.cylinder toItem (w.item toItem).id
      ((w.item toItem).getItemCount + n)
    addRemainder env again w d item toItem (m - n)
  | none => some ⟨.noError, 0, addWhole env w d item⟩

/-- `Game::internalAddItem`. A recursive call has fewer units to add, so the count of the item
is fuel enough. -/
def internalAddItemAux (env : Env) (toCylinder : Cylinder) (flags : Nat) (test : Bool) :
    Nat → World → ItemRef → Int → Option Added
  | 0, _, _, _ => none
  | fuel + 1, w, item, index =>
    let count := (w.item item).getItemCount
    let d := Cylinder.queryDestination env w toCylinder index item none flags
    let ret := Cylinder.queryAdd env w d.cylinder d.index item count d.flags none
    if ret ≠ .noError then some ⟨ret, 0, w⟩
    else
      let max := Cylinder.queryMaxCount env w toCylinder INDEX_WHEREEVER item count d.flags
      if max.1 ≠ .noError then some ⟨max.1, 0, w⟩
      else if test then some ⟨.noError, 0, w⟩
      else
        let again := fun w r => internalAddItemAux env toCylinder d.flags false fuel w r
          INDEX_WHEREEVER
        (place env again w d item max.2).map fun added =>
          { added with world := registerAdded added.world item }

def internalAddItem (env : Env) (w : World) (toCylinder : Cylinder) (item : ItemRef) (index : Int)
    (flags : Nat) (test : Bool) : Option Added :=
  internalAddItemAux env toCylinder flags test ((w.item item).getItemCount + 1) w item index

/-- `decayItems->remove(item)`, which reaches the first bucket only. -/
def removeFromFirstBucket (w : World) (item : ItemRef) : World :=
  { w with decayItems := Function.update w.decayItems 0 ((w.decayItems 0).filter (· ≠ item)) }

/-- `Game::internalRemoveItem`; without a count the whole stack goes. -/
def internalRemoveItem (env : Env) (w : World) (item : ItemRef) (count : Option Nat) (test : Bool)
    (flags : Nat) : ReturnValue × World :=
  match (w.item item).parent with
  | none => (.notPossible, w)
  | some cylinder =>
    let count := count.getD (w.item item).getItemCount
    let ret := Cylinder.queryRemove env w cylinder item count (flags ||| FLAG_IGNORENOTMOVEABLE)
      none
    if ret ≠ .noError then (ret, w)
    else if !(w.item item).canRemove then (.notPossible, w)
    else if test then (.noError, w)
    else
      let w := Cylinder.removeThing env w cylinder item count
      let w :=
        if w.isRemoved item then
          (if w.canDecay env item then removeFromFirstBucket w item else w).releaseItem item
        else w
      (.noError, Cylinder.postRemoveNotification env w cylinder)

end Eloth.Game
