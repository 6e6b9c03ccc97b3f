import Eloth.Cylinder

/-!
# Moving items

`Game::internalMoveItem` in its four parts: the destination is resolved, an item in the way is
exchanged, the checks are made, and the units are carried over.
-/

namespace Eloth.Game

def resolve (env : Env) (w : World) (item : ItemRef) : Nat → Destination → Destination
  | 0, d => d
  | fuel + 1, d =>
    let sub := Cylinder.queryDestination env w d.cylinder d.index item d.destItem d.flags
    if sub.cylinder = d.cylinder then sub else resolve env w item fuel { sub with flags := 0 }

/-- An item of a decaying type enters `toDecayItems` once it is not registered as decaying. -/
def registerDecay (w : World) (r : ItemRef) : World :=
  if 0 < (w.item r).getDuration ∧ (w.item r).getDecaying ≠ DECAYING_TRUE then
    (w.modifyItem r fun it => it.setDecaying DECAYING_TRUE).pushToDecay r
  else w

/-- A call of `internalMoveItem`, with the actor player if both positions are given. -/
structure Move where
  fromCylinder : Cylinder
  toCylinder : Cylinder
  index : Int
  item : ItemRef
  count : Nat
  flags : Nat
  actor : Option PlayerId
  withEvents : Bool
  tradeItem : Option ItemRef

def eventAllows (env : Env) (w : World) (mv : Move) (item : ItemRef) (source dest : Cylinder) :
    Bool :=
  match mv.actor with
  | none => true
  | some a =>
    if mv.withEvents then env.eventPlayerOnMoveItem w a item mv.count source dest else true

def exchange (env : Env) (w : World) (mv : Move) (toItem : ItemRef) (dest : Cylinder) : World :=
  let oldToItemIndex := Cylinder.getThingIndex env w dest toItem
  let w := Cylinder.removeThing env w dest toItem (w.item toItem).getItemCount
  let w := Cylinder.addThingAnywhere env w mv.fromCylinder toItem
  let w := if oldToItemIndex ≠ -1 then Cylinder.postRemoveNotification env w dest else w
  if Cylinder.getThingIndex env w mv.fromCylinder toItem ≠ -1 then
    Cylinder.postAddNotification env w mv.fromCylinder
  else w

/-- What is known once the item may be added: the world, in which an exchange may have taken
place, and the item to stack with. -/
structure Admission where
  world : World
  toItem : Option ItemRef

/-- The check whether the destination takes the item, with the exchange that it may ask for. The
result is missing where an exchange is asked for and there is no item to exchange with. -/
def tryAdmit (env : Env) (w : World) (mv : Move) (d : Destination) :
    Option (ReturnValue × Admission) :=
  let ret := Cylinder.queryAdd env w d.cylinder d.index mv.item mv.count d.flags mv.actor
  if ret ≠ .needExchange then some (ret, ⟨w, d.destItem⟩)
  else d.destItem.map fun toItem =>
    let exchanged := (w.item toItem).getItemCount
    let source := mv.fromCylinder
    let ret := Cylinder.queryAdd env w source (Cylinder.getThingIndex env w source mv.item)
      toItem exchanged 0 none
    if ret ≠ .noError then (ret, ⟨w, some toItem⟩)
    else if !eventAllows env w mv toItem d.cylinder source then
      (.notPossible, ⟨w, some toItem⟩)
    else
      let max := Cylinder.queryMaxCount env w source INDEX_WHEREEVER toItem exchanged 0
      if max.1 ≠ .noError ∧ max.2 = 0 then (max.1, ⟨w, some toItem⟩)
      else if Cylinder.queryRemove env w d.cylinder toItem exchanged d.flags mv.actor = .noError
      then
        let w := exchange env w mv toItem d.cylinder
        (Cylinder.queryAdd env w d.cylinder d.index mv.item mv.count d.flags none, ⟨w, none⟩)
      else (ret, ⟨w, some toItem⟩)

def insideTradeItem (w : World) (tradeItem : Option ItemRef) (dest : Cylinder) : Bool :=
  match tradeItem with
  | none => false
  | some t => dest = .container t || (w.parents dest).contains (.container t)

/-- How many units move: as many as fit, and all that fit of an item that does not stack. -/
def moveCount (env : Env) (w : World) (item : ItemRef) (count maxQueryCount : Nat) : Nat :=
  if (w.item item).isStackable env.items then min count maxQueryCount else maxQueryCount

def mergeCount (w : World) (item : ItemRef) (toItem : Option ItemRef) (m : Nat) : Nat :=
  match toItem with
  | none => 0
  | some t =>
    if (w.item item).equals (w.item t) then
      min ((100 + 2 ^ 32 - (w.item t).getItemCount) % 2 ^ 32) m
    else 0

def updateItem (w : World) (item : ItemRef) (toItem : Option ItemRef) : Option ItemRef :=
  toItem.filter fun t => (w.item item).equals (w.item t)

/-- The item that goes on to the destination: the item itself if it does not stack, else a clone
with the units that are left. -/
def moveItem (env : Env) (w : World) (item : ItemRef) (newCount : Nat) :
    Option (Option ItemRef × World) :=
  if (w.item item).isStackable env.items then
    if 0 < newCount then
      (w.cloneItem env item).map fun (copy, w) =>
        (some copy, w.modifyItem copy fun it => it.setItemCount newCount)
    else some (none, w)
  else some (some item, w)

def notifyAdded (env : Env) (dest : Cylinder) (w : World) (r : Option ItemRef) : World :=
  match r with
  | none => w
  | some r =>
    if Cylinder.getThingIndex env w dest r ≠ -1 then Cylinder.postAddNotification env w dest
    else w

def mergeStack (env : Env) (w : World) (dest : Cylinder) (n : Nat) (merged : Option ItemRef) :
    World :=
  match merged with
  | none => w
  | some t => Cylinder.updateThing env w dest t (w.item t).id ((w.item t).getItemCount + n)

def releaseRemoved (env : Env) (w : World) (item : ItemRef) : World :=
  if (w.item item).isStackable env.items && w.isRemoved item then w.releaseItem item else w

def addMoved (env : Env) (w : World) (d : Destination) (moved : Option ItemRef) : World :=
  match moved with
  | none => w
  | some r => Cylinder.addThing env w d.cylinder d.index r

def notifyRemoved (env : Env) (source : Cylinder) (itemIndex : Int) (w : World) : World :=
  if itemIndex ≠ -1 then Cylinder.postRemoveNotification env w source else w

/-- Carries `m` units over. The result is missing where a clone cannot be created. -/
def carry (env : Env) (w : World) (mv : Move) (d : Destination) (toItem : Option ItemRef)
    (m : Nat) : Option (Option ItemRef × World) :=
  let stackable := (w.item mv.item).isStackable env.items
  let itemIndex := Cylinder.getThingIndex env w mv.fromCylinder mv.item
  let w := Cylinder.removeThing env w mv.fromCylinder mv.item m
  let merged := if stackable then updateItem w mv.item toItem else none
  let n := if stackable then mergeCount w mv.item toItem m else 0
  (moveItem env (mergeStack env w d.cylinder n merged) mv.item (m - n)).map fun (moved, w) =>
    let w := addMoved env (releaseRemoved env w mv.item) d moved
    let w := notifyRemoved env mv.fromCylinder itemIndex w
    (moved, notifyAdded env d.cylinder (notifyAdded env d.cylinder w moved) merged)

def transfer (env : Env) (w : World) (mv : Move) (d : Destination) (toItem : Option ItemRef) :
    Option (ReturnValue × World) :=
  let max := Cylinder.queryMaxCount env w d.cylinder d.index mv.item mv.count d.flags
  if max.1 ≠ .noError ∧ max.2 = 0 then some (max.1, w)
  else
    let m := moveCount env w mv.item mv.count max.2
    let ret := Cylinder.queryRemove env w mv.fromCylinder mv.item m d.flags mv.actor
    if ret ≠ .noError then some (ret, w)
    else if insideTradeItem w mv.tradeItem d.cylinder then some (.notEnoughRoom, w)
    else
      (carry env w mv d toItem m).map fun (moved, w) =>
        if (w.item mv.item).isStackable env.items ∧ max.2 < mv.count then (max.1, w)
        else
          match moved with
          | none => (ret, w)
          | some r => (ret, registerDecay w r)

def destination (env : Env) (w : World) (mv : Move) : Destination :=
  resolve env w mv.item MAP_MAX_LAYERS ⟨mv.toCylinder, mv.index, none, mv.flags⟩

/-- `Game::internalMoveItem`: the result and the world after the call, or nothing where the
server would dereference a null pointer. -/
def internalMoveItem (env : Env) (w : World) (mv : Move) : Option (ReturnValue × World) :=
  if !eventAllows env w mv mv.item mv.fromCylinder mv.toCylinder then some (.notPossible, w)
  else
    let d := destination env w mv
    if d.destItem = some mv.item then some (.noError, w)
    else
      match tryAdmit env w mv d with
      | none => none
      | some (ret, admitted) =>
        if ret ≠ .noError then some (ret, admitted.world)
        else transfer env admitted.world mv d admitted.toItem

end Eloth.Game
