import Eloth.AddItem

/-!
# Transforming and decaying items

`Game::transformItem` and the decay lists. `startDecay` and `internalDecayItem` call each other;
the chain of transformations that they follow is cut after the given number of steps.
-/

namespace Eloth.Game

/-! ## Transforming -/

def replaceItem (env : Env) (w : World) (cylinder : Cylinder) (itemIndex : Int)
    (item newItem : ItemRef) : World :=
  let w := Cylinder.replaceThing env w cylinder itemIndex newItem
  let w := Cylinder.postAddNotification env w cylinder
  let w := w.setParent item none
  (Cylinder.postRemoveNotification env w cylinder).releaseItem item

def retype (env : Env) (w : World) (item : ItemRef) (newId : Nat) (newCount : Int) : World :=
  w.modifyItem item fun it =>
    let it := it.setID env.items newId
    if newCount ≠ -1 then it.setSubType env.items newCount.toNat else it

/-- A down item becomes a top item or the other way round: it is removed and added again. -/
def readdItem (env : Env) (w : World) (cylinder : Cylinder) (item : ItemRef) (newId : Nat)
    (newCount : Int) : Option ItemRef × World :=
  let w := Cylinder.removeThing env w cylinder item (w.item item).getItemCount
  let w := retype env (Cylinder.postRemoveNotification env w cylinder) item newId newCount
  let w := Cylinder.addThingAnywhere env w cylinder item
  match (w.item item).parent with
  | none => (none, w.releaseItem item)
  | some newParent => (some item, Cylinder.postAddNotification env w newParent)

/-- The types agree, so id and subtype change in place. -/
def updateItemType (env : Env) (w : World) (cylinder : Cylinder) (item : ItemRef) (newId : Nat)
    (newCount : Int) : Option ItemRef × World :=
  let curType := env.items.get (w.item item).id
  let newType := env.items.get newId
  let w := Cylinder.postRemoveNotification env w cylinder
  let itemId := (w.item item).id
  let count := (w.item item).getSubType env.items
  let w :=
    if curType.id ≠ newType.id ∧ newType.group ≠ curType.group then
      w.modifyItem item fun it => it.setDefaultSubtype env.items
    else w
  let itemId := if curType.id ≠ newType.id then newId else itemId
  let count := if newCount ≠ -1 ∧ newType.hasSubType then newCount.toNat else count
  let w := Cylinder.updateThing env w cylinder item itemId count
  (some item, Cylinder.postAddNotification env w cylinder)

def replaceItemType (env : Env) (w : World) (cylinder : Cylinder) (itemIndex : Int)
    (item : ItemRef) (newId : Nat) (newCount : Int) : Option ItemRef × World :=
  match Item.CreateItem env.items newId (if newCount = -1 then 0 else newCount.toNat) with
  | none => (none, w)
  | some new =>
    let newItem := w.next
    let w := replaceItem env (w.alloc new) cylinder itemIndex item newItem
    (some newItem, registerDecay w newItem)

/-- The last unit or charge is used up. `again` is the recursive call. -/
def consumeItem (env : Env) (again : World → Nat → Option ItemRef × World) (w : World)
    (cylinder : Cylinder) (itemIndex : Int) (item : ItemRef) (newId : Nat) :
    Option ItemRef × World :=
  let curType := env.items.get (w.item item).id
  let newType := env.items.get newId
  if (w.item item).isStackable env.items then (none, (internalRemoveItem env w item none false 0).2)
  else
    let newItemId : Int :=
      if curType.id = newType.id then (w.item item).getDecayTo env.items else newId
    if newItemId < 0 then (none, (internalRemoveItem env w item none false 0).2)
    else if newItemId ≠ newId then
      match Item.CreateItem env.items newItemId.toNat 1 with
      | none => (none, w)
      | some new => (some w.next, replaceItem env (w.alloc new) cylinder itemIndex item w.next)
    else again w newItemId.toNat

/-- `Game::transformItem`, with -1 for a count that is not given. -/
def transformItemAux (env : Env) (again : World → Nat → Option ItemRef × World) (w : World)
    (item : ItemRef) (newId : Nat) (newCount : Int) : Option ItemRef × World :=
  let it := w.item item
  if it.id = newId ∧ (newCount = -1 ∨ (newCount = it.getSubType env.items ∧ newCount ≠ 0)) then
    (some item, w)
  else
    match it.parent with
    | none => (none, w)
    | some cylinder =>
      let itemIndex := Cylinder.getThingIndex env w cylinder item
      let curType := env.items.get it.id
      let newType := env.items.get newId
      if itemIndex = -1 then (some item, w)
      else if !it.canTransform then (some item, w)
      else if newType.id = 0 then (some item, w)
      else if curType.alwaysOnTop ≠ newType.alwaysOnTop then
        readdItem env w cylinder item newId newCount
      else if curType.type = newType.type then
        if newCount = 0 ∧ (it.isStackable env.items ∨ it.hasAttribute .charges) then
          consumeItem env again w cylinder itemIndex item newId
        else updateItemType env w cylinder item newId newCount
      else replaceItemType env w cylinder itemIndex item newId newCount

/-- The recursive call is made without a count, and such a call makes no further one. -/
def transformItem (env : Env) (w : World) (item : ItemRef) (newId : Nat) (newCount : Int) :
    Option ItemRef × World :=
  transformItemAux env
    (fun w id => transformItemAux env (fun w _ => (some item, w)) w item id (-1)) w item newId
    newCount

/-! ## Decay -/

/-- `Game::startDecay`, following at most `fuel` transformations. -/
def startDecay (env : Env) : Nat → World → Option ItemRef → World
  | _, w, none => w
  | 0, w, some _ => w
  | fuel + 1, w, some item =>
    if !w.canDecay env item then w
    else if (w.item item).getDecaying = DECAYING_TRUE then w
    else if 0 < (w.item item).getDuration then
      (w.modifyItem item fun it => it.setDecaying DECAYING_TRUE).pushToDecay item
    else if (env.items.get (w.item item).id).decayTo ≠ 0 then
      let (newItem, w) :=
        transformItem env w item ((w.item item).getDecayTo env.items).toNat (-1)
      startDecay env fuel w newItem
    else (internalRemoveItem env w item none false 0).2

def internalDecayItem (env : Env) (fuel : Nat) (w : World) (item : ItemRef) : World :=
  if (env.items.get (w.item item).id).decayTo ≠ 0 then
    let (newItem, w) := transformItem env w item ((w.item item).getDecayTo env.items).toNat (-1)
    startDecay env fuel w newItem
  else (internalRemoveItem env w item none false 0).2

def setBucket (w : World) (bucket : Nat) (items : List ItemRef) : World :=
  { w with decayItems := Function.update w.decayItems bucket items }

def pushBucket (w : World) (bucket : Nat) (item : ItemRef) : World :=
  setBucket w bucket (w.decayItems bucket ++ [item])

/-- One item taken from the bucket that is due: it is dropped, decays, goes to another bucket or
goes back to the end of this one. -/
def checkDecayItem (env : Env) (fuel bucket : Nat) (w : World) (item : ItemRef) : World :=
  let interval : Int := EVENT_DECAYINTERVAL * EVENT_DECAY_BUCKETS
  if !w.canDecay env item then
    (w.modifyItem item fun it => it.setDecaying DECAYING_FALSE).releaseItem item
  else
    let duration := toInt32 (w.item item).getDuration
    let decreaseTime := min interval duration
    let duration := duration - decreaseTime
    let w := w.modifyItem item fun it => it.decreaseDuration decreaseTime
    if duration ≤ 0 then (internalDecayItem env fuel w item).releaseItem item
    else if duration < interval then
      let newBucket :=
        (bucket + ((duration.toNat + EVENT_DECAYINTERVAL / 2) / 1000)) % EVENT_DECAY_BUCKETS
      if newBucket = bucket then (internalDecayItem env fuel w item).releaseItem item
      else pushBucket w newBucket item
    else pushBucket w bucket item

/-- The bucket that an item from `toDecayItems` goes to. -/
def cleanupBucket (w : World) (item : ItemRef) : Nat :=
  let dur := (w.item item).getDuration
  if EVENT_DECAYINTERVAL * EVENT_DECAY_BUCKETS ≤ dur then w.lastBucket
  else (w.lastBucket + 1 + dur / 1000) % EVENT_DECAY_BUCKETS

/-- `Game::cleanup`, as far as items go. -/
def cleanup (w : World) : World :=
  let w := { w.toReleaseItems.foldl World.decrementReferenceCounter w with toReleaseItems := [] }
  { w.toDecayItems.foldl (fun w item => pushBucket w (cleanupBucket w item) item) w with
    toDecayItems := [] }

/-- `Game::checkDecay`. The loop takes the items out of the bucket one by one. -/
def checkDecay (env : Env) (fuel : Nat) (w : World) : World :=
  let bucket := (w.lastBucket + 1) % EVENT_DECAY_BUCKETS
  let w := (w.decayItems bucket).foldl (checkDecayItem env fuel bucket) (setBucket w bucket [])
  cleanup { w with lastBucket := bucket }

end Eloth.Game
