import Eloth.TradeState
import Eloth.Container

/-!
# Tiles as cylinders

The functions of `tile.cpp` for items. The item vector of a tile is kept as its two parts, the
down items in front and the top items behind them. Creatures only matter for the positions of
the down items and for blocking items.
-/

namespace Eloth.Tile

/-- The item vector, down items first. -/
def itemVector (t : Tile) : List ItemRef := t.downItems ++ t.topItems

/-- The ground and the items, as `Tile::hasProperty` looks through them. -/
def allItems (t : Tile) : List ItemRef := t.ground.toList ++ t.itemVector

def hasFlag (t : Tile) (flag : TileState) : Bool := t.flags flag
def hasAnyFlag (t : Tile) (flags : List TileState) : Bool := flags.any t.hasFlag
def setFlag (t : Tile) (flag : TileState) : Tile :=
  { t with flags := Function.update t.flags flag true }
def resetFlag (t : Tile) (flag : TileState) : Tile :=
  { t with flags := Function.update t.flags flag false }

def hasProperty (env : Env) (w : World) (t : Tile) (exclude : ItemRef) (prop : ItemProperty) :
    Bool :=
  t.allItems.any fun r => r != exclude && (w.item r).hasProperty env.items prop

/-! ## Getters guarded by a flag -/

/-- The body of the getters: the ground if the getter looks at it, then the vector from its
end. -/
def findObject (w : World) (t : Tile) (flag : TileState) (lookAtGround : Bool)
    (isKind : Item → Bool) : Option ItemRef :=
  if !t.hasFlag flag then none
  else
    let fromItems := t.itemVector.reverse.find? fun r => isKind (w.item r)
    match t.ground with
    | none => fromItems
    | some g => if lookAtGround && isKind (w.item g) then some g else fromItems

def getTeleportItem (w : World) (t : Tile) : Option ItemRef :=
  findObject w t .teleport false Item.isTeleportObject

def getFieldItem (w : World) (t : Tile) : Option ItemRef :=
  findObject w t .magicField true Item.isMagicFieldObject

def getTrashHolder (w : World) (t : Tile) : Option ItemRef :=
  findObject w t .trashHolder true Item.isTrashHolderObject

def getMailbox (w : World) (t : Tile) : Option ItemRef :=
  findObject w t .mailbox true Item.isMailboxObject

def getBedItem (w : World) (t : Tile) : Option ItemRef :=
  findObject w t .bed true Item.isBedObject

/-! ## Flags -/

def setFlagIf (cond : Bool) (flag : TileState) (t : Tile) : Tile :=
  if cond then t.setFlag flag else t

def resetFlagIf (cond : Bool) (flag : TileState) (t : Tile) : Tile :=
  if cond then t.resetFlag flag else t

/-- `Tile::setTileFlags`. It has no branch for `immovableBlockPath`. -/
def setTileFlags (env : Env) (w : World) (t : Tile) (item : ItemRef) : Tile :=
  let it := w.item item
  let has := it.hasProperty env.items
  let t :=
    if t.hasAnyFlag TileState.floorChange then t
    else (env.items.get it.id).floorChange.foldl setFlag t
  let t := setFlagIf (has .immovableBlockSolid) .immovableBlockSolid t
  let t := setFlagIf (has .blockPath) .blockPath t
  let t := setFlagIf (has .noFieldBlockPath) .noFieldBlockPath t
  let t := setFlagIf (has .immovableNoFieldBlockPath) .immovableNoFieldBlockPath t
  let t := setFlagIf it.isTeleportObject .teleport t
  let t := setFlagIf it.isMagicFieldObject .magicField t
  let t := setFlagIf it.isMailboxObject .mailbox t
  let t := setFlagIf it.isTrashHolderObject .trashHolder t
  let t := setFlagIf (has .blockSolid) .blockSolid t
  let t := setFlagIf it.isBedObject .bed t
  let t := setFlagIf it.isDepotLocker .depot t
  setFlagIf (has .supportHangable) .supportsHangable t

/-- `Tile::resetTileFlags`: a property flag goes when no other item has the property, a kind
flag goes in any case. -/
def resetTileFlags (env : Env) (w : World) (t : Tile) (item : ItemRef) : Tile :=
  let it := w.item item
  let has := it.hasProperty env.items
  let last := fun prop => has prop && !t.hasProperty env w item prop
  let t' :=
    if (env.items.get it.id).floorChange ≠ [] then TileState.floorChange.foldl resetFlag t else t
  let t' := resetFlagIf (last .blockSolid) .blockSolid t'
  let t' := resetFlagIf (last .immovableBlockSolid) .immovableBlockSolid t'
  let t' := resetFlagIf (last .blockPath) .blockPath t'
  let t' := resetFlagIf (last .noFieldBlockPath) .noFieldBlockPath t'
  let t' := resetFlagIf (last .immovableBlockPath) .immovableBlockPath t'
  let t' := resetFlagIf (last .immovableNoFieldBlockPath) .immovableNoFieldBlockPath t'
  let t' := resetFlagIf it.isTeleportObject .teleport t'
  let t' := resetFlagIf it.isMagicFieldObject .magicField t'
  let t' := resetFlagIf it.isMailboxObject .mailbox t'
  let t' := resetFlagIf it.isTrashHolderObject .trashHolder t'
  let t' := resetFlagIf it.isBedObject .bed t'
  let t' := resetFlagIf it.isDepotLocker .depot t'
  resetFlagIf (has .supportHangable) .supportsHangable t'

/-! ## Queries -/

def getThingIndex (env : Env) (w : World) (t : Tile) (item : ItemRef) : Int :=
  let base : Int := if t.ground.isSome then 0 else -1
  if t.ground = some item then 0
  else if (w.item item).isAlwaysOnTop env.items then
    match t.topItems.idxOf? item with
    | some i => base + 1 + i
    | none => -1
  else
    match t.downItems.idxOf? item with
    | some i => base + t.topItems.length + t.creatures.length + 1 + i
    | none => -1

def blocksItem (env : Env) (blocking : ItemType) (it : Item) : Bool :=
  blocking.blockSolid &&
    (!blocking.ignoreBlocking || it.isMagicField env.items || it.isBlocking env.items) &&
    (!it.isPickupable env.items || !blocking.hasHeight || blocking.pickupable || blocking.isBed)

def queryAdd (env : Env) (w : World) (pos : Position) (item : ItemRef) (flags : Nat)
    (actor : Option PlayerId) : ReturnValue :=
  let t := w.tile pos
  let it := w.item item
  let uninvited :=
    match t.house, actor with
    | some house, some a => !env.isInvited house a
    | _, _ => false
  if uninvited then .cannotThrow
  else if 0xFFFF ≤ t.itemVector.length then .notPossible
  else if hasBitSet FLAG_NOLIMIT flags then .noError
  else if t.ground.isNone && !it.isHangable env.items then .notPossible
  else if it.isBlocking env.items && !hasBitSet FLAG_IGNOREBLOCKCREATURE flags &&
      t.creatures.any fun c => !c.isInGhostMode then .notEnoughRoom
  else if it.isHangable env.items && t.hasFlag .supportsHangable then
    if t.itemVector.any fun r => (w.item r).isHangable env.items then .needExchange else .noError
  else if t.allItems.any fun r => blocksItem env (env.items.get (w.item r).id) it then
    .notEnoughRoom
  else .noError

def queryMaxCount (count : Nat) : ReturnValue × Nat := (.noError, max 1 count)

def queryRemove (env : Env) (w : World) (pos : Position) (item : ItemRef) (count flags : Nat)
    (actor : Option PlayerId) : ReturnValue :=
  let t := w.tile pos
  let it := w.item item
  let uninvited :=
    match t.house, actor with
    | some house, some a => env.onlyInvitedCanMoveHouseItems && !env.isInvited house a
    | _, _ => false
  if uninvited then .notPossible
  else if getThingIndex env w t item = -1 then .notPossible
  else if count = 0 ∨ (it.isStackable env.items ∧ it.getItemCount < count) then .notPossible
  else if !it.isMoveable env.items && !hasBitSet FLAG_IGNORENOTMOVEABLE flags then .notMoveable
  else .noError

/-! ## Floor changes -/

def shift (pos : Position) (dx dy dz : Int) : Position where
  x := ((pos.x + dx) % 2 ^ 16).toNat
  y := ((pos.y + dy) % 2 ^ 16).toNat
  z := ((pos.z + dz) % 2 ^ 8).toNat

def stepIf (cond : Bool) (dx dy : Int) (pos : Position) : Position :=
  if cond then shift pos dx dy 0 else pos

def mapFlag (w : World) (pos : Position) (flag : TileState) : Bool :=
  w.hasTile pos && (w.tile pos).hasFlag flag

/-- The tile below a hole, displaced by the stairs found there. -/
def floorBelow (w : World) (pos : Position) : Option Position :=
  let down := shift pos 0 0 1
  if mapFlag w (shift down 0 (-1) 0) .floorChangeSouthAlt then some (shift down 0 (-2) 0)
  else if mapFlag w (shift down (-1) 0 0) .floorChangeEastAlt then some (shift down (-2) 0 0)
  else if w.hasTile down then
    let t := w.tile down
    some (stepIf (t.hasFlag .floorChangeWest) 1 0
      (stepIf (t.hasFlag .floorChangeEastAlt) (-2) 0
        (stepIf (t.hasFlag .floorChangeEast) (-1) 0
          (stepIf (t.hasFlag .floorChangeSouthAlt) 0 (-2)
            (stepIf (t.hasFlag .floorChangeSouth) 0 (-1)
              (stepIf (t.hasFlag .floorChangeNorth) 0 1 down))))))
  else none

def floorAbove (t : Tile) (pos : Position) : Position :=
  stepIf (t.hasFlag .floorChangeEastAlt) 2 0
    (stepIf (t.hasFlag .floorChangeSouthAlt) 0 2
      (stepIf (t.hasFlag .floorChangeWest) (-1) 0
        (stepIf (t.hasFlag .floorChangeEast) 1 0
          (stepIf (t.hasFlag .floorChangeSouth) 0 1
            (stepIf (t.hasFlag .floorChangeNorth) 0 (-1) (shift pos 0 0 (-1)))))))

def floorChange (w : World) (pos : Position) : Option Position :=
  let t := w.tile pos
  let destination :=
    if t.hasFlag .floorChangeDown then floorBelow w pos
    else if t.hasAnyFlag TileState.floorChange then some (floorAbove t pos)
    else none
  destination.filter w.hasTile

def queryDestination (w : World) (pos : Position) (index : Int) (flags : Nat) : Destination :=
  match floorChange w pos with
  | none => ⟨.tile pos, index, (w.tile pos).downItems.head?, flags⟩
  | some dest => ⟨.tile dest, index, (w.tile dest).downItems.head?, flags ||| FLAG_NOLIMIT⟩

/-! ## Changes -/

def modify (w : World) (pos : Position) (f : Tile → Tile) : World := w.setTile pos (f (w.tile pos))

def onAddTileItem (env : Env) (w : World) (pos : Position) (item : ItemRef) : World :=
  modify w pos fun t => setTileFlags env w t item

def onRemoveTileItem (env : Env) (w : World) (pos : Position) (item : ItemRef) : World :=
  (modify w pos fun t => resetTileFlags env w t item).notify (env.tileSpectators w pos) fun w p =>
    Player.onRemoveTileItem w p item

def onUpdateTileItem (env : Env) (w : World) (pos : Position) (oldItem newItem : ItemRef) :
    World :=
  w.notify (env.tileSpectators w pos) fun w p => Player.onUpdateTileItem w p oldItem newItem

def removeThing (env : Env) (w : World) (pos : Position) (item : ItemRef) (count : Nat) :
    World :=
  let t := w.tile pos
  let it := w.item item
  if getThingIndex env w t item = -1 then w
  else if t.ground = some item then
    onRemoveTileItem env ((w.setParent item none).setTile pos { t with ground := none }) pos item
  else if it.isAlwaysOnTop env.items then
    if item ∈ t.topItems then
      onRemoveTileItem env
        ((w.setParent item none).setTile pos { t with topItems := t.topItems.erase item }) pos item
    else w
  else if item ∈ t.downItems then
    if it.isStackable env.items ∧ count ≠ it.getItemCount then
      onUpdateTileItem env
        (w.modifyItem item fun it =>
          it.setItemCount (Container.reducedCount it.getItemCount count)) pos item item
    else
      onRemoveTileItem env
        ((w.setParent item none).setTile pos { t with downItems := t.downItems.erase item }) pos
        item
  else w

/-- Takes a replaced splash or field off the tile for good. -/
def discard (env : Env) (w : World) (pos : Position) (item : ItemRef) : World :=
  ((removeThing env w pos item 1).setParent item none).releaseItem item

def insertTop (comesLater : ItemRef → Bool) (item : ItemRef) : List ItemRef → List ItemRef
  | [] => [item]
  | r :: rest => if comesLater r then item :: r :: rest else r :: insertTop comesLater item rest

def addGround (env : Env) (w : World) (pos : Position) (item : ItemRef) : World :=
  let t := w.tile pos
  match t.ground with
  | none => onAddTileItem env (w.setTile pos { t with ground := some item }) pos item
  | some oldGround =>
    let w := (w.setParent oldGround none).releaseItem oldGround
    let w := w.setTile pos { t with ground := some item }
    let w := modify w pos fun t => setTileFlags env w (resetTileFlags env w t oldGround) item
    onUpdateTileItem env w pos oldGround item

def addTopItem (env : Env) (w : World) (pos : Position) (item : ItemRef) : World :=
  let it := env.items.get (w.item item).id
  let oldSplash :=
    if it.isSplash then
      (w.tile pos).topItems.find? fun r => (env.items.get (w.item r).id).isSplash
    else none
  let w :=
    match oldSplash with
    | none => w
    | some r => discard env w pos r
  let t := w.tile pos
  let comesLater := fun r =>
    decide (it.alwaysOnTopOrder ≤ (env.items.get (w.item r).id).alwaysOnTopOrder)
  onAddTileItem env (w.setTile pos { t with topItems := insertTop comesLater item t.topItems })
    pos item

def addDownItem (env : Env) (w : World) (pos : Position) (item : ItemRef) : World :=
  let t := w.tile pos
  onAddTileItem env (w.setTile pos { t with downItems := item :: t.downItems }) pos item

def addThing (env : Env) (w : World) (pos : Position) (item : ItemRef) : World :=
  if 0xFFFF ≤ (w.tile pos).itemVector.length then w
  else
    let it := env.items.get (w.item item).id
    let w := w.setParent item (some (.tile pos))
    if it.isGroundTile then addGround env w pos item
    else if it.alwaysOnTop then addTopItem env w pos item
    else
      let oldField :=
        if it.isMagicField then
          (w.tile pos).downItems.find? fun r => (w.item r).isMagicFieldObject
        else none
      match oldField with
      | none => addDownItem env w pos item
      | some field =>
        if (env.items.get (w.item field).id).replaceable then
          addDownItem env (discard env w pos field) pos item
        else (w.setParent item none).releaseItem item

def updateThing (env : Env) (w : World) (pos : Position) (item : ItemRef) (itemId count : Nat) :
    World :=
  if getThingIndex env w (w.tile pos) item = -1 then w
  else
    let w := modify w pos fun t => resetTileFlags env w t item
    let w := w.modifyItem item fun it => (it.setID env.items itemId).setSubType env.items count
    let w := modify w pos fun t => setTileFlags env w t item
    onUpdateTileItem env w pos item item

/-- The item at an index of `replaceThing`, and the tile with the new item in its place. -/
def replaceAt (t : Tile) (index : Nat) (item : ItemRef) : Option (ItemRef × Tile) :=
  let pos : Int := if t.ground.isSome then index - 1 else index
  let down : Int := pos - t.topItems.length - t.creatures.length
  match t.ground with
  | some ground =>
    if index = 0 then some (ground, { t with ground := some item })
    else replaceItem pos down
  | none => replaceItem pos down
where
  replaceItem (pos down : Int) : Option (ItemRef × Tile) :=
    if pos < t.topItems.length then
      t.topItems[pos.toNat]?.map fun oldItem =>
        (oldItem, { t with topItems := t.topItems.set pos.toNat item })
    else if down < 0 then none
    else
      t.downItems[down.toNat]?.map fun oldItem =>
        (oldItem, { t with downItems := t.downItems.set down.toNat item })

def replaceThing (env : Env) (w : World) (pos : Position) (index : Nat) (item : ItemRef) :
    World :=
  match replaceAt (w.tile pos) index item with
  | none => w
  | some (oldItem, t) =>
    let w := (w.setTile pos t).setParent item (some (.tile pos))
    let w := modify w pos fun t => setTileFlags env w (resetTileFlags env w t oldItem) item
    (onUpdateTileItem env w pos oldItem item).setParent oldItem none

def internalAddThing (env : Env) (w : World) (pos : Position) (item : ItemRef) : World :=
  let w := w.setParent item (some (.tile pos))
  let t := w.tile pos
  let it := env.items.get (w.item item).id
  if it.isGroundTile then
    if t.ground.isNone then
      onAddTileItem env (w.setTile pos { t with ground := some item }) pos item
    else w
  else if 0xFFFF ≤ t.itemVector.length then w
  else if it.alwaysOnTop then
    let comesLater := fun r =>
      decide (it.alwaysOnTopOrder < (env.items.get (w.item r).id).alwaysOnTopOrder)
    onAddTileItem env (w.setTile pos { t with topItems := insertTop comesLater item t.topItems })
      pos item
  else onAddTileItem env (w.setTile pos { t with downItems := item :: t.downItems }) pos item

def setCreatures (w : World) (pos : Position) (creatures : List TileCreature) : World :=
  modify w pos fun t => { t with creatures := creatures }

end Eloth.Tile
