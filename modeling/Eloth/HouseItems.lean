import Eloth.PlayerItems

/-!
# The items of house tiles

`IOMapSerialize` stores what lies on a house tile as one stream. Loading it puts the moveable items
back and fills the stationary ones that the map has placed on the tile.
-/

namespace Eloth

open PropStream RowForest

/-- The columns of the item table that only the house storage reads. -/
structure HouseEnv extends StreamEnv where
  forceSerialize : Nat → Bool
  canWriteText : Nat → Bool

namespace StoredItem

def isDoorObject (item : StoredItem) : Bool := item.cls matches .door
def isBedObject (item : StoredItem) : Bool := item.cls matches .bed _ _

def serializationCount (item : StoredItem) : Nat :=
  match item.cls with
  | .container n => n.toNat
  | _ => 0

def setSerializationCount (item : StoredItem) (n : Nat) : StoredItem :=
  match item.cls with
  | .container _ => { item with cls := .container (UInt32.ofNat n) }
  | _ => item

def removeAttribute (item : StoredItem) (type : AttrType) : StoredItem :=
  { item with attributes := item.attributes.removeAttribute type }

def setDefaultSubtype (items : Items) (item : StoredItem) : StoredItem :=
  let it := items.get item.id
  let item := item.setItemCount 1
  if it.charges ≠ 0 then
    if it.stackable then item.setItemCount it.charges else item.setCharges it.charges
  else item

def setID (items : Items) (item : StoredItem) (newid : Nat) : StoredItem :=
  let prevIt := items.get item.id
  let it := items.get newid
  let newDuration : Nat := it.decayTime * 1000 % 2 ^ 32
  let renamed : StoredItem := { item with id := newid }
  let cleared :=
    if newDuration = 0 ∧ it.stopTime = false ∧ it.decayTo < 0 then
      (renamed.removeAttribute .decayState).removeAttribute .duration
    else renamed
  let unowned := cleared.removeAttribute .corpseOwner
  if 0 < newDuration ∧ (prevIt.stopTime = false ∨ unowned.hasAttribute .duration = false) then
    (unowned.setIntAttr .decayState 0).setDuration ((newDuration : Int).bmod (2 ^ 32))
  else unowned

end StoredItem

namespace ItemTree

/-- An object with the list of its items, which only a container has. -/
def of (item : StoredItem) (itemlist : List ItemTree) : ItemTree :=
  if h : item.isContainer = true then .branch ⟨item, h⟩ itemlist
  else .leaf ⟨item, Bool.eq_false_of_not_eq_true h⟩

end ItemTree

/-! ## The items of a tile -/

/-- The vector of items: first those below creatures, then those that are always on top. -/
structure TileItems where
  down : List ItemTree
  top : List ItemTree

/-- The insertion before the first element that is `later`. -/
def insertTop {α : Type} (later : α → Bool) (a : α) : List α → List α
  | [] => [a]
  | b :: top => if later b then a :: b :: top else b :: insertTop later a top

namespace TileItems

variable (items : Items) (tile : TileItems)

def toList : List ItemTree := tile.down ++ tile.top

/-- `Tile::internalAddThing`. A ground does not go into the vector. -/
def internalAddThing (tree : ItemTree) : TileItems :=
  let itemType := items.get (ItemTree.getID tree)
  if itemType.isGroundTile then tile
  else if tile.toList.length ≥ 0xFFFF then tile
  else if itemType.alwaysOnTop then
    let later (other : ItemTree) : Bool :=
      (items.get (ItemTree.getID other)).alwaysOnTopOrder > itemType.alwaysOnTopOrder
    { tile with top := insertTop later tree tile.top }
  else { tile with down := tree :: tile.down }

/-- `Tile::addThing` for an item that is no ground, splash or magic field. Unlike
`internalAddThing` it puts the item before those of the same order. -/
def addThing (tree : ItemTree) : TileItems :=
  let itemType := items.get (ItemTree.getID tree)
  if tile.toList.length ≥ 0xFFFF then tile
  else if itemType.alwaysOnTop then
    let later (other : ItemTree) : Bool :=
      itemType.alwaysOnTopOrder ≤ (items.get (ItemTree.getID other)).alwaysOnTopOrder
    { tile with top := insertTop later tree tile.top }
  else { tile with down := tree :: tile.down }

def set (index : Nat) (tree : ItemTree) : TileItems where
  down := tile.down.set index tree
  top := if tile.down.length ≤ index then tile.top.set (index - tile.down.length) tree
    else tile.top

def removeThing (index : Nat) : TileItems where
  down := tile.down.eraseIdx index
  top := if tile.down.length ≤ index then tile.top.eraseIdx (index - tile.down.length)
    else tile.top

/-- `Game::transformItem(item, newId)` for the item at an index. -/
def transformItem (index newId : Nat) : TileItems :=
  match tile.toList[index]? with
  | none => tile
  | some tree =>
    let item := ItemTree.item tree
    let newType := items.get newId
    let curType := items.get item.id
    if item.id = newId then tile
    else if newType.id = 0 then tile
    else if curType.alwaysOnTop ≠ newType.alwaysOnTop then
      addThing items (tile.removeThing index) (ItemTree.of (item.setID items newId) tree.children)
    else if curType.type = newType.type then
      let count := item.getSubType items
      let item := if newType.group ≠ curType.group then item.setDefaultSubtype items else item
      tile.set index (ItemTree.of ((item.setID items newId).setSubType items count) tree.children)
    else
      match StoredItem.createItem items newId 0 with
      | none => tile
      | some newItem => tile.set index (ItemTree.of newItem [])

end TileItems

/-! ## Saving -/

namespace IOMapSerialize

variable (env : HouseEnv)

mutual

def saveItem : ItemTree → List UInt8
  | .leaf item => writeInt 2 item.1.id ++ item.1.serializeAttr env.items ++ [0]
  | .branch container itemlist =>
    writeInt 2 container.1.id ++ container.1.serializeAttr env.items ++
      AttrCode.containerItems.byte :: writeInt 4 itemlist.length ++ saveReversed itemlist ++ [0]

/-- The items of a container from the last to the first. -/
def saveReversed : List ItemTree → List UInt8
  | [] => []
  | item :: itemlist => saveReversed itemlist ++ saveItem item

end

def isSaved (tree : ItemTree) : Bool :=
  let item := ItemTree.item tree
  let it := env.items.get item.id
  it.moveable || env.forceSerialize item.id || item.isDoorObject ||
    item.isContainer && !tree.children.isEmpty || env.canWriteText item.id || item.isBedObject

/-- Nothing is written for a tile without items to save. -/
def saveTile (x y : UInt16) (z : UInt8) (tile : TileItems) : List UInt8 :=
  let saved := tile.toList.filter (isSaved env)
  if saved.isEmpty then []
  else
    writeInt 2 x.toNat ++ writeInt 2 y.toNat ++ writeInt 1 z.toNat ++
      writeInt 4 (saved.length % 2 ^ 16 : Nat) ++ saveReversed env saved

/-! ## Loading -/

/-- What reading an object from the stream came to. -/
inductive Unserialized
  | done
  | attrError
  | containerError
  deriving DecidableEq

/-- `loadContainer`, when `load` loads one item of it. The number is what is left of
`serializationCount`. -/
def loadContainer (load : List UInt8 → Bool × Option ItemTree × List UInt8) :
    Nat → List ItemTree → List UInt8 → Bool × Nat × List ItemTree × List UInt8
  | 0, itemlist, stream =>
    match (readUInt 1).run stream with
    | (some 0, stream) => (true, 0, itemlist, stream)
    | (_, stream) => (false, 0, itemlist, stream)
  | count + 1, itemlist, stream =>
    match load stream with
    | (true, item, stream) => loadContainer load count (item.toList ++ itemlist) stream
    | (false, _, stream) => (false, count + 1, itemlist, stream)

/-- The attributes of an object and, if it is a container, its items. -/
def unserialize (load : List UInt8 → Bool × Option ItemTree × List UInt8) (item : StoredItem)
    (itemlist : List ItemTree) (stream : List UInt8) : Unserialized × ItemTree × List UInt8 :=
  match item.unserializeAttr env.toStreamEnv stream with
  | (false, item, stream) => (.attrError, ItemTree.of item itemlist, stream)
  | (true, item, stream) =>
    if item.isContainer then
      match loadContainer load item.serializationCount itemlist stream with
      | (ok, count, itemlist, stream) =>
        (if ok then .done else .containerError, ItemTree.of (item.setSerializationCount count) itemlist,
          stream)
    else (.done, ItemTree.of item itemlist, stream)

/-- `loadItem` into a container: the verdict and the item for its front. Containers lie in each
other at most `depth` deep. -/
def loadChild : (depth : Nat) → List UInt8 → Bool × Option ItemTree × List UInt8
  | 0, stream => (false, none, stream)
  | depth + 1, stream =>
    match (readUInt 2).run stream with
    | (none, stream) => (false, none, stream)
    | (some id, stream) =>
      match StoredItem.createItem env.items id.toNat 0 with
      | none => (true, none, stream)
      | some item =>
        match unserialize env (loadChild depth) item [] stream with
        | (.done, item, stream) => (true, some item, stream)
        | (_, _, stream) => (false, none, stream)

/-- The stationary item on the tile that takes what was saved under an id. -/
def isStationaryFor (id : Nat) (findItem : ItemTree) : Bool :=
  let iType := env.items.get id
  ItemTree.getID findItem = id || iType.isDoor && (ItemTree.item findItem).isDoorObject ||
    iType.isBed && (ItemTree.item findItem).isBedObject

/-- `loadItem` onto a tile. -/
def loadItem (depth : Nat) (stream : List UInt8) (tile : TileItems) :
    Bool × TileItems × List UInt8 :=
  match (readUInt 2).run stream with
  | (none, stream) => (false, tile, stream)
  | (some id, stream) =>
    let id := id.toNat
    if (env.items.get id).moveable || env.forceSerialize id then
      match StoredItem.createItem env.items id 0 with
      | none => (true, tile, stream)
      | some item =>
        match unserialize env (loadChild env depth) item [] stream with
        | (.done, item, stream) => (true, tile.internalAddThing env.items item, stream)
        | (_, _, stream) => (false, tile, stream)
    else
      match tile.toList.findIdx? (isStationaryFor env id) with
      | some index =>
        let found := (tile.toList[index]?).getD (ItemTree.of (StoredItem.construct env.items 0 0 .item) [])
        match unserialize env (loadChild env depth) (ItemTree.item found) found.children stream with
        | (.done, item, stream) =>
          (true, (tile.set index item).transformItem env.items index id, stream)
        | (.attrError, item, stream) => (true, tile.set index item, stream)
        | (.containerError, item, stream) => (false, tile.set index item, stream)
      | none =>
        -- the map has changed, and the attributes are only read
        match StoredItem.createItem env.items id 0 with
        | none => (true, tile, stream)
        | some dummy =>
          let (_, dummy, stream) := dummy.unserializeAttr env.toStreamEnv stream
          if dummy.isContainer then
            let (ok, _, _, stream) :=
              loadContainer (loadChild env depth) dummy.serializationCount [] stream
            (ok, tile, stream)
          else (true, tile, stream)

/-- The loop over the items of a tile, which does not look at the verdicts. -/
def loadItems (depth : Nat) : Nat → List UInt8 → TileItems → TileItems × List UInt8
  | 0, stream, tile => (tile, stream)
  | count + 1, stream, tile =>
    let (_, tile, stream) := loadItem env depth stream tile
    loadItems depth count stream tile

/-- One row of `loadHouseItems`. Every container takes bytes, so the length of the data bounds how
deep they lie. -/
def loadTile (data : List UInt8) (tile : TileItems) : TileItems :=
  match (readUInt 2).run data with
  | (none, _) => tile
  | (some _, stream) =>
    match (readUInt 2).run stream with
    | (none, _) => tile
    | (some _, stream) =>
      match (readUInt 1).run stream with
      | (none, _) => tile
      | (some _, stream) =>
        match (readUInt 4).run stream with
        | (none, _) => tile
        | (some item_count, stream) =>
          (loadItems env data.length item_count.toNat stream tile).1

end IOMapSerialize

end Eloth
