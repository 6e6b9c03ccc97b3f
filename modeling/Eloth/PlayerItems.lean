import Eloth.Database
import Eloth.ItemStream
import Eloth.Lib.RowForest
import Eloth.Lib.TreeMaps

/-!
# The items of a player in the database

`saveItems` writes the items of a player level by level. `loadItems` collects the rows by their
`sid`, and the loops of `loadPlayer` go through them backwards and push every item to the front of
its parent.
-/

namespace Eloth

open RowForest

def ITEM_DEPOT : Nat := 2594

/-- An item with all that lies in it. Only a container has a list of items. -/
abbrev ItemTree :=
  Tree { item : StoredItem // item.isContainer = false }
    { item : StoredItem // item.isContainer = true }

namespace ItemTree

def item : ItemTree → StoredItem
  | .leaf item => item.1
  | .branch container _ => container.1

def getID (tree : ItemTree) : Nat := tree.item.id

end ItemTree

/-- A thing in a locker: the chest of the same depot, or an item. -/
inductive LockerThing (ι : Type) where
  | depotChest
  | item (i : ι)

def LockerThing.getID : LockerThing ItemTree → Nat
  | depotChest => ITEM_DEPOT
  | item tree => tree.getID

/-- Things are added to the front of a locker, so the chest that `getDepotLocker` puts into a new
one stays behind them. -/
structure DepotLocker where
  items : List ItemTree
  no_depot : ∀ tree ∈ items, tree.getID ≠ ITEM_DEPOT

def DepotLocker.getItemList (locker : DepotLocker) : List (LockerThing ItemTree) :=
  locker.items.map .item ++ [.depotChest]

structure PlayerItems where
  inventory : Nat → Option ItemTree
  depotLockerMap : Std.TreeMap Nat DepotLocker
  depotChests : Std.TreeMap Nat (List ItemTree)
  slot_range : ∀ slot, (inventory slot).isSome → CONST_SLOT_HEAD ≤ slot ∧ slot ≤ CONST_SLOT_AMMO
  locker_lt : ∀ entry ∈ depotLockerMap.toList, entry.1 < 100
  chest_lt : ∀ entry ∈ depotChests.toList, entry.1 < 100

/-! ## Saving -/

structure ItemRow where
  pid : Nat
  sid : Nat
  itemtype : Nat
  count : UInt16
  attributes : List UInt8

/-- The rows of one player in the three tables. -/
structure ItemTables where
  playerItems : List ItemRow
  depotLockerItems : List ItemRow
  depotItems : List ItemRow

namespace PlayerItems

section Save

variable (items : Items)

def itemRow (pid sid : Nat) (item : StoredItem) : ItemRow where
  pid := pid
  sid := sid
  itemtype := item.id
  count := UInt16.ofInt (item.getSubType items)
  attributes := item.serializeAttr items

/-- The rows that the two loops of `saveItems` add. The first loop takes the list itself, the
second the containers that were met so far; `runningId` starts at 100 and is raised before each
row. -/
def itemRows (itemList : List (Nat × ItemTree)) : List ItemRow :=
  (rows 101 itemList).map fun row => itemRow items row.pid row.sid (ItemTree.item row.tree)

def saveItems [RowText ItemRow] (db : Database ItemRow) (query_insert : DBInsert ItemRow)
    (itemList : List (Nat × ItemTree)) (table : List ItemRow) : Option (List ItemRow) := do
  let (query_insert, table) ← query_insert.addRows db (itemRows items itemList) table
  let (_, table) ← query_insert.execute db table
  some table

end Save

variable (player : PlayerItems)

def inventoryList : List (Nat × ItemTree) :=
  inventorySlots.filterMap fun slotId => (player.inventory slotId).map fun item => (slotId, item)

def lockerList : List (Nat × ItemTree) :=
  player.depotLockerMap.toList.flatMap fun (depotId, locker) =>
    locker.getItemList.filterMap fun
      | .depotChest => none
      | .item tree => if tree.getID ≠ ITEM_DEPOT then some (depotId, tree) else none

def chestList : List (Nat × ItemTree) :=
  player.depotChests.toList.flatMap fun (depotId, chest) => chest.map fun item => (depotId, item)

/-- One of the three tables: its rows of the player are deleted and written again. -/
def saveTable [RowText ItemRow] (items : Items) (db : Database ItemRow) (query : String)
    (itemList : List (Nat × ItemTree)) (table : List ItemRow) : Option (List ItemRow) := do
  let table ← db.deleteFrom table
  saveItems items db (.new query) itemList table

def insertQuery (table : String) : String :=
  "INSERT INTO `" ++ table ++
    "` (`player_id`, `pid`, `sid`, `itemtype`, `count`, `attributes`) VALUES "

/-- The part of `savePlayer` that saves items. The depots are left out when no locker `needsSave`. -/
def savePlayer [RowText ItemRow] (items : Items) (db : Database ItemRow) (needsSave : Bool)
    (tables : ItemTables) : Option ItemTables := do
  let playerItems ← saveTable items db (insertQuery "player_items")
    player.inventoryList tables.playerItems
  if needsSave then
    let depotLockerItems ← saveTable items db (insertQuery "player_depotlockeritems")
      player.lockerList tables.depotLockerItems
    let depotItems ← saveTable items db (insertQuery "player_depotitems")
      player.chestList tables.depotItems
    some ⟨playerItems, depotLockerItems, depotItems⟩
  else some { tables with playerItems := playerItems }

end PlayerItems

/-! ## Loading -/

/-- The objects by their `sid`, each with the `pid` of its row. -/
abbrev ItemMap := Std.TreeMap Nat (StoredItem × Nat)

/-- The objects of one table and the lists of the containers among them. -/
structure ItemHeap where
  itemMap : ItemMap
  itemlist : Nat → List Nat

namespace ItemHeap

variable (env : StreamEnv)

/-- A stream that cannot be read leaves the item with what was read. -/
def loadItem (row : ItemRow) : Option StoredItem :=
  (StoredItem.createItem env.items row.itemtype row.count).map fun item =>
    (item.unserializeAttr env row.attributes).2.1

def loadItems (result : List ItemRow) : ItemMap :=
  result.foldl
    (fun itemMap row =>
      match loadItem env row with
      | some item => itemMap.insert row.sid (item, row.pid)
      | none => itemMap)
    ∅

/-- `container->internalAddThing(item)`. -/
def internalAddThing (heap : ItemHeap) (container sid : Nat) : ItemHeap :=
  { heap with itemlist := Function.update heap.itemlist container (sid :: heap.itemlist container) }

variable {ρ : Type} (isRoot : Nat → Bool) (addRoot : Nat → Nat → ρ → ρ)

/-- One item of a loop of `loadPlayer`: `addRoot` adds it to the player when its `pid` is that of a
slot or a depot, else it goes into the container with this number. -/
def place (state : ρ × ItemHeap) (entry : Nat × StoredItem × Nat) : ρ × ItemHeap :=
  let (roots, heap) := state
  let (sid, _, pid) := entry
  if isRoot pid then (addRoot pid sid roots, heap)
  else
    match heap.itemMap[pid]? with
    | none => (roots, heap)
    | some (parent, _) =>
      if parent.isContainer then (roots, heap.internalAddThing pid sid) else (roots, heap)

/-- The loop from the last entry of the map to the first. -/
def rebuild (itemMap : ItemMap) (roots : ρ) : ρ × ItemHeap :=
  itemMap.toList.reverse.foldl (place isRoot addRoot) (roots, ⟨itemMap, fun _ => []⟩)

end ItemHeap

/-- The depots of a player that is loaded; the things are objects of the respective table. -/
structure LoadedDepots where
  depotLockerMap : Nat → Option (List (LockerThing Nat))
  depotChests : Nat → Option (List Nat)

namespace LoadedDepots

def getDepotChest (depots : LoadedDepots) (depotId : Nat) : List Nat × LoadedDepots :=
  match depots.depotChests depotId with
  | some chest => (chest, depots)
  | none => ([], { depots with depotChests := Function.update depots.depotChests depotId (some []) })

def getDepotLocker (depots : LoadedDepots) (depotId : Nat) :
    List (LockerThing Nat) × LoadedDepots :=
  match depots.depotLockerMap depotId with
  | some locker => (locker, depots)
  | none =>
    let (_, depots) := depots.getDepotChest depotId
    ([.depotChest], { depots with
      depotLockerMap := Function.update depots.depotLockerMap depotId (some [.depotChest]) })

def addToLocker (depotId sid : Nat) (depots : LoadedDepots) : LoadedDepots :=
  let (locker, depots) := depots.getDepotLocker depotId
  { depots with
    depotLockerMap := Function.update depots.depotLockerMap depotId (some (.item sid :: locker)) }

def addToChest (depotId sid : Nat) (depots : LoadedDepots) : LoadedDepots :=
  let (chest, depots) := depots.getDepotChest depotId
  { depots with depotChests := Function.update depots.depotChests depotId (some (sid :: chest)) }

def empty : LoadedDepots where
  depotLockerMap := fun _ => none
  depotChests := fun _ => none

end LoadedDepots

structure LoadedItems where
  inventory : Nat → Option Nat
  inventoryHeap : ItemHeap
  depots : LoadedDepots
  lockerHeap : ItemHeap
  chestHeap : ItemHeap

namespace LoadedItems

def isSlot (pid : Nat) : Bool := CONST_SLOT_HEAD ≤ pid && pid ≤ CONST_SLOT_AMMO
def isDepot (pid : Nat) : Bool := pid < 100

/-- `player->internalAddThing(pid, item)` at a slot. -/
def addToInventory (pid sid : Nat) (inventory : Nat → Option Nat) : Nat → Option Nat :=
  if (inventory pid).isSome then inventory else Function.update inventory pid (some sid)

/-- The three loops over items in `loadPlayer`. -/
def loadPlayer (env : StreamEnv) (inventoryResult lockerResult chestResult : List ItemRow) :
    LoadedItems :=
  let (inventory, inventoryHeap) := ItemHeap.rebuild isSlot addToInventory
    (ItemHeap.loadItems env inventoryResult) fun _ => none
  let (depots, lockerHeap) := ItemHeap.rebuild isDepot LoadedDepots.addToLocker
    (ItemHeap.loadItems env lockerResult) .empty
  let (depots, chestHeap) := ItemHeap.rebuild isDepot LoadedDepots.addToChest
    (ItemHeap.loadItems env chestResult) depots
  ⟨inventory, inventoryHeap, depots, lockerHeap, chestHeap⟩

end LoadedItems

end Eloth
