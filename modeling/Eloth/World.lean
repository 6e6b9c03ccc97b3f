import Eloth.Item
import Eloth.Lib.Worklist

/-!
# The world

The object store of the game: every item, the inventories, the tiles, the trade table and the
decay lists. References from `next` on are not allocated yet. The cylinders write to the store
through the few updates defined here.
-/

namespace Eloth

structure Player where
  inventory : Nat → Option ItemRef
  inventoryWeight : UInt32
  capacity : UInt32
  cannotPickupItem : Bool
  hasInfiniteCapacity : Bool
  ignoreWeaponCheck : Bool
  vocation : Nat
  level : Nat
  magicLevel : Nat
  isPremium : Bool
  tile : Position

structure TileCreature where
  isInGhostMode : Bool
  deriving DecidableEq

structure Tile where
  ground : Option ItemRef
  topItems : List ItemRef
  downItems : List ItemRef
  creatures : List TileCreature
  flags : TileState → Bool
  house : Option Nat

def Tile.empty : Tile where
  ground := none
  topItems := []
  downItems := []
  creatures := []
  flags := fun _ => false
  house := none

structure Trade where
  tradeState : TradeState
  tradePartner : Option PlayerId
  tradeItem : Option ItemRef

def Trade.none : Trade := { tradeState := .none, tradePartner := .none, tradeItem := .none }

def EVENT_DECAYINTERVAL : Nat := 250
def EVENT_DECAY_BUCKETS : Nat := 4

structure World where
  item : ItemRef → Item
  next : ItemRef
  player : PlayerId → Player
  tile : Position → Tile
  hasTile : Position → Bool
  trade : PlayerId → Trade
  tradeItems : ItemRef → Option PlayerId
  isOnline : PlayerId → Bool
  toDecayItems : List ItemRef
  decayItems : Nat → List ItemRef
  lastBucket : Nat
  toReleaseItems : List ItemRef
  /-- Counts what the decay lists and the creation of an item take, and what is given back. -/
  referenceCounter : ItemRef → Int := fun _ => 0

/-- An entry of the equip events that `movements.xml` registers for an item id. -/
structure MoveEvent where
  slot : Nat
  scripted : Bool
  equipFunction : Bool
  wieldInfo : Nat
  vocEquipMap : List Nat
  reqLevel : Nat
  reqMagLevel : Nat
  premium : Bool

/-- What the operations read besides the world: the tables and settings loaded at start, and
the answers of scripts and access lists. -/
structure Env where
  items : Items
  /-- `Items::currencyItems`: worth and item id, by descending worth. -/
  currencyItems : List (Nat × Nat)
  classicEquipmentSlots : Bool
  onlyInvitedCanMoveHouseItems : Bool
  equipEvents : Nat → List MoveEvent
  executeEquip : World → PlayerId → ItemRef → Int → Bool
  eventPlayerOnMoveItem : World → PlayerId → ItemRef → Nat → Cylinder → Cylinder → Bool
  eventPlayerOnTradeRequest : World → PlayerId → PlayerId → ItemRef → Bool
  eventPlayerOnTradeAccept : World → PlayerId → PlayerId → Bool
  canThrowObjectTo : World → Position → Position → Bool
  isInvited : Nat → PlayerId → Bool
  /-- `Map::getSpectators` for a container at the position, and for the tile there. -/
  spectators : World → Position → List PlayerId
  tileSpectators : World → Position → List PlayerId

namespace World

variable (w : World)

/-! ## Updates -/

def setItem (r : ItemRef) (item : Item) : World :=
  { w with item := Function.update w.item r item }

def modifyItem (r : ItemRef) (f : Item → Item) : World := w.setItem r (f (w.item r))

def setParent (r : ItemRef) (parent : Option Cylinder) : World :=
  w.modifyItem r fun item => { item with parent := parent }

def modifyContainer (r : ItemRef) (f : Container → Container) : World :=
  w.modifyItem r fun item =>
    match item.cls with
    | .container c => { item with cls := .container (f c) }
    | _ => item

def setPlayer (p : PlayerId) (player : Player) : World :=
  { w with player := Function.update w.player p player }

def setSlot (p : PlayerId) (slot : Nat) (r : Option ItemRef) : World :=
  w.setPlayer p { w.player p with inventory := Function.update (w.player p).inventory slot r }

def setTile (pos : Position) (t : Tile) : World :=
  { w with tile := Function.update w.tile pos t }

def setTrade (p : PlayerId) (trade : Trade) : World :=
  { w with trade := Function.update w.trade p trade }

def alloc (item : Item) : World :=
  { w with
    item := Function.update w.item w.next item
    next := w.next + 1
    referenceCounter := Function.update w.referenceCounter w.next 1 }

def releaseItem (r : ItemRef) : World := { w with toReleaseItems := w.toReleaseItems ++ [r] }

def incrementReferenceCounter (r : ItemRef) : World :=
  { w with referenceCounter := Function.update w.referenceCounter r (w.referenceCounter r + 1) }

def decrementReferenceCounter (r : ItemRef) : World :=
  { w with referenceCounter := Function.update w.referenceCounter r (w.referenceCounter r - 1) }

/-- A new entry takes a reference. -/
def pushToDecay (r : ItemRef) : World :=
  let w := w.incrementReferenceCounter r
  { w with toDecayItems := r :: w.toDecayItems }

/-! ## Contents -/

/-- The container at a reference; an object of another class reads as an empty container that
takes nothing. -/
def container (r : ItemRef) : Container :=
  ((w.item r).getContainer).getD
    { kind := .container, maxSize := 0, itemlist := [], totalWeight := 0 }

def itemlist (r : ItemRef) : List ItemRef := (w.container r).itemlist

def isContainer (r : ItemRef) : Bool := (w.item r).getContainer.isSome

/-- The sub-containers of a container, in list order. -/
def subContainers (r : ItemRef) : List ItemRef := (w.itemlist r).filter w.isContainer

/-- The items that a `ContainerIterator` started at the container visits, in its order. -/
def holdingItems (r : ItemRef) : List ItemRef :=
  (Worklist.visited w.subContainers w.next [r]).flatMap w.itemlist

def isHoldingItem (r item : ItemRef) : Bool := (w.holdingItems r).contains item
def getItemHoldingCount (r : ItemRef) : Nat := (w.holdingItems r).length

/-! ## Parents -/

def parentOf : Cylinder → Option Cylinder
  | .container r => (w.item r).parent
  | .player p => some (.tile (w.player p).tile)
  | .tile _ => none

/-- More than the number of cylinders on any chain of parents. -/
def climbFuel : Nat := w.next + 3

/-- `dynamic_cast<Cylinder*>` of an item. Teleports, trash holders and mailboxes cannot be
picked up, so only containers are found where the cylinders look. -/
def asCylinder (r : ItemRef) : Option Cylinder :=
  if w.isContainer r then some (.container r) else none

def climbTop : Nat → Option Cylinder → Cylinder → Cylinder
  | 0, prevaux, aux => prevaux.getD aux
  | fuel + 1, prevaux, aux =>
    match w.parentOf aux with
    | none => prevaux.getD aux
    | some above => climbTop fuel (some aux) above

def getTopParent (r : ItemRef) : Option Cylinder :=
  match (w.item r).parent with
  | none => w.asCylinder r
  | some aux => some (w.climbTop w.climbFuel (w.asCylinder r) aux)

/-- The cylinders from a cylinder upwards, itself first. -/
def climb : Nat → Cylinder → List Cylinder
  | 0, c => [c]
  | fuel + 1, c =>
    match w.parentOf c with
    | none => [c]
    | some above => c :: climb fuel above

/-- The cylinders that the `while (cylinder)` loops visit from the parent of a cylinder on. -/
def parents (c : Cylinder) : List Cylinder :=
  match w.parentOf c with
  | none => []
  | some above => w.climb w.climbFuel above

/-- `Item::isRemoved`: the chain of parents does not end at a player or a tile. -/
def isRemoved (r : ItemRef) : Bool :=
  match (w.item r).parent with
  | none => true
  | some above => !(w.climb w.climbFuel above).any fun c =>
      match c with
      | .container _ => false
      | _ => true

def containerOf : Option Cylinder → Option ItemRef
  | some (.container above) => some above
  | _ => none

def getParentContainer (r : ItemRef) : Option ItemRef := containerOf (w.item r).parent

def climbContainers : Nat → ItemRef → List ItemRef
  | 0, _ => []
  | fuel + 1, r =>
    match w.getParentContainer r with
    | none => []
    | some above => above :: climbContainers fuel above

def containersAbove (r : ItemRef) : List ItemRef := w.climbContainers w.climbFuel r

def getTile (r : ItemRef) : Option Position :=
  let cylinder := w.getTopParent r
  let root :=
    match cylinder with
    | none => none
    | some c => some ((w.parentOf c).getD c)
  match root with
  | some (.tile pos) => some pos
  | _ => none

def nullPosition : Position := { x := 0xFFFF, y := 0xFFFF, z := 0xFF }

def getPosition (r : ItemRef) : Position := (w.getTile r).getD nullPosition

def canDecay (env : Env) (r : ItemRef) : Bool :=
  !w.isRemoved r && !decide ((w.item r).getDecayTo env.items < 0) &&
    (env.items.get (w.item r).id).decayTime != 0 && !(w.item r).hasAttribute .uniqueId

/-- `Item::clone`, with the copy at the next free reference. The clone of a decaying stack
enters `toDecayItems` by itself. -/
def cloneItem (env : Env) (r : ItemRef) : Option (ItemRef × World) :=
  ((w.item r).clone env.items w.next).map fun copy =>
    let w' := w.alloc copy
    (w.next, if (w.item r).attributes.isSome ∧ 0 < copy.getDuration then w'.pushToDecay w.next
      else w')

/-! ## Frames -/

section Frames

variable {w : World} {r x : ItemRef} {f : Item → Item} {g : Container → Container}
  {p : Option Cylinder}

@[simp] theorem modifyItem_item_self : (w.modifyItem r f).item r = f (w.item r) := by
  simp [modifyItem, setItem]

theorem modifyItem_item_ne (h : x ≠ r) : (w.modifyItem r f).item x = w.item x := by
  simp [modifyItem, setItem, h]

theorem modifyItem_item : (w.modifyItem r f).item x = if x = r then f (w.item x) else w.item x := by
  by_cases h : x = r
  · subst h
    simp
  · simp [modifyItem_item_ne h, h]

theorem modifyItem_proj {β : Type*} (proj : Item → β) (h : ∀ item, proj (f item) = proj item) :
    proj ((w.modifyItem r f).item x) = proj (w.item x) := by
  rw [modifyItem_item]
  split_ifs
  · exact h _
  · rfl

@[simp] theorem modifyItem_next : (w.modifyItem r f).next = w.next := rfl

@[simp] theorem setParent_next : (w.setParent r p).next = w.next := rfl

@[simp] theorem setParent_tile : (w.setParent r p).tile = w.tile := rfl

@[simp] theorem modifyContainer_next : (w.modifyContainer r g).next = w.next := rfl

@[simp] theorem setParent_parent :
    ((w.setParent r p).item x).parent = if x = r then p else (w.item x).parent := by
  rw [setParent, modifyItem_item]
  split_ifs <;> rfl

theorem setParent_proj {β : Type*} (proj : Item → β)
    (h : ∀ item, proj { item with parent := p } = proj item) :
    proj ((w.setParent r p).item x) = proj (w.item x) := modifyItem_proj proj h

@[simp] theorem setParent_cls : ((w.setParent r p).item x).cls = (w.item x).cls :=
  setParent_proj Item.cls fun _ => rfl

@[simp] theorem setParent_id : ((w.setParent r p).item x).id = (w.item x).id :=
  setParent_proj Item.id fun _ => rfl

@[simp] theorem setParent_count : ((w.setParent r p).item x).count = (w.item x).count :=
  setParent_proj Item.count fun _ => rfl

@[simp] theorem setParent_container : (w.setParent r p).container x = w.container x := by
  simp [container, Item.getContainer]

@[simp] theorem setParent_itemlist : (w.setParent r p).itemlist x = w.itemlist x := by
  simp [itemlist]

@[simp] theorem setParent_isContainer : (w.setParent r p).isContainer x = w.isContainer x := by
  simp [isContainer, Item.getContainer]

theorem modifyContainer_proj {β : Type*} (proj : Item → β)
    (h : ∀ item cls, proj { item with cls := cls } = proj item) :
    proj ((w.modifyContainer r g).item x) = proj (w.item x) := by
  apply modifyItem_proj
  intro item
  cases hcls : item.cls with
  | container c => exact h item _
  | _ => rfl

@[simp] theorem modifyContainer_parent :
    ((w.modifyContainer r g).item x).parent = (w.item x).parent :=
  modifyContainer_proj Item.parent fun _ _ => rfl

@[simp] theorem modifyContainer_id : ((w.modifyContainer r g).item x).id = (w.item x).id :=
  modifyContainer_proj Item.id fun _ _ => rfl

@[simp] theorem modifyContainer_count :
    ((w.modifyContainer r g).item x).count = (w.item x).count :=
  modifyContainer_proj Item.count fun _ _ => rfl

theorem modifyContainer_getContainer :
    ((w.modifyContainer r g).item x).getContainer =
      if x = r then ((w.item x).getContainer).map g else (w.item x).getContainer := by
  rw [modifyContainer, modifyItem_item]
  by_cases h : x = r
  · simp only [h, if_true, Item.getContainer]
    cases hcls : (w.item r).cls <;> simp [hcls]
  · simp [h]

@[simp] theorem modifyContainer_isContainer :
    (w.modifyContainer r g).isContainer x = w.isContainer x := by
  simp only [isContainer, modifyContainer_getContainer]
  split_ifs <;> simp

theorem modifyContainer_container_self (h : w.isContainer r = true) :
    (w.modifyContainer r g).container r = g (w.container r) := by
  obtain ⟨c, hc⟩ := Option.isSome_iff_exists.mp h
  simp [container, modifyContainer_getContainer, hc]

theorem modifyContainer_container_ne (h : x ≠ r) :
    (w.modifyContainer r g).container x = w.container x := by
  simp [container, modifyContainer_getContainer, h]

theorem container_of_not_isContainer (h : w.isContainer r = false) :
    w.container r = { kind := .container, maxSize := 0, itemlist := [], totalWeight := 0 } := by
  have : (w.item r).getContainer = none := by simpa [isContainer] using h
  simp [container, this]

theorem isContainer_of_mem (h : x ∈ w.itemlist r) : w.isContainer r = true := by
  by_contra hnot
  rw [itemlist, container_of_not_isContainer (by simpa using hnot)] at h
  cases h

theorem getWeight_eq (env : Env) (w : World) (r : ItemRef) :
    (w.item r).getWeight env.items =
      (w.item r).ownWeight env.items + (w.container r).totalWeight := by
  unfold Item.getWeight container Item.getContainer
  cases (w.item r).cls <;> simp

end Frames

end World

end Eloth
