import Mathlib.Logic.Function.Basic
import Eloth.ItemType

/-!
# Items

An item object: its type id, its count, its attributes, the class it was created with and the
cylinder that its parent pointer names. References stand for the object addresses of the
server.
-/

namespace Eloth

abbrev ItemRef := Nat
abbrev PlayerId := Nat

structure Position where
  x : Nat
  y : Nat
  z : Nat
  deriving DecidableEq, Repr

inductive Cylinder where
  | container (r : ItemRef)
  | player (p : PlayerId)
  | tile (pos : Position)
  deriving DecidableEq, Repr

/-- The value union of `ItemAttributes::Attribute`. Custom attributes live in a map of their
own, and the union holds its address. -/
inductive AttrValue where
  | integer (value : Int)
  | string (value : String)
  | custom (address : Nat)
  deriving DecidableEq, Repr

abbrev Attributes := AttrType → Option AttrValue

inductive ContainerKind where
  | container
  | depotLocker
  | depotChest (maxDepotItems : Nat)
  deriving DecidableEq, Repr

structure Container where
  kind : ContainerKind
  maxSize : Nat
  itemlist : List ItemRef
  totalWeight : UInt32

namespace Container

def size (c : Container) : Nat := c.itemlist.length
def capacity (c : Container) : Nat := c.maxSize
def empty (c : Container) : Bool := c.itemlist.isEmpty

end Container

/-- The class of an item object, which stays the same when its id changes. -/
inductive ItemClass where
  | item
  | houseTransfer
  | teleport
  | magicField
  | door
  | trashHolder
  | mailbox
  | bed (hasHouse : Bool)
  | container (c : Container)

structure Item where
  id : Nat
  count : Nat
  attributes : Option Attributes
  cls : ItemClass
  parent : Option Cylinder

def DECAYING_FALSE : Int := 0
def DECAYING_TRUE : Int := 1

def toInt32 (n : Nat) : Int :=
  if n % 2 ^ 32 < 2 ^ 31 then (n % 2 ^ 32 : Nat) else (n % 2 ^ 32 : Nat) - 2 ^ 32

namespace Item

/-! ## Attributes -/

def attr (item : Item) (type : AttrType) : Option AttrValue :=
  match item.attributes with
  | none => none
  | some attributes => attributes type

def hasAttribute (item : Item) (type : AttrType) : Bool := (item.attr type).isSome

def getIntAttr (item : Item) (type : AttrType) : Int :=
  match item.attr type with
  | some (.integer value) => value
  | _ => 0

def setAttr (item : Item) (type : AttrType) (value : AttrValue) : Item :=
  { item with
    attributes := some (Function.update (item.attributes.getD fun _ => none) type (some value)) }

def setIntAttr (item : Item) (type : AttrType) (value : Int) : Item :=
  item.setAttr type (.integer value)

def removeAttribute (item : Item) (type : AttrType) : Item :=
  { item with attributes := item.attributes.map fun a => Function.update a type none }

def setCharges (item : Item) (n : Nat) : Item := item.setIntAttr .charges (n % 2 ^ 16 : Nat)
def getCharges (item : Item) : Nat := (item.getIntAttr .charges % 2 ^ 16).toNat
def setFluidType (item : Item) (n : Nat) : Item := item.setIntAttr .fluidType (n % 2 ^ 16 : Nat)
def getFluidType (item : Item) : Nat := (item.getIntAttr .fluidType % 2 ^ 16).toNat
def setDuration (item : Item) (time : Nat) : Item := item.setIntAttr .duration (toInt32 time)
def getDuration (item : Item) : Nat := (item.getIntAttr .duration % 2 ^ 32).toNat

def decreaseDuration (item : Item) (time : Int) : Item :=
  item.setIntAttr .duration (item.getIntAttr .duration + -time)

def setDecaying (item : Item) (decayState : Int) : Item := item.setIntAttr .decayState decayState
def getDecaying (item : Item) : Int := item.getIntAttr .decayState

/-- `*this == other` on type and attributes, as the stacking rules use it. -/
def equals (item other : Item) : Bool :=
  item.id = other.id ∧ ∀ t ∈ AttrType.all, item.attr t = other.attr t

/-! ## Counts and subtypes -/

variable (items : Items)

def getItemCount (item : Item) : Nat := item.count
def setItemCount (item : Item) (n : Nat) : Item := { item with count := n % 2 ^ 8 }

section SetItemCount

variable (item : Item) (n : Nat)

@[simp] theorem setItemCount_id : (item.setItemCount n).id = item.id := rfl

@[simp] theorem setItemCount_cls : (item.setItemCount n).cls = item.cls := rfl

@[simp] theorem setItemCount_parent : (item.setItemCount n).parent = item.parent := rfl

@[simp] theorem setItemCount_attributes : (item.setItemCount n).attributes = item.attributes := rfl

end SetItemCount

def itemType (item : Item) : ItemType := items.get item.id
def isStackable (item : Item) : Bool := (items.get item.id).stackable
def isPickupable (item : Item) : Bool := (items.get item.id).pickupable
def isMoveable (item : Item) : Bool := (items.get item.id).moveable
def isHangable (item : Item) : Bool := (items.get item.id).isHangable
def isBlocking (item : Item) : Bool := (items.get item.id).blockSolid
def isAlwaysOnTop (item : Item) : Bool := (items.get item.id).alwaysOnTop
def isMagicField (item : Item) : Bool := (items.get item.id).isMagicField
def getSlotPosition (item : Item) : Nat := (items.get item.id).slotPosition
def getWeaponType (item : Item) : WeaponType := (items.get item.id).weaponType

def getDecayTo (item : Item) : Int :=
  if item.hasAttribute .decayTo then item.getIntAttr .decayTo else (items.get item.id).decayTo

def getSubType (item : Item) : Nat :=
  let it := items.get item.id
  if it.isFluidContainer || it.isSplash then item.getFluidType
  else if it.stackable then item.count
  else if it.charges ≠ 0 then item.getCharges
  else item.count

def setSubType (item : Item) (n : Nat) : Item :=
  let it := items.get item.id
  if it.isFluidContainer || it.isSplash then item.setFluidType n
  else if it.stackable then item.setItemCount n
  else if it.charges ≠ 0 then item.setCharges n
  else item.setItemCount n

def setDefaultSubtype (item : Item) : Item :=
  let it := items.get item.id
  let item := item.setItemCount 1
  if it.charges ≠ 0 then
    if it.stackable then item.setItemCount it.charges else item.setCharges it.charges
  else item

def getDefaultDuration (item : Item) : Nat := (items.get item.id).decayTime * 1000 % 2 ^ 32

def setDefaultDuration (item : Item) : Item :=
  if item.getDefaultDuration items ≠ 0 then item.setDuration (item.getDefaultDuration items)
  else item

/-- `Item::setID`: the decay attributes follow the new type. -/
def setID (item : Item) (newid : Nat) : Item :=
  let prevIt := items.get item.id
  let it := items.get newid
  let newDuration := it.decayTime * 1000 % 2 ^ 32
  let renamed : Item := { item with id := newid }
  let cleared :=
    if newDuration = 0 ∧ it.stopTime = false ∧ it.decayTo < 0 then
      (renamed.removeAttribute .decayState).removeAttribute .duration
    else renamed
  let unowned := cleared.removeAttribute .corpseOwner
  if 0 < newDuration ∧ (prevIt.stopTime = false ∨ unowned.hasAttribute .duration = false) then
    (unowned.setDecaying DECAYING_FALSE).setDuration newDuration
  else unowned

theorem setID_id (item : Item) (newid : Nat) : (item.setID items newid).id = newid := by
  unfold setID
  dsimp only
  split_ifs <;> rfl

theorem setSubType_id (item : Item) (n : Nat) : (item.setSubType items n).id = item.id := by
  unfold setSubType
  dsimp only
  split_ifs <;> rfl

theorem setSubType_setID_id (item : Item) (newid n : Nat) :
    ((item.setID items newid).setSubType items n).id = newid :=
  (setSubType_id items _ n).trans (setID_id items item newid)

theorem setDefaultSubtype_id (item : Item) : (item.setDefaultSubtype items).id = item.id := by
  unfold setDefaultSubtype
  dsimp only
  split_ifs <;> rfl

theorem setSubType_setID (item : Item) (newid n : Nat) :
    ((item.setID items newid).setSubType items n).cls = item.cls ∧
      ((item.setID items newid).setSubType items n).parent = item.parent := by
  unfold setSubType setID
  dsimp only
  constructor <;> split_ifs <;> rfl

/-! ## Weight, worth and properties -/

def getBaseWeight (item : Item) : UInt32 :=
  if item.hasAttribute .weight then UInt32.ofInt (item.getIntAttr .weight)
  else (items.get item.id).weight

/-- `Item::getWeight`, the weight of the object without its contents. -/
def ownWeight (item : Item) : UInt32 :=
  if item.isStackable items then
    item.getBaseWeight items * UInt32.ofNat (max 1 item.getItemCount)
  else item.getBaseWeight items

/-- `getWeight` as the class of the object overrides it. -/
def getWeight (item : Item) : UInt32 :=
  match item.cls with
  | .container c => item.ownWeight items + c.totalWeight
  | _ => item.ownWeight items

def getWorth (item : Item) : Nat := (items.get item.id).worth * item.count % 2 ^ 32

def hasProperty (item : Item) (prop : ItemProperty) : Bool :=
  let it := items.get item.id
  match prop with
  | .blockSolid => it.blockSolid
  | .moveable => it.moveable && !item.hasAttribute .uniqueId
  | .hasHeight => it.hasHeight
  | .blockProjectile => it.blockProjectile
  | .blockPath => it.blockPathFind
  | .isVertical => it.isVertical
  | .isHorizontal => it.isHorizontal
  | .immovableBlockSolid => it.blockSolid && (!it.moveable || item.hasAttribute .uniqueId)
  | .immovableBlockPath => it.blockPathFind && (!it.moveable || item.hasAttribute .uniqueId)
  | .immovableNoFieldBlockPath =>
    !it.isMagicField && it.blockPathFind && (!it.moveable || item.hasAttribute .uniqueId)
  | .noFieldBlockPath => !it.isMagicField && it.blockPathFind
  | .supportHangable => it.isHorizontal || it.isVertical

end Item

/-! ## Classes -/

namespace Item

def getContainer (item : Item) : Option Container :=
  match item.cls with
  | .container c => some c
  | _ => none

def isTeleportObject (item : Item) : Bool := item.cls matches .teleport
def isMagicFieldObject (item : Item) : Bool := item.cls matches .magicField
def isTrashHolderObject (item : Item) : Bool := item.cls matches .trashHolder
def isMailboxObject (item : Item) : Bool := item.cls matches .mailbox
def isBedObject (item : Item) : Bool := item.cls matches .bed _

def isDepotLocker (item : Item) : Bool :=
  match item.cls with
  | .container c => c.kind = .depotLocker
  | _ => false

def canRemove (item : Item) : Bool :=
  match item.cls with
  | .bed hasHouse => !hasHouse
  | .container c => c.kind = .container
  | _ => true

def canTransform (item : Item) : Bool :=
  match item.cls with
  | .houseTransfer => false
  | _ => true

/-! ## Construction -/

/-- `Item::Item(type, count)`, not yet placed anywhere. -/
def new (items : Items) (type count : Nat) (cls : ItemClass) : Item :=
  let it := items.get type
  let base : Item := { id := type, count := 1, attributes := none, cls := cls, parent := none }
  let counted :=
    if it.isFluidContainer || it.isSplash then base.setFluidType count
    else if it.stackable then
      if count ≠ 0 then base.setItemCount count
      else if it.charges ≠ 0 then base.setItemCount it.charges
      else base
    else if it.charges ≠ 0 then
      if count ≠ 0 then base.setCharges count else base.setCharges it.charges
    else base
  counted.setDefaultDuration items

def emptyContainer (kind : ContainerKind) (maxSize : Nat) : ItemClass :=
  .container { kind := kind, maxSize := maxSize, itemlist := [], totalWeight := 0 }

def CreateItem (items : Items) (type count : Nat) : Option Item :=
  let it := items.get type
  if it.group = .deprecated then none
  else
    let count := if it.stackable ∧ count = 0 then 1 else count
    if it.id = 0 then none
    else if it.isDepot then some (new items type 0 (emptyContainer .depotLocker 30))
    else if it.isContainer then some (new items type 0 (emptyContainer .container it.maxItems))
    else if it.isTeleport then some (new items type 0 .teleport)
    else if it.isMagicField then some (new items type 0 .magicField)
    else if it.isDoor then some (new items type 0 .door)
    else if it.isTrashHolder then some (new items type 0 .trashHolder)
    else if it.isMailbox then some (new items type 0 .mailbox)
    else if it.isBed then
      some ((new items type 0 (.bed false)).setAttr .description
        (.string "Nobody is sleeping there."))
    else some (new items (createdId type) count .item)

theorem CreateItem_of_stackable {items : Items} {type count : Nat}
    (h : (items.get type).stackable = true) : CreateItem items type count =
      some (new items type (if count = 0 then 1 else count) .item) := by
  have hplain := items.stackable_plain type h
  have hcreated := items.stackable_created type h
  have hid := items.stackable_id type h
  simp only [ItemType.isPlain, decide_eq_true_eq] at hplain
  simp [CreateItem, ItemType.isDepot, ItemType.isContainer, ItemType.isTeleport,
    ItemType.isMagicField, ItemType.isDoor, ItemType.isTrashHolder, ItemType.isMailbox,
    ItemType.isBed, hplain, hid.1, hid.2, hcreated, h]

def copyValue (address : Nat) : AttrValue → AttrValue
  | .custom _ => .custom address
  | value => value

/-- `Item::clone` up to the entry in `toDecayItems`; `address` is that of the copy. -/
def clone (items : Items) (item : Item) (address : Nat) : Option Item :=
  (CreateItem items item.id item.count).map fun copy =>
    match item.attributes with
    | none => copy
    | some attributes =>
      let copy := { copy with attributes := some fun t => (attributes t).map (copyValue address) }
      if 0 < copy.getDuration then copy.setDecaying DECAYING_TRUE else copy

theorem new_id (items : Items) (type count : Nat) (cls : ItemClass) :
    (new items type count cls).id = type := by
  unfold new setDefaultDuration
  dsimp only
  split_ifs <;> rfl

theorem clone_id {items : Items} {it copy : Item} {address : Nat}
    (hstack : it.isStackable items = true) (h : it.clone items address = some copy) :
    copy.id = it.id := by
  obtain ⟨made, hmade, rfl⟩ := Option.map_eq_some_iff.mp h
  have hmadeid : made.id = it.id := by
    rw [CreateItem_of_stackable hstack] at hmade
    rw [← Option.some.inj hmade, new_id]
  split
  · exact hmadeid
  · dsimp only
    split_ifs <;> exact hmadeid

end Item

end Eloth
