import Eloth.Definitions

/-!
# Item types

The table `Item::items`. Only the columns that the modelled functions read are kept. The
loader guarantees that a stackable type is an ordinary item: it names itself, it is no
container, fixture or fluid, and `Item::CreateItem` does not rename it. It also knows no other
floor changes than those of `TileState.floorChange`.
-/

namespace Eloth

structure ItemType where
  group : ItemGroup
  type : ItemTypes
  id : Nat
  stackable : Bool
  weight : UInt32
  decayTime : Nat
  charges : Nat
  decayTo : Int
  worth : Nat
  maxItems : Nat
  slotPosition : Nat
  floorChange : List TileState
  alwaysOnTopOrder : Nat
  weaponType : WeaponType
  hasHeight : Bool
  blockSolid : Bool
  blockProjectile : Bool
  blockPathFind : Bool
  ignoreBlocking : Bool
  replaceable : Bool
  pickupable : Bool
  moveable : Bool
  alwaysOnTop : Bool
  isVertical : Bool
  isHorizontal : Bool
  isHangable : Bool
  stopTime : Bool

namespace ItemType

/-- The entry of an unused id, with the defaults of `items.h`. -/
def default : ItemType where
  group := .none
  type := .none
  id := 0
  stackable := false
  weight := 0
  decayTime := 0
  charges := 0
  decayTo := -1
  worth := 0
  maxItems := 8
  slotPosition := SLOTP_HAND
  floorChange := []
  alwaysOnTopOrder := 0
  weaponType := .none
  hasHeight := false
  blockSolid := false
  blockProjectile := false
  blockPathFind := false
  ignoreBlocking := false
  replaceable := true
  pickupable := false
  moveable := false
  alwaysOnTop := false
  isVertical := false
  isHorizontal := false
  isHangable := false
  stopTime := false

variable (it : ItemType)

def isGroundTile : Bool := it.group = .ground
def isContainer : Bool := it.group = .container
def isSplash : Bool := it.group = .splash
def isFluidContainer : Bool := it.group = .fluid
def isDoor : Bool := it.type = .door
def isMagicField : Bool := it.type = .magicField
def isTeleport : Bool := it.type = .teleport
def isDepot : Bool := it.type = .depot
def isMailbox : Bool := it.type = .mailbox
def isTrashHolder : Bool := it.type = .trashHolder
def isBed : Bool := it.type = .bed

def hasSubType : Bool :=
  it.isFluidContainer || it.isSplash || it.stackable || it.charges != 0

/-- The type makes `Item::CreateItem` build a plain `Item` object. -/
def isPlain : Bool :=
  it.group ≠ .deprecated ∧ it.group ≠ .container ∧ it.group ≠ .splash ∧ it.group ≠ .fluid ∧
    it.type ≠ .depot ∧ it.type ≠ .teleport ∧ it.type ≠ .magicField ∧ it.type ≠ .door ∧
    it.type ≠ .trashHolder ∧ it.type ≠ .mailbox ∧ it.type ≠ .bed

end ItemType

/-- The id under which `Item::CreateItem` builds a plain item: worn rings and boots lose their
equipped form. -/
def createdId (id : Nat) : Nat :=
  if 2210 ≤ id ∧ id ≤ 2212 then id - 3
  else if id = 2215 ∨ id = 2216 then id - 2
  else if 2202 ≤ id ∧ id ≤ 2206 then id - 37
  else if id = 2640 then 6132
  else if id = 6301 then 6300
  else id

/-- The item table with what the loader guarantees of its entries. -/
structure Items where
  get : Nat → ItemType
  stackable_id : ∀ id, (get id).stackable = true → id ≠ 0 ∧ (get id).id = id
  stackable_plain : ∀ id, (get id).stackable = true → (get id).isPlain = true
  stackable_created : ∀ id, (get id).stackable = true → createdId id = id
  floorChange_mem : ∀ id, ∀ f ∈ (get id).floorChange, f ∈ TileState.floorChange

end Eloth
