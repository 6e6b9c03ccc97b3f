import Mathlib.Data.UInt

/-!
# Enumerations shared by the store, the cylinders and the game

The return values, equipment slots, item attributes, item properties and tile states of the
server, together with the bit masks that callers pass to the cylinder queries.
-/

namespace Eloth

/-- `ReturnValue` of `enums.h`: the results that the modelled queries can give. -/
inductive ReturnValue where
  | noError | notPossible | notEnoughRoom | playerIsNotInvited | cannotThrow | notMoveable
  | dropTwoHandedItem | bothHandsNeedToBeFree | canOnlyUseOneWeapon | needExchange
  | cannotBeDressed | putThisObjectInYourHand | putThisObjectInBothHands
  | containerNotEnoughRoom | notEnoughCapacity | cannotPickup | thisIsImpossible | depotIsFull
  | notEnoughLevel | notEnoughMagicLevel | canOnlyUseOneShield | youNeedPremiumAccount
  | youDontHaveRequiredProfession
  deriving DecidableEq, Repr

/-! ## Cylinder flags and indices -/

/-- The internal index "add to an empty position, with no destination item". -/
def INDEX_WHEREEVER : Int := -1

def FLAG_NOLIMIT : Nat := 1
def FLAG_IGNOREBLOCKITEM : Nat := 2
def FLAG_IGNOREBLOCKCREATURE : Nat := 4
def FLAG_CHILDISOWNER : Nat := 8
def FLAG_PATHFINDING : Nat := 16
def FLAG_IGNOREFIELDDAMAGE : Nat := 32
def FLAG_IGNORENOTMOVEABLE : Nat := 64
def FLAG_IGNOREAUTOSTACK : Nat := 128

def hasBitSet (flag flags : Nat) : Bool := (flags &&& flag) != 0

/-- The bound on how often `Game::internalMoveItem` follows a destination query. -/
def MAP_MAX_LAYERS : Nat := 16

/-! ## Inventory slots -/

def CONST_SLOT_WHEREEVER : Nat := 0
def CONST_SLOT_HEAD : Nat := 1
def CONST_SLOT_NECKLACE : Nat := 2
def CONST_SLOT_BACKPACK : Nat := 3
def CONST_SLOT_ARMOR : Nat := 4
def CONST_SLOT_RIGHT : Nat := 5
def CONST_SLOT_LEFT : Nat := 6
def CONST_SLOT_LEGS : Nat := 7
def CONST_SLOT_FEET : Nat := 8
def CONST_SLOT_RING : Nat := 9
def CONST_SLOT_AMMO : Nat := 10

/-- The slots from `CONST_SLOT_FIRST` to `CONST_SLOT_LAST`, in the order the loops visit them. -/
def inventorySlots : List Nat := [1, 2, 3, 4, 5, 6, 7, 8, 9, 10]

theorem mem_inventorySlots {i : Nat} : i ∈ inventorySlots ↔ 1 ≤ i ∧ i ≤ 10 := by
  constructor
  · intro h
    simp only [inventorySlots, List.mem_cons, List.not_mem_nil, or_false] at h
    omega
  · rintro ⟨hlo, hhi⟩
    simp only [inventorySlots, List.mem_cons, List.not_mem_nil, or_false]
    omega

theorem inventorySlots_nodup : inventorySlots.Nodup := by decide

def SLOTP_HEAD : Nat := 1
def SLOTP_NECKLACE : Nat := 2
def SLOTP_BACKPACK : Nat := 4
def SLOTP_ARMOR : Nat := 8
def SLOTP_RIGHT : Nat := 16
def SLOTP_LEFT : Nat := 32
def SLOTP_LEGS : Nat := 64
def SLOTP_FEET : Nat := 128
def SLOTP_RING : Nat := 256
def SLOTP_AMMO : Nat := 512
def SLOTP_TWO_HAND : Nat := 2048
def SLOTP_HAND : Nat := 48

inductive WeaponType where
  | none | sword | club | axe | shield | distance | wand | ammo
  deriving DecidableEq, Repr

/-! ## Item groups, types, properties and attributes -/

/-- `itemgroup_t`, less the groups that the loader no longer accepts. -/
inductive ItemGroup where
  | none | ground | container | charges | splash | fluid | deprecated
  deriving DecidableEq, Repr

inductive ItemTypes where
  | none | depot | mailbox | trashHolder | container | door | magicField | teleport | bed | key
  | rune
  deriving DecidableEq, Repr

inductive ItemProperty where
  | blockSolid | hasHeight | blockProjectile | blockPath | isVertical | isHorizontal | moveable
  | immovableBlockSolid | immovableBlockPath | immovableNoFieldBlockPath | noFieldBlockPath
  | supportHangable
  deriving DecidableEq, Repr

/-- `itemAttrTypes`, one constructor for each bit. -/
inductive AttrType where
  | actionId | uniqueId | description | text | date | writer | name | article | pluralName
  | weight | attack | defense | extraDefense | armor | hitChance | shootRange | owner | duration
  | decayState | corpseOwner | charges | fluidType | doorId | decayTo | wrapId | storeItem
  | attackSpeed | custom
  deriving DecidableEq, Repr

def AttrType.all : List AttrType :=
  [.actionId, .uniqueId, .description, .text, .date, .writer, .name, .article, .pluralName,
    .weight, .attack, .defense, .extraDefense, .armor, .hitChance, .shootRange, .owner,
    .duration, .decayState, .corpseOwner, .charges, .fluidType, .doorId, .decayTo, .wrapId,
    .storeItem, .attackSpeed, .custom]

/-- `tileflags_t`, one constructor for each bit. -/
inductive TileState where
  | floorChangeDown | floorChangeNorth | floorChangeSouth | floorChangeEast | floorChangeWest
  | floorChangeSouthAlt | floorChangeEastAlt | protectionZone | noPvpZone | noLogout | pvpZone
  | teleport | magicField | mailbox | trashHolder | bed | depot | blockSolid | blockPath
  | immovableBlockSolid | immovableBlockPath | immovableNoFieldBlockPath | noFieldBlockPath
  | supportsHangable
  deriving DecidableEq, Repr

/-- The bits of the mask `TILESTATE_FLOORCHANGE`. -/
def TileState.floorChange : List TileState :=
  [.floorChangeDown, .floorChangeNorth, .floorChangeSouth, .floorChangeEast, .floorChangeWest,
    .floorChangeSouthAlt, .floorChangeEastAlt]

inductive TradeState where
  | none | initiated | accept | acknowledge | transfer
  deriving DecidableEq, Repr

end Eloth
