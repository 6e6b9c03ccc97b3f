import Eloth.Container

/-!
# Players as cylinders

The cylinder functions of `player.cpp`: equipment rules, capacity and the search for a place in
the inventory and its containers.
-/

namespace Eloth

namespace MoveEvents

def slotMask (slot : Int) : Nat :=
  if slot = CONST_SLOT_HEAD then SLOTP_HEAD
  else if slot = CONST_SLOT_NECKLACE then SLOTP_NECKLACE
  else if slot = CONST_SLOT_BACKPACK then SLOTP_BACKPACK
  else if slot = CONST_SLOT_ARMOR then SLOTP_ARMOR
  else if slot = CONST_SLOT_RIGHT then SLOTP_RIGHT
  else if slot = CONST_SLOT_LEFT then SLOTP_LEFT
  else if slot = CONST_SLOT_LEGS then SLOTP_LEGS
  else if slot = CONST_SLOT_FEET then SLOTP_FEET
  else if slot = CONST_SLOT_AMMO then SLOTP_AMMO
  else if slot = CONST_SLOT_RING then SLOTP_RING
  else 0

def getEvent (env : Env) (w : World) (item : ItemRef) (slot : Int) : Option MoveEvent :=
  (env.equipEvents (w.item item).id).find? fun event => event.slot &&& slotMask slot != 0

def equipItemCheck (w : World) (p : PlayerId) (event : MoveEvent) : ReturnValue :=
  let pl := w.player p
  if !pl.ignoreWeaponCheck && event.wieldInfo != 0 then
    if !event.vocEquipMap.isEmpty && !event.vocEquipMap.contains pl.vocation then
      .youDontHaveRequiredProfession
    else if pl.level < event.reqLevel then .notEnoughLevel
    else if pl.magicLevel < event.reqMagLevel then .notEnoughMagicLevel
    else if event.premium && !pl.isPremium then .youNeedPremiumAccount
    else .noError
  else .noError

def onPlayerEquipCheck (env : Env) (w : World) (p : PlayerId) (item : ItemRef) (slot : Int) :
    ReturnValue :=
  match getEvent env w item slot with
  | none => .noError
  | some event =>
    if event.scripted then
      if !event.equipFunction || equipItemCheck w p event = .noError then
        if env.executeEquip w p item slot then .noError else .cannotBeDressed
      else equipItemCheck w p event
    else equipItemCheck w p event

end MoveEvents

namespace Player

/-! ## Queries -/

def getThing (w : World) (p : PlayerId) (index : Int) : Option ItemRef := getInventoryItem w p index

def getThingIndex (w : World) (p : PlayerId) (item : ItemRef) : Int :=
  match inventorySlots.find? fun slot => (w.player p).inventory slot = some item with
  | some slot => slot
  | none => -1

/-- The result before the switch over the slots: what an item worn on the body, or held in the
hands, answers anywhere else. -/
def dressResult (env : Env) (slotPosition : Nat) : ReturnValue :=
  if hasBitSet SLOTP_HEAD slotPosition || hasBitSet SLOTP_NECKLACE slotPosition ||
      hasBitSet SLOTP_BACKPACK slotPosition || hasBitSet SLOTP_ARMOR slotPosition ||
      hasBitSet SLOTP_LEGS slotPosition || hasBitSet SLOTP_FEET slotPosition ||
      hasBitSet SLOTP_RING slotPosition then .cannotBeDressed
  else if hasBitSet SLOTP_TWO_HAND slotPosition then .putThisObjectInBothHands
  else if hasBitSet SLOTP_RIGHT slotPosition || hasBitSet SLOTP_LEFT slotPosition then
    if env.classicEquipmentSlots then .putThisObjectInYourHand else .cannotBeDressed
  else .noError

/-- The classic rules for one hand, given what the other hand holds. -/
def classicHandResult (env : Env) (w : World) (item : ItemRef) (count : Nat)
    (other : Option ItemRef) : ReturnValue :=
  let it := w.item item
  if hasBitSet SLOTP_TWO_HAND (it.getSlotPosition env.items) then
    if other.isSome ∧ other ≠ some item then .bothHandsNeedToBeFree else .noError
  else
    match other with
    | none => .noError
    | some o =>
      let type := it.getWeaponType env.items
      let otherType := (w.item o).getWeaponType env.items
      if hasBitSet SLOTP_TWO_HAND ((w.item o).getSlotPosition env.items) then .dropTwoHandedItem
      else if item = o ∧ count = it.getItemCount then .noError
      else if otherType = .shield ∧ type = .shield then .canOnlyUseOneShield
      else if otherType = .none ∨ type = .none ∨ otherType = .shield ∨ otherType = .ammo ∨
          type = .shield ∨ type = .ammo then .noError
      else .canOnlyUseOneWeapon

def rightHandResult (env : Env) (w : World) (p : PlayerId) (item : ItemRef) (count : Nat) :
    ReturnValue :=
  let slotPosition := (w.item item).getSlotPosition env.items
  let left := (w.player p).inventory CONST_SLOT_LEFT
  if env.classicEquipmentSlots then classicHandResult env w item count left
  else if (w.item item).getWeaponType env.items ≠ .shield then .cannotBeDressed
  else
    match left with
    | none => .noError
    | some leftItem =>
      if hasBitSet SLOTP_TWO_HAND ((w.item leftItem).getSlotPosition env.items ||| slotPosition)
      then .bothHandsNeedToBeFree
      else .noError

def leftHandResult (env : Env) (w : World) (p : PlayerId) (item : ItemRef) (count : Nat) :
    ReturnValue :=
  let slotPosition := (w.item item).getSlotPosition env.items
  let right := (w.player p).inventory CONST_SLOT_RIGHT
  let type := (w.item item).getWeaponType env.items
  if env.classicEquipmentSlots then classicHandResult env w item count right
  else if type = .none ∨ type = .shield then .cannotBeDressed
  else if right.isSome ∧ hasBitSet SLOTP_TWO_HAND slotPosition then .bothHandsNeedToBeFree
  else .noError

def slotResult (env : Env) (w : World) (p : PlayerId) (index : Int) (item : ItemRef)
    (count : Nat) : ReturnValue :=
  let slotPosition := (w.item item).getSlotPosition env.items
  let ret := dressResult env slotPosition
  let dressed := fun mask => if hasBitSet mask slotPosition then ReturnValue.noError else ret
  if index = CONST_SLOT_HEAD then dressed SLOTP_HEAD
  else if index = CONST_SLOT_NECKLACE then dressed SLOTP_NECKLACE
  else if index = CONST_SLOT_BACKPACK then dressed SLOTP_BACKPACK
  else if index = CONST_SLOT_ARMOR then dressed SLOTP_ARMOR
  else if index = CONST_SLOT_RIGHT then
    if hasBitSet SLOTP_RIGHT slotPosition then rightHandResult env w p item count else ret
  else if index = CONST_SLOT_LEFT then
    if hasBitSet SLOTP_LEFT slotPosition then leftHandResult env w p item count else ret
  else if index = CONST_SLOT_LEGS then dressed SLOTP_LEGS
  else if index = CONST_SLOT_FEET then dressed SLOTP_FEET
  else if index = CONST_SLOT_RING then dressed SLOTP_RING
  else if index = CONST_SLOT_AMMO then
    if hasBitSet SLOTP_AMMO slotPosition || env.classicEquipmentSlots then .noError else ret
  else if index = CONST_SLOT_WHEREEVER ∨ index = -1 then .notEnoughRoom
  else .notPossible

def isDepotChest (w : World) (r : ItemRef) : Bool :=
  match (w.container r).kind with
  | .depotChest _ => w.isContainer r
  | _ => false

/-- `Player::queryAdd`. The result of the equipment event replaces that of the switch, also
where the switch answered that there is no room. -/
def queryAdd (env : Env) (w : World) (p : PlayerId) (index : Int) (item : ItemRef)
    (count flags : Nat) : ReturnValue :=
  let it := w.item item
  if hasBitSet FLAG_CHILDISOWNER flags then
    if hasBitSet FLAG_NOLIMIT flags || hasCapacity env w p item count then .noError
    else .notEnoughCapacity
  else if !it.isPickupable env.items then .cannotPickup
  else
    let ret := slotResult env w p index item count
    if ret ≠ .noError ∧ ret ≠ .notEnoughRoom then ret
    else if !hasCapacity env w p item count then .notEnoughCapacity
    else
      let ret := MoveEvents.onPlayerEquipCheck env w p item index
      if ret ≠ .noError then ret
      else
        match getInventoryItem w p index with
        | none => ret
        | some inventoryItem =>
          if !(w.item inventoryItem).isStackable env.items ||
              (w.item inventoryItem).id != it.id then
            match w.getTopParent item with
            | some (.player _) => .needExchange
            | some (.container r) => if isDepotChest w r then .needExchange else .notEnoughRoom
            | _ => .notEnoughRoom
          else ret

def slotMaxCount (env : Env) (w : World) (p : PlayerId) (item : ItemRef) (flags slot : Nat) :
    Nat :=
  let it := w.item item
  match (w.player p).inventory slot with
  | some inventoryItem =>
    let inv := w.item inventoryItem
    if w.isContainer inventoryItem then
      (Container.queryMaxCount env w inventoryItem INDEX_WHEREEVER item it.getItemCount flags).2 +
        (((w.holdingItems inventoryItem).filter w.isContainer).map fun r =>
          (Container.queryMaxCount env w r INDEX_WHEREEVER item it.getItemCount flags).2).sum
    else if inv.isStackable env.items && it.equals inv && inv.getItemCount < 100 then
      let remainder := 100 - inv.getItemCount
      if queryAdd env w p slot item remainder flags = .noError then remainder else 0
    else 0
  | none =>
    if queryAdd env w p slot item it.getItemCount flags = .noError then
      if it.isStackable env.items then 100 else 1
    else 0

/-- `Player::queryMaxCount`: the result and `maxQueryCount`, which callers pass in as zero. -/
def queryMaxCount (env : Env) (w : World) (p : PlayerId) (index : Int) (item : ItemRef)
    (count flags : Nat) : ReturnValue × Nat :=
  let it := w.item item
  let answer := fun maxQueryCount =>
    (if maxQueryCount < count then ReturnValue.notEnoughRoom else .noError, maxQueryCount)
  if index = INDEX_WHEREEVER then
    answer ((inventorySlots.map (slotMaxCount env w p item flags)).sum % 2 ^ 32)
  else
    match getThing w p index with
    | some destItem =>
      let dest := w.item destItem
      answer (if dest.isStackable env.items && it.equals dest && dest.getItemCount < 100 then
        100 - dest.getItemCount else 0)
    | none =>
      if queryAdd env w p index item count flags = .noError then
        (.noError, if it.isStackable env.items then 100 else 1)
      else answer 0

def queryRemove (env : Env) (w : World) (p : PlayerId) (item : ItemRef) (count flags : Nat) :
    ReturnValue :=
  let it := w.item item
  if getThingIndex w p item = -1 then .notPossible
  else if count = 0 ∨ (it.isStackable env.items ∧ it.getItemCount < count) then .notPossible
  else if !it.isMoveable env.items && !hasBitSet FLAG_IGNORENOTMOVEABLE flags then .notMoveable
  else .noError

/-! ## The search for a place -/

def searchSlots (env : Env) (w : World) (p : PlayerId) (item : ItemRef) (flags : Nat) :
    List Nat → List ItemRef → Destination ⊕ List ItemRef
  | [], containers => .inr containers
  | slot :: slots, containers =>
    let it := w.item item
    let autoStack := !hasBitSet FLAG_IGNOREAUTOSTACK flags
    match (w.player p).inventory slot with
    | some inventoryItem =>
      if (w.trade p).tradeItem = some inventoryItem ∨ inventoryItem = item then
        searchSlots env w p item flags slots containers
      else if autoStack && it.isStackable env.items &&
          queryAdd env w p slot item it.getItemCount 0 = .noError &&
          (w.item inventoryItem).equals it && (w.item inventoryItem).getItemCount < 100 then
        .inl ⟨.player p, slot, some inventoryItem, flags⟩
      else if w.isContainer inventoryItem then
        searchSlots env w p item flags slots (containers ++ [inventoryItem])
      else searchSlots env w p item flags slots containers
    | none =>
      if queryAdd env w p slot item it.getItemCount flags = .noError then
        .inl ⟨.player p, slot, none, flags⟩
      else searchSlots env w p item flags slots containers

def searchable (w : World) (p : PlayerId) (item c : ItemRef) : List ItemRef :=
  (w.itemlist c).filter fun r => (w.trade p).tradeItem ≠ some r ∧ r ≠ item

def searchNext (env : Env) (w : World) (p : PlayerId) (item : ItemRef) (flags : Nat)
    (c : ItemRef) : List ItemRef :=
  if !hasBitSet FLAG_IGNOREAUTOSTACK flags && (w.item item).isStackable env.items then
    (searchable w p item c).filter w.isContainer
  else w.subContainers c

def searchContainer (env : Env) (w : World) (p : PlayerId) (item : ItemRef) (flags : Nat)
    (c : ItemRef) : Option Destination :=
  let it := w.item item
  let capacity := (w.container c).capacity
  if !hasBitSet FLAG_IGNOREAUTOSTACK flags && it.isStackable env.items then
    let entries := searchable w p item c
    let fits := fun r => (w.item r).equals it && (w.item r).getItemCount < 100
    match entries.findIdx? fits, entries.find? fits with
    | some n, some r => some ⟨.container c, n, some r, flags⟩
    | _, _ =>
      let n := entries.length
      if n < capacity ∧ Container.queryAdd env w c n item it.getItemCount flags = .noError then
        some ⟨.container c, n, none, flags⟩
      else none
  else
    let free := capacity - min capacity (w.container c).size
    ((List.range free).find? fun k =>
      Container.queryAdd env w c ((capacity - (free - k) : Nat) : Int) item it.getItemCount
        flags = .noError).map fun k => ⟨.container c, (capacity - (free - k) : Nat), none, flags⟩

def queryDestination (env : Env) (w : World) (p : PlayerId) (index : Int) (item : ItemRef)
    (destItem : Option ItemRef) (flags : Nat) : Destination :=
  if index = 0 ∨ index = INDEX_WHEREEVER then
    match searchSlots env w p item flags inventorySlots [] with
    | .inl destination => destination
    | .inr containers =>
      ((Worklist.visited (searchNext env w p item flags) w.next containers).findSome?
        (searchContainer env w p item flags)).getD ⟨.player p, index, none, flags⟩
  else
    let destThing := getThing w p index
    match destThing.bind w.asCylinder with
    | some sub => ⟨sub, INDEX_WHEREEVER, none, flags⟩
    | none => ⟨.player p, index, destThing.or destItem, flags⟩

/-! ## Changes -/

/-- `Player::addThing` with an index; the overload without one does nothing. -/
def addThing (w : World) (p : PlayerId) (index : Int) (item : ItemRef) : World :=
  if index < 1 ∨ 10 < index then w
  else (w.setParent item (some (.player p))).setSlot p index.toNat (some item)

def updateThing (env : Env) (w : World) (p : PlayerId) (item : ItemRef) (itemId count : Nat) :
    World :=
  if getThingIndex w p item = -1 then w
  else
    onUpdateInventoryItem
      (w.modifyItem item fun it => (it.setID env.items itemId).setSubType env.items count) p item
      item

def replaceThing (w : World) (p : PlayerId) (index : Int) (item : ItemRef) : World :=
  match getInventoryItem w p index with
  | none => w
  | some oldItem =>
    ((onUpdateInventoryItem w p oldItem item).setParent item (some (.player p))).setSlot p
      index.toNat (some item)

def removeThing (env : Env) (w : World) (p : PlayerId) (item : ItemRef) (count : Nat) : World :=
  let index := getThingIndex w p item
  if index = -1 then w
  else
    let it := w.item item
    if it.isStackable env.items ∧ count ≠ it.getItemCount then
      onUpdateInventoryItem
        (w.modifyItem item fun it =>
          it.setItemCount (Container.reducedCount it.getItemCount count)) p item item
    else ((onRemoveInventoryItem w p item).setParent item none).setSlot p index.toNat none

end Player

end Eloth
