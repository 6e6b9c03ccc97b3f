import Eloth.Modifiers
import Eloth.Player

/-!
# Equipment

`MoveEvent::EquipItem` and `MoveEvent::DeEquipItem`, with the transformations of items in the
inventory that they start and that start them again. The chain of these calls is cut after the
given number of steps.
-/

namespace Eloth

/-- What an item adds to the player that wears it. -/
structure Abilities where
  conditionSuppressions : BitVec 32 := 0
  stats : Fin 4 → Int32 := fun _ => 0
  statsPercent : Fin 4 → Int32 := fun _ => 0
  skills : Fin 7 → Int32 := fun _ => 0
  specialSkills : Fin 6 → Int32 := fun _ => 0
  speed : Int32 := 0

/-- The tables of item types and of movement events. `percentOf` is the product of a default stat
and `(percent - 100) / 100.f`, cut to an integer. -/
structure EquipEnv where
  items : Items
  abilities : Nat → Option Abilities
  transformEquipTo : Nat → Nat
  transformDeEquipTo : Nat → Nat
  equipEvents : Nat → List MoveEvent
  deEquipEvents : Nat → List MoveEvent
  percentOf : Int32 → Int32 → Int32

/-- A player and its inventory. An item that is in no slot lies elsewhere, and what becomes of it
there does not matter to the player. -/
structure PlayerEquipment where
  modifiers : PlayerModifiers
  varSpeed : Int32
  conditionSuppressions : BitVec 32
  magLevel : Int32
  level : Nat
  vocation : Nat
  isPremium : Bool
  ignoreWeaponCheck : Bool
  inventory : Nat → Option ItemRef
  inventoryAbilities : Nat → Bool
  item : ItemRef → Item
  next : ItemRef

/-- What `transformItem` does with an item in the inventory. -/
inductive TransformBranch where
  | keep
  | readd
  | internalRemoveItem
  | updateThing (newCount : Int)
  | replaceThing (newItem : Item)

/-- The branches of `Game::transformItem`, with -1 for a count that is not given. -/
def transformBranchAux (types : Items) (again : TransformBranch) (it : Item) (newId : Nat)
    (newCount : Int) : TransformBranch :=
  let curType := types.get it.id
  let newType := types.get newId
  if it.id = newId ∧ (newCount = -1 ∨ (newCount = it.getSubType types ∧ newCount ≠ 0)) then .keep
  else if !it.canTransform then .keep
  else if newType.id = 0 then .keep
  else if curType.alwaysOnTop ≠ newType.alwaysOnTop then .readd
  else if curType.type = newType.type then
    if newCount = 0 ∧ (it.isStackable types ∨ it.hasAttribute .charges) then
      if it.isStackable types then .internalRemoveItem
      else
        let newItemId : Int := if curType.id = newType.id then it.getDecayTo types else newId
        if newItemId < 0 then .internalRemoveItem
        else if newItemId ≠ newId then
          match Item.CreateItem types newItemId.toNat 1 with
          | some newItem => .replaceThing newItem
          | none => .keep
        else again
    else .updateThing newCount
  else
    match Item.CreateItem types newId (if newCount = -1 then 0 else newCount.toNat) with
    | some newItem => .replaceThing newItem
    | none => .keep

/-- The recursive call is made without a count, and such a call makes no further one. -/
def transformBranch (types : Items) (it : Item) (newId : Nat) (newCount : Int) :
    TransformBranch :=
  transformBranchAux types (transformBranchAux types .keep it newId (-1)) it newId newCount

/-- A script may stand alone, without one of the functions for equipment. -/
def MoveEvent.calls (event : MoveEvent) : Bool := !event.scripted || event.equipFunction

namespace PlayerEquipment

/-- `Game::transformItem` without a count. -/
abbrev Transformer := PlayerEquipment → ItemRef → Nat → Option PlayerEquipment

variable (env : EquipEnv) (transform : Transformer) (p : PlayerEquipment)

/-! ## Abilities -/

def getDefaultStats (stat : Fin 4) : Int32 :=
  if stat = STAT_MAXHITPOINTS then p.modifiers.healthMax
  else if stat = STAT_MAXMANAPOINTS then p.modifiers.manaMax
  else if stat = STAT_MAGICPOINTS then p.magLevel
  else 0

def getMagicLevel : Nat := (max 0 (p.magLevel + p.modifiers.varStats STAT_MAGICPOINTS)).toInt.toNat

def setItemAbility (slot : Nat) (enabled : Bool) : PlayerEquipment :=
  { p with inventoryAbilities := Function.update p.inventoryAbilities slot enabled }

/-- The two changes of a stat that an item makes. -/
def setVarStats (sign : Int32 → Int32) (it : Abilities) (stat : Fin 4) : PlayerEquipment :=
  let modifiers :=
    if it.stats stat ≠ 0 then p.modifiers.setVarStats stat (sign (it.stats stat))
    else p.modifiers
  let percent := env.percentOf (p.getDefaultStats stat) (it.statsPercent stat)
  { p with
    modifiers :=
      if it.statsPercent stat ≠ 0 then modifiers.setVarStats stat (sign percent) else modifiers }

/-- Speed, skills and stats, which an item adds when it is put on, and takes off again. -/
def changeModifiers (sign : Int32 → Int32) (it : Abilities) : PlayerEquipment :=
  let p := { p with
    varSpeed := p.varSpeed + sign it.speed
    modifiers := p.modifiers.updateSkills
      { skills := fun i => sign (it.skills i), specialSkills := fun i => sign (it.specialSkills i) } }
  (List.finRange 4).foldl (fun p stat => p.setVarStats env sign it stat) p

def addConditionSuppressions (conditions : BitVec 32) : PlayerEquipment :=
  { p with conditionSuppressions := p.conditionSuppressions ||| conditions }

def removeConditionSuppressions (conditions : BitVec 32) : PlayerEquipment :=
  { p with conditionSuppressions := p.conditionSuppressions &&& ~~~conditions }

def addAbilities : Option Abilities → PlayerEquipment
  | none => p
  | some it => (p.addConditionSuppressions it.conditionSuppressions).changeModifiers env id it

def removeAbilities : Option Abilities → PlayerEquipment
  | none => p
  | some it => (p.removeConditionSuppressions it.conditionSuppressions).changeModifiers env (-·) it

/-! ## Movement events -/

def getEvent (events : Nat → List MoveEvent) (id slot : Nat) : Option MoveEvent :=
  (events id).find? fun event => event.slot &&& MoveEvents.slotMask slot != 0

def equipItemCheck (event : MoveEvent) : ReturnValue :=
  if !p.ignoreWeaponCheck && event.wieldInfo != 0 then
    if !event.vocEquipMap.isEmpty && !event.vocEquipMap.contains p.vocation then
      .youDontHaveRequiredProfession
    else if p.level < event.reqLevel then .notEnoughLevel
    else if p.getMagicLevel < event.reqMagLevel then .notEnoughMagicLevel
    else if event.premium && !p.isPremium then .youNeedPremiumAccount
    else .noError
  else .noError

/-- `MoveEvent::EquipItem` when it is no check. -/
def equipItem (event : MoveEvent) (r : ItemRef) (slot : Nat) : Option PlayerEquipment :=
  if p.equipItemCheck event ≠ .noError then some p
  else if p.inventoryAbilities slot then some p
  else
    let id := (p.item r).id
    let p :=
      if env.transformEquipTo id ≠ 0 then transform p r (env.transformEquipTo id)
      else some (p.setItemAbility slot true)
    p.map fun p => p.addAbilities env (env.abilities id)

/-- `MoveEvent::DeEquipItem`. -/
def deEquipItem (r : ItemRef) (slot : Nat) : Option PlayerEquipment :=
  if !p.inventoryAbilities slot then some p
  else
    let id := (p.item r).id
    let p := p.setItemAbility slot false
    let p :=
      if env.transformDeEquipTo id ≠ 0 then transform p r (env.transformDeEquipTo id) else some p
    p.map fun p => p.removeAbilities env (env.abilities id)

/-- The event of an item calls its function. -/
def fires (events : Nat → List MoveEvent) (id slot : Nat) : Bool :=
  (getEvent events id slot).any MoveEvent.calls

def onPlayerEquip (r : ItemRef) (slot : Nat) : Option PlayerEquipment :=
  match getEvent env.equipEvents (p.item r).id slot with
  | none => some p
  | some event => if event.calls then p.equipItem env transform event r slot else some p

def onPlayerDeEquip (r : ItemRef) (slot : Nat) : Option PlayerEquipment :=
  match getEvent env.deEquipEvents (p.item r).id slot with
  | none => some p
  | some event => if event.calls then p.deEquipItem env transform r slot else some p

/-! ## The inventory -/

def getThingIndex (r : ItemRef) : Option Nat :=
  inventorySlots.find? fun slot => p.inventory slot = some r

def setInventory (slot : Nat) (r : Option ItemRef) : PlayerEquipment :=
  { p with inventory := Function.update p.inventory slot r }

def setItem (r : ItemRef) (it : Item) : PlayerEquipment :=
  { p with item := Function.update p.item r it }

def alloc (it : Item) : PlayerEquipment := { p.setItem p.next it with next := p.next + 1 }

/-- `Player::updateThing` with the id and the subtype that `transformItem` has found. The id is
read after the item was taken off. -/
def updateThing (r : ItemRef) (curId newId : Nat) (newCount : Int) : PlayerEquipment :=
  let curType := env.items.get curId
  let newType := env.items.get newId
  let it := p.item r
  let itemId := if curType.id ≠ newType.id then newId else it.id
  let count :=
    if newCount ≠ -1 ∧ newType.hasSubType then newCount.toNat else it.getSubType env.items
  let it :=
    if curType.id ≠ newType.id ∧ newType.group ≠ curType.group then it.setDefaultSubtype env.items
    else it
  match p.getThingIndex r with
  | none => p.setItem r it
  | some _ => p.setItem r ((it.setID env.items itemId).setSubType env.items count)

/-- An item leaves its slot for another place. -/
def removeThing (r : ItemRef) (slot : Nat) : Option PlayerEquipment :=
  (p.setInventory slot none).onPlayerDeEquip env transform r slot

def internalRemoveItem (r : ItemRef) (slot : Nat) : Option PlayerEquipment :=
  if (p.item r).getItemCount = 0 ∨ !(p.item r).canRemove then some p
  else p.removeThing env transform r slot

/-- A top item cannot be added to an inventory again, and is lost. -/
def transformItemAux (r : ItemRef) (newId : Nat) (newCount : Int) : Option PlayerEquipment :=
  match p.getThingIndex r with
  | none => some p
  | some slot =>
    match transformBranch env.items (p.item r) newId newCount with
    | .keep => some p
    | .readd => p.removeThing env transform r slot
    | .internalRemoveItem => p.internalRemoveItem env transform r slot
    | .updateThing count =>
      (p.onPlayerDeEquip env transform r slot).bind fun p' =>
        (p'.updateThing env r (p.item r).id newId count).onPlayerEquip env transform r slot
    | .replaceThing newItem =>
      let p' := (p.alloc newItem).setInventory slot (some p.next)
      (p'.onPlayerEquip env transform p.next slot).bind fun p' =>
        p'.onPlayerDeEquip env transform r slot

def transformItem : Nat → PlayerEquipment → ItemRef → Nat → Int → Option PlayerEquipment
  | 0, _, _, _, _ => none
  | fuel + 1, p, r, newId, newCount =>
    p.transformItemAux env (fun p r newId => transformItem fuel p r newId (-1)) r newId newCount

/-- The calls that `EquipItem` and `DeEquipItem` make. -/
def transformer (fuel : Nat) : Transformer := fun p r newId => p.transformItem env fuel r newId (-1)

/-! ## Runs -/

/-- An item arrives from elsewhere or leaves for elsewhere as a whole. Otherwise a part of a stack
arrives or leaves, and all that happens is that the event is called. -/
inductive Op where
  | onPlayerEquip (slot : Nat)
  | onPlayerDeEquip (slot : Nat)
  | addThing (slot : Nat) (it : Item)
  | removeThing (slot : Nat)
  | internalMoveItem (fromSlot toSlot : Nat)
  | transformItem (slot newId : Nat) (newCount : Int)
  | changeStats (healthMax manaMax magLevel : Int32) (level : Nat)

/-- The item has been moved, and both cylinders are notified. -/
def notifyMove (r : ItemRef) (fromSlot : Nat) : Option PlayerEquipment :=
  (p.onPlayerDeEquip env transform r fromSlot).bind fun p =>
    match p.getThingIndex r with
    | none => some p
    | some slot => p.onPlayerEquip env transform r slot

def changeStats (healthMax manaMax magLevel : Int32) (level : Nat) : PlayerEquipment :=
  { p with modifiers := { p.modifiers with healthMax, manaMax }, magLevel, level }

def apply (fuel : Nat) : Op → Option PlayerEquipment
  | .onPlayerEquip slot => do
    p.onPlayerEquip env (transformer env fuel) (← p.inventory slot) slot
  | .onPlayerDeEquip slot => do
    p.onPlayerDeEquip env (transformer env fuel) (← p.inventory slot) slot
  | .addThing slot it =>
    if slot ∈ inventorySlots ∧ p.inventory slot = none then
      ((p.alloc it).setInventory slot (some p.next)).onPlayerEquip env (transformer env fuel)
        p.next slot
    else none
  | .removeThing slot => do
    p.removeThing env (transformer env fuel) (← p.inventory slot) slot
  | .internalMoveItem fromSlot toSlot => do
    let r ← p.inventory fromSlot
    if toSlot ∈ inventorySlots ∧ p.inventory toSlot = none then
      ((p.setInventory fromSlot none).setInventory toSlot (some r)).notifyMove env
        (transformer env fuel) r fromSlot
    else none
  | .transformItem slot newId newCount => do
    p.transformItem env fuel (← p.inventory slot) newId newCount
  | .changeStats healthMax manaMax magLevel level =>
    some (p.changeStats healthMax manaMax magLevel level)

/-- A player comes with items in its slots, none of which has been equipped. -/
structure Fresh : Prop where
  varSkills : ∀ i, p.modifiers.varSkills i = 0
  varSpecialSkills : ∀ i, p.modifiers.varSpecialSkills i = 0
  varStats : ∀ i, p.modifiers.varStats i = 0
  varSpeed : p.varSpeed = 0
  conditionSuppressions : p.conditionSuppressions = 0
  inventoryAbilities : ∀ slot, p.inventoryAbilities slot = false
  inSlots : ∀ slot r, p.inventory slot = some r → slot ∈ inventorySlots ∧ r < p.next
  distinct : ∀ slot slot' r, p.inventory slot = some r → p.inventory slot' = some r → slot = slot'

def system (fuel : Nat) : Run.System PlayerEquipment Op where
  init := Fresh
  step p op p' := p.apply env fuel op = some p'

/-! ## What the equipment contributes -/

/-- The modifiers of a player. -/
inductive Modifier where
  | skill (i : Fin 7)
  | specialSkill (i : Fin 6)
  | stat (i : Fin 4)
  | speed

def var : Modifier → Int32
  | .skill i => p.modifiers.varSkills i
  | .specialSkill i => p.modifiers.varSpecialSkills i
  | .stat i => p.modifiers.varStats i
  | .speed => p.varSpeed

/-- What an item adds to a modifier. -/
def value (stats : Fin 4 → Int32) (it : Abilities) : Modifier → Int32
  | .skill i => it.skills i
  | .specialSkill i => it.specialSkills i
  | .stat i =>
    it.stats i + if it.statsPercent i ≠ 0 then env.percentOf (stats i) (it.statsPercent i) else 0
  | .speed => it.speed

def ability (stats : Fin 4 → Int32) (m : Modifier) (id : Nat) : Int32 :=
  match env.abilities id with
  | none => 0
  | some it => value env stats it m

def suppressions (id : Nat) : BitVec 32 :=
  match env.abilities id with
  | none => 0
  | some it => it.conditionSuppressions

/-- The type of the item in a slot that is enabled. -/
def enabledId (slot : Nat) : Option Nat :=
  if p.inventoryAbilities slot then (p.inventory slot).map fun r => (p.item r).id else none

/-- The sum over the slots. -/
def total (value : Nat → Int32) : Int32 := inventorySlots.foldr (fun slot sum => value slot + sum) 0

def contribution (m : Modifier) (slot : Nat) : Int32 :=
  match p.enabledId slot with
  | none => 0
  | some id => ability env p.getDefaultStats m id

def Suppresses (bit : Nat) : Prop :=
  ∃ slot id, p.enabledId slot = some id ∧ (suppressions env id).getLsbD bit = true

/-- Every modifier is the sum of what the items in the enabled slots add, and the suppressed
conditions are those that one of them suppresses. -/
structure Lawful : Prop where
  var_eq : ∀ m, p.var m = total (p.contribution env m)
  suppressions_iff : ∀ bit, p.conditionSuppressions.getLsbD bit = true ↔ p.Suppresses env bit

end PlayerEquipment

end Eloth
