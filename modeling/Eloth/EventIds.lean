import Eloth.Lib.HandOut
import Eloth.Map
import Eloth.Texts

/-!
# Events of several ids

`MoveEvents::registerEvent` and `Actions::registerEvent` give an event to every id of a list. The
event is moved into the map each time, and a moved string, container or function is empty.
-/

namespace Eloth

/-- The attributes whose value is a list of ids. -/
inductive IdAttribute where
  | itemid | uniqueid | actionid
  deriving DecidableEq

/-- `';'`. -/
abbrev SEMICOLON : UInt8 := 59

/-! ## Move events -/

inductive MoveEventType where
  | STEP_IN | STEP_OUT | EQUIP | DEEQUIP | ADD_ITEM | REMOVE_ITEM | ADD_ITEM_ITEMTILE
  | REMOVE_ITEM_ITEMTILE
  deriving DecidableEq

inductive StepFunction where
  | StepInField | StepOutField
  deriving DecidableEq

inductive MoveFunction where
  | AddItemField | RemoveItemField
  deriving DecidableEq

inductive EquipFunction where
  | EquipItem | DeEquipItem
  deriving DecidableEq

structure LoadedMoveEvent where
  scripted : Bool := false
  fromLua : Bool := false
  scriptId : Int32 := 0
  eventType : MoveEventType
  stepFunction : Option StepFunction := none
  moveFunction : Option MoveFunction := none
  equipFunction : Option EquipFunction := none
  slot : UInt32 := 0xFFFFFFFF
  reqLevel : UInt32 := 0
  reqMagLevel : UInt32 := 0
  premium : Bool := false
  vocationString : List UInt8 := []
  wieldInfo : UInt32 := 0
  vocEquipMap : List (UInt16 × Bool) := []
  tileItem : Bool := false
  itemIdRange : List UInt32 := []
  actionIdRange : List UInt32 := []
  uniqueIdRange : List UInt32 := []
  posList : List MapPosition := []
  deriving DecidableEq

/-- What an item type knows of its equip event. -/
structure WieldedType where
  wieldInfo : UInt32
  minReqLevel : UInt32
  minReqMagicLevel : UInt32
  vocationString : List UInt8
  deriving DecidableEq

namespace LoadedMoveEvent

variable (self : LoadedMoveEvent)

/-- What a move leaves of the event. -/
def moved : LoadedMoveEvent :=
  { self with
    stepFunction := none, moveFunction := none, equipFunction := none
    vocationString := [], vocEquipMap := []
    itemIdRange := [], actionIdRange := [], uniqueIdRange := [], posList := [] }

/-- Nothing that a move would take. -/
structure Bare (event : LoadedMoveEvent) : Prop where
  stepFunction : event.stepFunction = none
  moveFunction : event.moveFunction = none
  equipFunction : event.equipFunction = none
  vocationString : event.vocationString = []
  vocEquipMap : event.vocEquipMap = []
  itemIdRange : event.itemIdRange = []
  actionIdRange : event.actionIdRange = []
  uniqueIdRange : event.uniqueIdRange = []
  posList : event.posList = []

/-- The change of the type at the beginning of `registerEvent`. -/
def withTileItem (tileItem : Bool) : LoadedMoveEvent :=
  if tileItem then
    match self.eventType with
    | .ADD_ITEM => { self with eventType := .ADD_ITEM_ITEMTILE }
    | .REMOVE_ITEM => { self with eventType := .REMOVE_ITEM_ITEMTILE }
    | _ => self
  else self

def wielded : WieldedType where
  wieldInfo := self.wieldInfo
  minReqLevel := self.reqLevel
  minReqMagicLevel := self.reqMagLevel
  vocationString := self.vocationString

theorem moved_eq_iff : self.moved = self ↔ self.Bare := by
  constructor
  · intro h
    rw [← h]
    exact ⟨rfl, rfl, rfl, rfl, rfl, rfl, rfl, rfl, rfl⟩
  · intro h
    cases self with
    | mk =>
      obtain ⟨h₁, h₂, h₃, h₄, h₅, h₆, h₇, h₈, h₉⟩ := h
      dsimp only at h₁ h₂ h₃ h₄ h₅ h₆ h₇ h₈ h₉
      subst h₁ h₂ h₃ h₄ h₅ h₆ h₇ h₈ h₉
      rfl

end LoadedMoveEvent

abbrev MoveEventList := MoveEventType → List LoadedMoveEvent

abbrev MoveListMap := Int32 → Option MoveEventList

structure MoveEvents where
  itemIdMap : MoveListMap
  uniqueIdMap : MoveListMap
  actionIdMap : MoveListMap
  /-- The item types, of which there is one at least. -/
  items : List WieldedType
  items_pos : 0 < items.length

/-- The place of an item type, or the first one. -/
def itemTypeIndex (size : Nat) (id : Int32) : Nat :=
  if 0 ≤ id.toInt ∧ id.toInt < size then id.toInt.toNat else 0

/-- `MoveEvents::addEvent`. -/
def addEvent (moveEvent : LoadedMoveEvent) (id : Int32) (map : MoveListMap) : MoveListMap :=
  match map id with
  | none =>
    Function.update map id
      (some (Function.update (fun _ => []) moveEvent.eventType [moveEvent]))
  | some moveEventList =>
    Function.update map id
      (some (Function.update moveEventList moveEvent.eventType
        (moveEventList moveEvent.eventType ++ [moveEvent])))

/-- The loop over the ids. -/
def addEvents : List Int32 → LoadedMoveEvent → MoveListMap → MoveListMap
  | [], _, map => map
  | id :: ids, moveEvent, map => addEvents ids moveEvent.moved (addEvent moveEvent id map)

/-- What the loop over item ids writes to the item types of an equip event. -/
def wieldItems : List Int32 → LoadedMoveEvent → List WieldedType → List WieldedType
  | [], _, items => items
  | id :: ids, moveEvent, items =>
    wieldItems ids moveEvent.moved
      (if moveEvent.eventType = .EQUIP then
        items.set (itemTypeIndex items.length id) moveEvent.wielded
      else items)

theorem length_wieldItems {ids : List Int32} {moveEvent : LoadedMoveEvent}
    {items : List WieldedType} :
    (wieldItems ids moveEvent items).length = items.length := by
  induction ids generalizing moveEvent items with
  | nil => rfl
  | cons id ids ih =>
    rw [wieldItems, ih]
    split_ifs
    · exact List.length_set
    · rfl

namespace MoveEvents

variable (self : MoveEvents)

def idMap : IdAttribute → MoveListMap
  | .itemid => self.itemIdMap
  | .uniqueid => self.uniqueIdMap
  | .actionid => self.actionIdMap

/-- Nothing when an id is no number. -/
def registerEvent (moveEvent : LoadedMoveEvent) (tileItem : Bool) (attr : IdAttribute)
    (value : List UInt8) : Option MoveEvents :=
  let moveEvent := moveEvent.withTileItem tileItem
  (vectorAtoi (explodeString value SEMICOLON)).map fun ids =>
    match attr with
    | .itemid =>
      { self with
        itemIdMap := addEvents ids moveEvent self.itemIdMap
        items := wieldItems ids moveEvent self.items
        items_pos := by
          rw [length_wieldItems]
          exact self.items_pos }
    | .uniqueid => { self with uniqueIdMap := addEvents ids moveEvent self.uniqueIdMap }
    | .actionid => { self with actionIdMap := addEvents ids moveEvent self.actionIdMap }

end MoveEvents

/-! ## Actions -/

/-- A function object; none is ever given to an action of a file. -/
abbrev ActionFunction := Nat

structure Action where
  scripted : Bool := false
  fromLua : Bool := false
  scriptId : Int32 := 0
  function : Option ActionFunction := none
  allowFarUse : Bool := false
  checkFloor : Bool := true
  checkLineOfSight : Bool := true
  ids : List UInt16 := []
  uids : List UInt16 := []
  aids : List UInt16 := []
  deriving DecidableEq

namespace Action

variable (self : Action)

def moved : Action := { self with function := none, ids := [], uids := [], aids := [] }

structure Bare (action : Action) : Prop where
  function : action.function = none
  ids : action.ids = []
  uids : action.uids = []
  aids : action.aids = []

theorem moved_eq_iff : self.moved = self ↔ self.Bare := by
  constructor
  · intro h
    rw [← h]
    exact ⟨rfl, rfl, rfl, rfl⟩
  · intro h
    cases self with
    | mk =>
      obtain ⟨h₁, h₂, h₃, h₄⟩ := h
      dsimp only at h₁ h₂ h₃ h₄
      subst h₁ h₂ h₃ h₄
      rfl

end Action

abbrev ActionUseMap := UInt16 → Option Action

/-- The key that an id becomes. -/
def actionKey (id : Int32) : UInt16 := id.toUInt32.toUInt16

/-- The loop over the ids: an id that is there keeps its action, and the result is false. -/
def emplaceActions : List Int32 → Action → ActionUseMap → Bool × ActionUseMap
  | [], _, map => (true, map)
  | id :: ids, action, map =>
    let (success, map') := emplaceActions ids action.moved
      (if (map (actionKey id)).isNone then Function.update map (actionKey id) (some action)
      else map)
    (success && (map (actionKey id)).isNone, map')

structure Actions where
  useItemMap : ActionUseMap
  uniqueItemMap : ActionUseMap
  actionItemMap : ActionUseMap

namespace Actions

variable (self : Actions)

def idMap : IdAttribute → ActionUseMap
  | .itemid => self.useItemMap
  | .uniqueid => self.uniqueItemMap
  | .actionid => self.actionItemMap

def registerEvent (action : Action) (attr : IdAttribute) (value : List UInt8) :
    Option (Bool × Actions) :=
  (vectorAtoi (explodeString value SEMICOLON)).map fun ids =>
    let (success, map) := emplaceActions ids action (self.idMap attr)
    match attr with
    | .itemid => (success, { self with useItemMap := map })
    | .uniqueid => (success, { self with uniqueItemMap := map })
    | .actionid => (success, { self with actionItemMap := map })

end Actions

/-! ## What the ids hold -/

open HandOut

namespace LoadedMoveEvent

/-- What an unused id holds after the event. -/
def entry (self : LoadedMoveEvent) : Option MoveEventList :=
  some (Function.update (fun _ => []) self.eventType [self])

theorem entry_injective : Function.Injective entry := by
  intro e e' h
  have hlist := congrFun (Option.some.inj h) e.eventType
  rw [Function.update_self] at hlist
  by_cases htype : e.eventType = e'.eventType
  · rw [htype, Function.update_self] at hlist
    exact List.head_eq_of_cons_eq hlist
  · rw [Function.update_of_ne htype] at hlist
    cases hlist

theorem bare_withTileItem {self : LoadedMoveEvent} {tileItem : Bool} :
    (self.withTileItem tileItem).Bare ↔ self.Bare := by
  unfold withTileItem
  split
  · split
    · exact ⟨fun ⟨a, b, c, d, e, f, g, h, i⟩ => ⟨a, b, c, d, e, f, g, h, i⟩,
        fun ⟨a, b, c, d, e, f, g, h, i⟩ => ⟨a, b, c, d, e, f, g, h, i⟩⟩
    · exact ⟨fun ⟨a, b, c, d, e, f, g, h, i⟩ => ⟨a, b, c, d, e, f, g, h, i⟩,
        fun ⟨a, b, c, d, e, f, g, h, i⟩ => ⟨a, b, c, d, e, f, g, h, i⟩⟩
    · exact Iff.rfl
  · exact Iff.rfl

end LoadedMoveEvent

variable {ids : List Int32} {moveEvent : LoadedMoveEvent} {action : Action}

theorem addEvents_eq_put {map : MoveListMap} (hnodup : ids.Nodup)
    (hunused : ∀ id ∈ ids, map id = none) :
    addEvents ids moveEvent map =
      put LoadedMoveEvent.entry (handed LoadedMoveEvent.moved ids moveEvent) map := by
  induction ids generalizing moveEvent map with
  | nil => rfl
  | cons id ids ih =>
    obtain ⟨hid, hrest⟩ := List.nodup_cons.mp hnodup
    have hadd : addEvent moveEvent id map = Function.update map id moveEvent.entry := by
      rw [addEvent, hunused id List.mem_cons_self]
      rfl
    rw [addEvents, hadd]
    refine ih hrest fun k hk => ?_
    rw [Function.update_of_ne (ne_of_mem_of_not_mem hk hid)]
    exact hunused k (List.mem_cons_of_mem _ hk)

theorem emplaceActions_eq_put {map : ActionUseMap} (hnodup : (ids.map actionKey).Nodup)
    (hunused : ∀ id ∈ ids, map (actionKey id) = none) :
    emplaceActions ids action map =
      (true, put some (handed Action.moved (ids.map actionKey) action) map) := by
  induction ids generalizing action map with
  | nil => rfl
  | cons id ids ih =>
    obtain ⟨hid, hrest⟩ := List.nodup_cons.mp hnodup
    have hnone := hunused id List.mem_cons_self
    have hlater : ∀ k ∈ ids, Function.update map (actionKey id) (some action) (actionKey k) =
        none := by
      intro k hk
      have hne : actionKey k ≠ actionKey id := fun hkey => hid (hkey ▸ List.mem_map_of_mem hk)
      rw [Function.update_of_ne hne]
      exact hunused k (List.mem_cons_of_mem _ hk)
    rw [emplaceActions, hnone, Option.isNone_none, if_pos rfl, ih hrest hlater]
    rfl

theorem itemTypeIndex_lt {size : Nat} (h : 0 < size) (id : Int32) :
    itemTypeIndex size id < size := by
  unfold itemTypeIndex
  split_ifs with hin
  · omega
  · exact h

/-- Without anything to move, or with one id, all writes are the same. -/
theorem wieldItems_get {items : List WieldedType} (hpos : 0 < items.length)
    (htype : moveEvent.eventType = .EQUIP)
    (h : ids.length ≤ 1 ∨ moveEvent.moved = moveEvent) {id : Int32}
    (hid : id ∈ ids ∨ items[itemTypeIndex items.length id]? = some moveEvent.wielded) :
    (wieldItems ids moveEvent items)[itemTypeIndex items.length id]? =
      some moveEvent.wielded := by
  induction ids generalizing items with
  | nil =>
    rcases hid with hid | hid
    · cases hid
    · exact hid
  | cons k ids ih =>
    rw [wieldItems, if_pos htype]
    have hset : ∀ {i : Nat}, i < items.length →
        (i = itemTypeIndex items.length k ∨ items[i]? = some moveEvent.wielded) →
        (items.set (itemTypeIndex items.length k) moveEvent.wielded)[i]? =
          some moveEvent.wielded := by
      intro i hi hwrite
      by_cases heq : itemTypeIndex items.length k = i
      · rw [heq, List.getElem?_set_self hi]
      · rw [List.getElem?_set_ne heq]
        exact hwrite.resolve_left (Ne.symm heq)
    rcases h with hone | hfixed
    · obtain rfl : ids = [] := List.eq_nil_of_length_eq_zero (by simpa using hone)
      refine hset (itemTypeIndex_lt hpos id) ?_
      rcases hid with hid | hid
      · exact .inl (by rw [List.mem_singleton.mp hid])
      · exact .inr hid
    · rw [hfixed]
      have hlength : (items.set (itemTypeIndex items.length k) moveEvent.wielded).length =
          items.length := List.length_set
      have hrest := @ih (items.set (itemTypeIndex items.length k) moveEvent.wielded)
        (by rw [hlength]; exact hpos) (.inr hfixed)
      rw [hlength] at hrest
      refine hrest ?_
      rcases hid with hid | hid
      · rcases List.mem_cons.mp hid with rfl | hlater
        · exact .inr (hset (itemTypeIndex_lt hpos id) (.inl rfl))
        · exact .inl hlater
      · exact .inr (hset (itemTypeIndex_lt hpos id) (.inr hid))

/-- Every id holds the event, and every item type of an equip event its requirements. -/
structure MoveEvents.Carries (events : MoveEvents) (moveEvent : LoadedMoveEvent)
    (attr : IdAttribute) (ids : List Int32) : Prop where
  mapped : ∀ id ∈ ids, events.idMap attr id = moveEvent.entry
  wielded : attr = .itemid → moveEvent.eventType = .EQUIP → ∀ id ∈ ids,
    events.items[itemTypeIndex events.items.length id]? = some moveEvent.wielded

def Actions.Carries (self : Actions) (action : Action) (attr : IdAttribute)
    (ids : List Int32) : Prop :=
  ∀ id ∈ ids, self.idMap attr (actionKey id) = some action

theorem MoveEvents.carries_iff {self : MoveEvents} {tileItem : Bool} {attr : IdAttribute}
    {value : List UInt8} (hids : vectorAtoi (explodeString value SEMICOLON) = some ids)
    (hnodup : ids.Nodup) (hunused : ∀ id ∈ ids, self.idMap attr id = none) :
    (∃ after, self.registerEvent moveEvent tileItem attr value = some after ∧
      after.Carries (moveEvent.withTileItem tileItem) attr ids) ↔
      ids.length ≤ 1 ∨ moveEvent.Bare := by
  rw [← @LoadedMoveEvent.bare_withTileItem moveEvent tileItem, ← LoadedMoveEvent.moved_eq_iff]
  set event := moveEvent.withTileItem tileItem with hevent
  have hput := forall_put_iff LoadedMoveEvent.moved event (self.idMap attr)
    LoadedMoveEvent.entry_injective hnodup
  rw [← addEvents_eq_put hnodup hunused] at hput
  obtain ⟨after, hafter, hmap, hitems⟩ : ∃ after,
      self.registerEvent moveEvent tileItem attr value = some after ∧
      after.idMap attr = addEvents ids event (self.idMap attr) ∧
      (attr = .itemid → after.items = wieldItems ids event self.items) := by
    unfold registerEvent
    rw [hids]
    cases attr with
    | itemid => exact ⟨_, rfl, rfl, fun _ => rfl⟩
    | uniqueid => exact ⟨_, rfl, rfl, fun h => nomatch h⟩
    | actionid => exact ⟨_, rfl, rfl, fun h => nomatch h⟩
  rw [← hput, hafter]
  constructor
  · rintro ⟨_, hsome, hcarries⟩ id hid
    cases hsome
    rw [← hmap]
    exact hcarries.mapped id hid
  · intro h
    refine ⟨after, rfl, fun id hid => ?_, fun hattr htype id hid => ?_⟩
    · rw [hmap]
      exact h id hid
    · rw [hitems hattr, length_wieldItems]
      exact wieldItems_get self.items_pos htype (hput.mp h) (.inl hid)

theorem Actions.carries_iff {self : Actions} {attr : IdAttribute} {value : List UInt8}
    (hids : vectorAtoi (explodeString value SEMICOLON) = some ids)
    (hnodup : (ids.map actionKey).Nodup)
    (hunused : ∀ id ∈ ids, self.idMap attr (actionKey id) = none) :
    (∃ after, self.registerEvent action attr value = some (true, after) ∧
      after.Carries action attr ids) ↔ ids.length ≤ 1 ∨ action.Bare := by
  rw [← action.moved_eq_iff, ← List.length_map (f := actionKey)]
  have hput := forall_put_iff Action.moved action (self.idMap attr)
    (Option.some_injective Action) hnodup
  obtain ⟨after, hafter, hmap⟩ : ∃ after,
      self.registerEvent action attr value = some (true, after) ∧ after.idMap attr =
        put some (handed Action.moved (ids.map actionKey) action) (self.idMap attr) := by
    unfold registerEvent
    rw [hids, Option.map_some, emplaceActions_eq_put hnodup hunused]
    cases attr with
    | itemid => exact ⟨_, rfl, rfl⟩
    | uniqueid => exact ⟨_, rfl, rfl⟩
    | actionid => exact ⟨_, rfl, rfl⟩
  rw [← hput, hafter, List.forall_mem_map]
  unfold Carries
  constructor
  · rintro ⟨_, hsome, hcarries⟩ id hid
    cases hsome
    rw [← hmap]
    exact hcarries id hid
  · intro h
    refine ⟨after, rfl, fun id hid => ?_⟩
    rw [hmap]
    exact h id hid

/-- Every id of a list gets the event as it was configured exactly when the list has one id at
most or the event holds no function, text or container. -/
theorem registerEvent_iff (moveEvents : MoveEvents) (actions : Actions)
    (moveEvent : LoadedMoveEvent) (tileItem : Bool) (action : Action) (attr : IdAttribute)
    (value : List UInt8) (ids : List Int32)
    (hids : vectorAtoi (explodeString value SEMICOLON) = some ids) :
    (ids.Nodup → (∀ id ∈ ids, moveEvents.idMap attr id = none) →
      ((∃ after, moveEvents.registerEvent moveEvent tileItem attr value = some after ∧
        after.Carries (moveEvent.withTileItem tileItem) attr ids) ↔
          ids.length ≤ 1 ∨ moveEvent.Bare)) ∧
    ((ids.map actionKey).Nodup → (∀ id ∈ ids, actions.idMap attr (actionKey id) = none) →
      ((∃ after, actions.registerEvent action attr value = some (true, after) ∧
        after.Carries action attr ids) ↔ ids.length ≤ 1 ∨ action.Bare)) :=
  ⟨MoveEvents.carries_iff hids, Actions.carries_iff hids⟩

/-- No events, and three item types. -/
def unregistered : MoveEvents where
  itemIdMap := fun _ => none
  uniqueIdMap := fun _ => none
  actionIdMap := fun _ => none
  items := List.replicate 3 ⟨0, 0, 0, []⟩
  items_pos := by decide

def noActions : Actions where
  useItemMap := fun _ => none
  uniqueItemMap := fun _ => none
  actionItemMap := fun _ => none

/-- `<movevent event="Equip" function="onEquipItem" .../>`. -/
def equipHelmet : LoadedMoveEvent where
  eventType := .EQUIP
  equipFunction := some .EquipItem
  slot := 1

/-- A scripted step has nothing to move, and so has an action: both reach the ids 1 and 2. -/
theorem registerEvent_iff_scripted :
    (∃ after,
      unregistered.registerEvent { eventType := .STEP_IN, scripted := true } false .actionid
        [49, 59, 50] = some after ∧
      after.Carries { eventType := .STEP_IN, scripted := true } .actionid [1, 2]) ∧
    ∃ after, noActions.registerEvent { scripted := true } .itemid [49, 59, 50] =
      some (true, after) ∧ after.Carries { scripted := true } .itemid [1, 2] := by
  have hiff := registerEvent_iff unregistered noActions
    { eventType := .STEP_IN, scripted := true } false { scripted := true }
  exact ⟨((hiff .actionid [49, 59, 50] [1, 2] (by decide)).1 (by decide) fun _ _ => rfl).mpr
      (.inr ⟨rfl, rfl, rfl, rfl, rfl, rfl, rfl, rfl, rfl⟩),
    ((hiff .itemid [49, 59, 50] [1, 2] (by decide)).2 (by decide) fun _ _ => rfl).mpr
      (.inr ⟨rfl, rfl, rfl, rfl⟩)⟩

theorem equipHelmet_not_registered :
    ¬ ∀ (self : MoveEvents) (moveEvent : LoadedMoveEvent) (tileItem : Bool) (attr : IdAttribute)
      (value : List UInt8) (ids : List Int32),
      vectorAtoi (explodeString value SEMICOLON) = some ids → ids.Nodup →
      (∀ id ∈ ids, self.idMap attr id = none) →
      ∃ after, self.registerEvent moveEvent tileItem attr value = some after ∧
        after.Carries (moveEvent.withTileItem tileItem) attr ids := by
  intro h
  have hcarries := h unregistered equipHelmet false .itemid [49, 59, 50] [1, 2] (by decide)
    (by decide) fun _ _ => rfl
  rcases (MoveEvents.carries_iff (by decide) (by decide) fun _ _ => rfl).mp hcarries with
    hone | hbare
  · exact absurd hone (by decide)
  · exact nomatch hbare.equipFunction

end Eloth
