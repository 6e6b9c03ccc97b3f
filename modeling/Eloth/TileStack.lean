import Eloth.Map
import Eloth.TileRun

/-!
# The stack of a tile

A tile keeps all its items but the ground in one vector, the down items first, and counts the down
items by hand. The client sees the ground, the top items, the creatures and the down items, in this
order.
-/

namespace Eloth

inductive TileThing where
  | item (r : ItemRef)
  | creature (c : CreatureId)
  deriving DecidableEq

/-- The tile, with the objects of all items. -/
structure TileStack where
  ground : Option ItemRef := none
  items : List ItemRef := []
  downItemCount : Nat := 0
  creatures : List CreatureId := []
  item : ItemRef → Item

/-- What `transformItem` does with the item. A replacement takes over the position. -/
inductive Transformation where
  | keep
  | readd
  | internalRemoveItem
  | updateThing (itemId count : Nat) (setDefaultSubtype : Bool)
  | replaceThing (newItem : Item)

namespace TileStack

variable (types : Items) (s : TileStack)

def itemType (r : ItemRef) : ItemType := types.get (s.item r).id

def setItem (r : ItemRef) (it : Item) : TileStack :=
  { s with item := Function.update s.item r it }

/-! ## The vector -/

def getTopItemCount : Nat := s.items.length - s.downItemCount

/-- From `getBeginDownItem` to `getEndDownItem`. -/
def downItems : List ItemRef := s.items.take s.downItemCount

/-- From `getBeginTopItem` to `getEndTopItem`. -/
def topItems : List ItemRef := s.items.drop s.downItemCount

def getThingCount : Nat := s.ground.toList.length + s.items.length + s.creatures.length

def getThing (index : Nat) : Option TileThing :=
  if s.ground.isSome ∧ index = 0 then s.ground.map .item
  else
    let index := if s.ground.isSome then index - 1 else index
    if index < s.getTopItemCount then s.items[s.downItemCount + index]?.map .item
    else
      let index := index - s.getTopItemCount
      if index < s.creatures.length then s.creatures[index]?.map .creature
      else
        let index := index - s.creatures.length
        if index < s.downItemCount then s.items[index]?.map .item else none

def getThingIndex (thing : TileThing) : Int :=
  if s.ground.map TileThing.item = some thing then 0
  else
    let n : Int := if s.ground.isSome then 0 else -1
    match thing with
    | .item r =>
      if (s.itemType types r).alwaysOnTop then
        match s.topItems.idxOf? r with
        | some i => n + 1 + i
        | none => -1
      else
        match s.downItems.idxOf? r with
        | some i => n + s.getTopItemCount + s.creatures.length + 1 + i
        | none => -1
    | .creature c =>
      match s.creatures.idxOf? c with
      | some i => n + s.getTopItemCount + 1 + i
      | none => -1

def removeThing (thing : TileThing) (count : Nat) : TileStack :=
  match thing with
  | .creature c => { s with creatures := s.creatures.erase c }
  | .item r =>
    if s.getThingIndex types (.item r) = -1 then s
    else if s.ground = some r then { s with ground := none }
    else if (s.itemType types r).alwaysOnTop then
      if r ∈ s.topItems then { s with items := s.downItems ++ s.topItems.erase r } else s
    else if r ∈ s.downItems then
      if (s.itemType types r).stackable ∧ count ≠ (s.item r).getItemCount then
        s.setItem r ((s.item r).setItemCount (Container.reducedCount (s.item r).getItemCount count))
      else
        { s with
          items := s.downItems.erase r ++ s.topItems
          downItemCount := s.downItemCount - 1 }
    else s

/-- The top item goes before the first one that comes later. -/
def insertTopItem (comesLater : ItemRef → Bool) (r : ItemRef) : TileStack :=
  { s with items := s.downItems ++ Tile.insertTop comesLater r s.topItems }

def insertDownItem (r : ItemRef) : TileStack :=
  { s with items := r :: s.items, downItemCount := s.downItemCount + 1 }

def addTopItem (r : ItemRef) : TileStack :=
  let it := s.itemType types r
  let oldSplash :=
    if it.isSplash then s.topItems.find? fun old => (s.itemType types old).isSplash else none
  let s :=
    match oldSplash with
    | some old => s.removeThing types (.item old) 1
    | none => s
  s.insertTopItem (fun old => it.alwaysOnTopOrder ≤ (s.itemType types old).alwaysOnTopOrder) r

def addDownItem (r : ItemRef) : TileStack :=
  let oldField :=
    if (s.itemType types r).isMagicField then
      s.downItems.find? fun old => (s.item old).isMagicFieldObject
    else none
  match oldField with
  | some old =>
    if (s.itemType types old).replaceable then
      (s.removeThing types (.item old) 1).insertDownItem r
    else s
  | none => s.insertDownItem r

def addThing (thing : TileThing) : TileStack :=
  match thing with
  | .creature c => { s with creatures := c :: s.creatures }
  | .item r =>
    if 0xFFFF ≤ s.items.length then s
    else if (s.itemType types r).isGroundTile then { s with ground := some r }
    else if (s.itemType types r).alwaysOnTop then s.addTopItem types r
    else s.addDownItem types r

def internalAddThing (thing : TileThing) : TileStack :=
  match thing with
  | .creature c => { s with creatures := c :: s.creatures }
  | .item r =>
    let it := s.itemType types r
    if it.isGroundTile then
      if s.ground.isNone then { s with ground := some r } else s
    else if 0xFFFF ≤ s.items.length then s
    else if it.alwaysOnTop then
      s.insertTopItem (fun old => it.alwaysOnTopOrder < (s.itemType types old).alwaysOnTopOrder) r
    else s.insertDownItem r

def updateThing (r : ItemRef) (itemId count : Nat) : TileStack :=
  if s.getThingIndex types (.item r) = -1 then s
  else s.setItem r (((s.item r).setID types itemId).setSubType types count)

/-- The new item takes the place of the old one in the vector. -/
def replaceThing (index : Nat) (r : ItemRef) : TileStack :=
  if s.ground.isSome ∧ index = 0 then { s with ground := some r }
  else
    let pos := if s.ground.isSome then index - 1 else index
    if pos < s.getTopItemCount then { s with items := s.items.set (s.downItemCount + pos) r }
    else
      let pos := pos - s.getTopItemCount
      if pos < s.creatures.length then s
      else
        let pos := pos - s.creatures.length
        if pos < s.downItemCount then { s with items := s.items.set pos r } else s

/-! ## Transforming -/

/-- The branches of `Game::transformItem`, with -1 for a count that is not given. -/
def transformationAux (again : Transformation) (r : ItemRef) (newId : Nat) (newCount : Int) :
    Transformation :=
  let it := s.item r
  let curType := types.get it.id
  let newType := types.get newId
  if it.id = newId ∧ (newCount = -1 ∨ (newCount = it.getSubType types ∧ newCount ≠ 0)) then .keep
  else if s.getThingIndex types (.item r) = -1 then .keep
  else if !it.canTransform then .keep
  else if newType.id = 0 then .keep
  else if curType.alwaysOnTop ≠ newType.alwaysOnTop then .readd
  else if curType.type = newType.type then
    if newCount = 0 ∧ (it.isStackable types ∨ it.hasAttribute .charges) then
      if it.isStackable types then .internalRemoveItem
      else
        let newItemId : Int := if curType.id = newType.id then it.getDecayTo types else newId
        if newItemId < 0 then .internalRemoveItem
        else if newItemId ≠ newId then
          match Item.CreateItem types newItemId.toNat 1 with
          | some newItem => .replaceThing newItem
          | none => .keep
        else again
    else
      .updateThing (if curType.id ≠ newType.id then newId else it.id)
        (if newCount ≠ -1 ∧ newType.hasSubType then newCount.toNat else it.getSubType types)
        (curType.id ≠ newType.id ∧ newType.group ≠ curType.group)
  else
    match Item.CreateItem types newId (if newCount = -1 then 0 else newCount.toNat) with
    | some newItem => .replaceThing newItem
    | none => .keep

/-- The recursive call is made without a count, and such a call makes no further one. -/
def transformation (r : ItemRef) (newId : Nat) (newCount : Int) : Transformation :=
  s.transformationAux types (s.transformationAux types .keep r newId (-1)) r newId newCount

/-- The removal without a count. -/
def internalRemoveItem (r : ItemRef) : TileStack :=
  if s.getThingIndex types (.item r) = -1 ∨ (s.item r).getItemCount = 0 ∨ !(s.item r).canRemove then s
  else s.removeThing types (.item r) (s.item r).getItemCount

/-- A replacement is created at the address `newItem`. -/
def transformItem (r : ItemRef) (newId : Nat) (newCount : Int) (newItem : ItemRef) : TileStack :=
  match s.transformation types r newId newCount with
  | .keep => s
  | .readd =>
    let s := s.removeThing types (.item r) (s.item r).getItemCount
    let it := (s.item r).setID types newId
    (s.setItem r (if newCount ≠ -1 then it.setSubType types newCount.toNat else it)).addThing types
      (.item r)
  | .internalRemoveItem => s.internalRemoveItem types r
  | .updateThing itemId count setDefaultSubtype =>
    (if setDefaultSubtype then s.setItem r ((s.item r).setDefaultSubtype types) else s).updateThing
      types r itemId count
  | .replaceThing it =>
    (s.setItem newItem it).replaceThing (s.getThingIndex types (.item r)).toNat newItem

/-! ## Runs -/

def onTile : List TileThing :=
  s.ground.toList.map .item ++ s.topItems.map .item ++ s.creatures.map .creature ++
    s.downItems.map .item

/-- What happens to the tile and its items. The game updates an item outside of `transformItem`
under its own id only, and the objects of other items change freely. -/
inductive Op where
  | addThing (thing : TileThing)
  | internalAddThing (thing : TileThing)
  | removeThing (thing : TileThing) (count : Nat)
  | updateCount (r : ItemRef) (count : Nat)
  | transformItem (r : ItemRef) (newId : Nat) (newCount : Int) (newItem : ItemRef)
  | setItem (r : ItemRef) (it : Item)

def Op.apply : Op → TileStack
  | .addThing thing => s.addThing types thing
  | .internalAddThing thing => s.internalAddThing types thing
  | .removeThing thing count => s.removeThing types thing count
  | .updateCount r count => s.updateThing types r (s.item r).id count
  | .transformItem r newId newCount newItem => s.transformItem types r newId newCount newItem
  | .setItem r it => s.setItem r it

/-- Only things that are not there come in. -/
def Op.Valid : Op → Prop
  | .addThing thing => thing ∉ s.onTile
  | .internalAddThing thing => thing ∉ s.onTile
  | .transformItem _ _ _ newItem => .item newItem ∉ s.onTile
  | .setItem r it => .item r ∈ s.onTile → it.id = (s.item r).id
  | _ => True

def system : Run.System TileStack Op where
  init s := ∃ item, s = { item := item }
  step s op s' := op.Valid s ∧ s' = op.apply types s

/-- The down items come first, and the top items are in their order. -/
structure Stacked : Prop where
  count : s.downItemCount ≤ s.items.length
  down : ∀ r ∈ s.downItems, (s.itemType types r).alwaysOnTop = false
  top : ∀ r ∈ s.topItems, (s.itemType types r).alwaysOnTop = true
  ordered : s.topItems.Pairwise fun r r' =>
    (s.itemType types r).alwaysOnTopOrder ≤ (s.itemType types r').alwaysOnTopOrder

/-- An item of the type can take the place of the item: it belongs to the same part of the vector,
and among the top items its order lies between those of the neighbours. -/
def InPlace (r : ItemRef) (id : Nat) : Prop :=
  s.ground = some r ∨
    (types.get id).alwaysOnTop = (s.itemType types r).alwaysOnTop ∧
    ((s.itemType types r).alwaysOnTop = true →
      (∀ x ∈ s.topItems.take (s.topItems.idxOf r),
        (s.itemType types x).alwaysOnTopOrder ≤ (types.get id).alwaysOnTopOrder) ∧
      ∀ x ∈ s.topItems.drop (s.topItems.idxOf r + 1),
        (types.get id).alwaysOnTopOrder ≤ (s.itemType types x).alwaysOnTopOrder)

/-- A transformation that maintains the position finds its place there. -/
def Fits : Op → Prop
  | .transformItem r newId newCount _ =>
    match s.transformation types r newId newCount with
    | .updateThing itemId _ _ => s.InPlace types r itemId
    | .replaceThing newItem => s.InPlace types r newItem.id
    | _ => True
  | _ => True

/-- Nothing is there twice. -/
structure Distinct : Prop where
  items : (s.ground.toList ++ s.items).Nodup
  creatures : s.creatures.Nodup

/-- `getThing` and `getThingIndex` are inverse to each other, between the things on the tile and
the indices below their number. -/
structure Indexed : Prop where
  inverse : ∀ thing (i : Nat), s.getThing i = some thing ↔ s.getThingIndex types thing = i
  indices : ∀ i, (s.getThing i).isSome ↔ i < s.getThingCount
  things : ∀ thing, s.getThingIndex types thing ≠ -1 ↔ thing ∈ s.onTile

variable {types s} {r : ItemRef} {thing : TileThing} {down top : List ItemRef}

/-! ## The two parts of the vector -/

def withStack (s : TileStack) (down top : List ItemRef) : TileStack :=
  { s with items := down ++ top, downItemCount := down.length }

@[simp] theorem downItems_withStack : (s.withStack down top).downItems = down := by
  simp [withStack, downItems]

@[simp] theorem topItems_withStack : (s.withStack down top).topItems = top := by
  simp [withStack, topItems]

theorem downItems_append_topItems (s : TileStack) : s.downItems ++ s.topItems = s.items :=
  List.take_append_drop _ _

theorem length_downItems (h : s.downItemCount ≤ s.items.length) :
    s.downItems.length = s.downItemCount := by
  simpa [downItems] using h

theorem length_topItems (s : TileStack) : s.topItems.length = s.getTopItemCount := by
  simp [topItems, getTopItemCount]

theorem eq_withStack (h : s.downItemCount ≤ s.items.length) :
    s = s.withStack s.downItems s.topItems := by
  rw [withStack, downItems_append_topItems, length_downItems h]

theorem mem_items : r ∈ s.items ↔ r ∈ s.downItems ∨ r ∈ s.topItems := by
  rw [← downItems_append_topItems, List.mem_append]

theorem mem_onTile_item : .item r ∈ s.onTile ↔ s.ground = some r ∨ r ∈ s.items := by
  simp [onTile, mem_items]
  tauto

theorem mem_onTile_creature {c : CreatureId} : .creature c ∈ s.onTile ↔ c ∈ s.creatures := by
  simp [onTile]

/-! ## The indices -/

theorem idxOf?_eq_some {α : Type} [DecidableEq α] {l : List α} (h : l.Nodup) {a : α} {i : Nat} :
    l.idxOf? a = some i ↔ l[i]? = some a := by
  rw [List.idxOf?_eq_some_iff, List.getElem?_eq_some_iff]
  constructor
  · rintro ⟨hlt, heq, -⟩
    exact ⟨hlt, heq⟩
  · rintro ⟨hlt, heq⟩
    refine ⟨hlt, heq, fun j hj hsame => ?_⟩
    exact absurd ((h.getElem_inj_iff).mp (hsame.trans heq.symm)) (Nat.ne_of_lt hj)

theorem getElem?_append_eq_some {α : Type} {l l' : List α} {a : α} {i : Nat} :
    (l ++ l')[i]? = some a ↔ l[i]? = some a ∨ ∃ j, l'[j]? = some a ∧ i = l.length + j := by
  by_cases hi : i < l.length
  · rw [List.getElem?_append_left hi]
    refine ⟨.inl, fun h => h.resolve_right ?_⟩
    rintro ⟨j, -, rfl⟩
    omega
  · rw [List.getElem?_append_right (Nat.le_of_not_lt hi)]
    constructor
    · exact fun h => .inr ⟨i - l.length, h, by omega⟩
    · rintro (h | ⟨j, h, rfl⟩)
      · exact absurd (List.getElem?_eq_some_iff.mp h).1 hi
      · simpa using h

theorem getThing_eq (h : s.downItemCount ≤ s.items.length) (i : Nat) :
    s.getThing i = s.onTile[i]? := by
  have htop (j : Nat) : s.items[s.downItemCount + j]? = s.topItems[j]? := by
    rw [topItems, List.getElem?_drop]
  have hdown (j : Nat) (hj : j < s.downItemCount) : s.items[j]? = s.downItems[j]? := by
    rw [downItems, List.getElem?_take_of_lt hj]
  have hlength := length_topItems s
  have hlength' := length_downItems h
  have hrest (j : Nat) : (s.topItems.map TileThing.item ++
        (s.creatures.map TileThing.creature ++ s.downItems.map TileThing.item))[j]? =
      if j < s.getTopItemCount then s.items[s.downItemCount + j]?.map TileThing.item
      else if j - s.getTopItemCount < s.creatures.length then
        s.creatures[j - s.getTopItemCount]?.map TileThing.creature
      else if j - s.getTopItemCount - s.creatures.length < s.downItemCount then
        s.items[j - s.getTopItemCount - s.creatures.length]?.map TileThing.item
      else none := by
    simp only [List.getElem?_append, List.length_map, List.getElem?_map, hlength, htop]
    split_ifs with h₁ h₂ h₃
    · rfl
    · rfl
    · rw [hdown _ h₃]
    · rw [List.getElem?_eq_none (by omega)]
      rfl
  rw [getThing, onTile, List.append_assoc, List.append_assoc]
  cases s.ground with
  | none => simp only [Option.isSome_none, Bool.false_eq_true, false_and, if_false,
      Option.toList_none, List.map_nil, List.nil_append, hrest]
  | some g =>
    cases i with
    | zero => simp
    | succ j => simp only [Option.isSome_some, Nat.add_one_ne_zero, and_false, if_false, if_true,
        Option.toList_some, List.map_cons, List.map_nil, List.singleton_append,
        List.getElem?_cons_succ, Nat.add_sub_cancel, hrest]

theorem getThing_item (h : s.downItemCount ≤ s.items.length) {i : Nat} :
    s.getThing i = some (.item r) ↔ (s.ground = some r ∧ i = 0) ∨
      (∃ j, s.topItems[j]? = some r ∧ i = s.ground.toList.length + j) ∨
      ∃ j, s.downItems[j]? = some r ∧
        i = s.ground.toList.length + s.getTopItemCount + s.creatures.length + j := by
  have hground : (s.ground.toList.map TileThing.item)[i]? = some (.item r) ↔
      s.ground = some r ∧ i = 0 := by
    cases s.ground with
    | none => simp
    | some g =>
      cases i with
      | zero => simp
      | succ j => simp
  rw [getThing_eq h, onTile, getElem?_append_eq_some, getElem?_append_eq_some,
    getElem?_append_eq_some, hground]
  simp only [List.getElem?_map, Option.map_eq_some_iff, TileThing.item.injEq, exists_eq_right,
    reduceCtorEq, and_false, exists_false, false_and, or_false, List.length_append,
    List.length_map, length_topItems, or_assoc]

theorem getThing_creature (h : s.downItemCount ≤ s.items.length) {i : Nat} {c : CreatureId} :
    s.getThing i = some (.creature c) ↔
      ∃ j, s.creatures[j]? = some c ∧ i = s.ground.toList.length + s.getTopItemCount + j := by
  rw [getThing_eq h, onTile, getElem?_append_eq_some, getElem?_append_eq_some,
    getElem?_append_eq_some]
  simp only [List.getElem?_map, Option.map_eq_some_iff, TileThing.creature.injEq, exists_eq_right,
    reduceCtorEq, and_false, exists_false, false_and, or_false, false_or, List.length_append,
    List.length_map, length_topItems]

theorem match_idxOf? {α : Type} [DecidableEq α] {l : List α} (h : l.Nodup) {a : α} {n : Int}
    {i : Nat} :
    (match l.idxOf? a with
      | some j => n + j
      | none => -1) = (i : Int) ↔ ∃ j : Nat, l[j]? = some a ∧ (i : Int) = n + j := by
  cases hj : l.idxOf? a with
  | none =>
    have hnot (j : Nat) : l[j]? ≠ some a := fun hj' => by
      rw [← idxOf?_eq_some h, hj] at hj'
      cases hj'
    constructor
    · intro heq
      dsimp only at heq
      omega
    · rintro ⟨j, hj', -⟩
      exact absurd hj' (hnot j)
  | some j =>
    constructor
    · exact fun heq => ⟨j, (idxOf?_eq_some h).mp hj, heq.symm⟩
    · rintro ⟨j', hj', heq⟩
      rw [← idxOf?_eq_some h, hj] at hj'
      cases hj'
      exact heq.symm

theorem Distinct.downItems (hd : Distinct s) : s.downItems.Nodup := by
  have h := (List.nodup_append.mp hd.items).2.1
  rw [← downItems_append_topItems] at h
  exact (List.nodup_append.mp h).1

theorem Distinct.topItems (hd : Distinct s) : s.topItems.Nodup := by
  have h := (List.nodup_append.mp hd.items).2.1
  rw [← downItems_append_topItems] at h
  exact (List.nodup_append.mp h).2.1

theorem Distinct.not_mem_of_ground (hd : Distinct s) (hground : s.ground = some r) :
    r ∉ s.items := by
  have h := hd.items
  rw [hground, Option.toList_some] at h
  exact (List.nodup_cons.mp h).1

/-- The index of an item is that of its place in its part of the vector. -/
theorem getThingIndex_item (h : Stacked types s) (hd : Distinct s) {i : Nat} :
    s.getThingIndex types (.item r) = i ↔ (s.ground = some r ∧ i = 0) ∨
      (∃ j, s.topItems[j]? = some r ∧ i = s.ground.toList.length + j) ∨
      ∃ j, s.downItems[j]? = some r ∧
        i = s.ground.toList.length + s.getTopItemCount + s.creatures.length + j := by
  have htop (j : Nat) (hj : s.topItems[j]? = some r) : r ∈ s.items ∧
      (s.itemType types r).alwaysOnTop = true :=
    ⟨mem_items.mpr (.inr (List.mem_of_getElem? hj)), h.top r (List.mem_of_getElem? hj)⟩
  have hdown (j : Nat) (hj : s.downItems[j]? = some r) : r ∈ s.items ∧
      (s.itemType types r).alwaysOnTop = false :=
    ⟨mem_items.mpr (.inl (List.mem_of_getElem? hj)), h.down r (List.mem_of_getElem? hj)⟩
  have hbase : (if s.ground.isSome then 0 else -1 : Int) + 1 = s.ground.toList.length := by
    cases s.ground <;> rfl
  rw [getThingIndex]
  by_cases hground : s.ground = some r
  · have hnot := hd.not_mem_of_ground hground
    rw [if_pos (by simp [hground])]
    simp only [hground, true_and]
    constructor
    · exact fun heq => .inl (by omega)
    · rintro (rfl | ⟨j, hj, -⟩ | ⟨j, hj, -⟩)
      · rfl
      · exact absurd (htop j hj).1 hnot
      · exact absurd (hdown j hj).1 hnot
  · rw [if_neg (by simpa using hground)]
    simp only [hground, false_and, false_or]
    generalize (if s.ground.isSome then 0 else -1 : Int) = n at hbase
    cases hflag : (s.itemType types r).alwaysOnTop with
    | true =>
      rw [if_pos rfl, hbase, match_idxOf? hd.topItems]
      constructor
      · rintro ⟨j, hj, heq⟩
        exact .inl ⟨j, hj, by omega⟩
      · rintro (⟨j, hj, heq⟩ | ⟨j, hj, -⟩)
        · exact ⟨j, hj, by omega⟩
        · rw [(hdown j hj).2] at hflag
          cases hflag
    | false =>
      rw [if_neg (by decide), match_idxOf? hd.downItems]
      constructor
      · rintro ⟨j, hj, heq⟩
        exact .inr ⟨j, hj, by omega⟩
      · rintro (⟨j, hj, -⟩ | ⟨j, hj, heq⟩)
        · rw [(htop j hj).2] at hflag
          cases hflag
        · exact ⟨j, hj, by omega⟩

theorem getThingIndex_creature (hd : Distinct s) {i : Nat} {c : CreatureId} :
    s.getThingIndex types (.creature c) = i ↔
      ∃ j, s.creatures[j]? = some c ∧ i = s.ground.toList.length + s.getTopItemCount + j := by
  have hbase : (if s.ground.isSome then 0 else -1 : Int) + 1 = s.ground.toList.length := by
    cases s.ground <;> rfl
  rw [getThingIndex, if_neg (by simp)]
  generalize (if s.ground.isSome then 0 else -1 : Int) = n at hbase
  dsimp only
  rw [match_idxOf? hd.creatures]
  constructor
  · rintro ⟨j, hj, heq⟩
    exact ⟨j, hj, by omega⟩
  · rintro ⟨j, hj, heq⟩
    exact ⟨j, hj, by omega⟩

theorem getThingIndex_ge (s : TileStack) (thing : TileThing) :
    s.getThingIndex types thing = -1 ∨ ∃ i : Nat, s.getThingIndex types thing = i := by
  suffices h : -1 ≤ s.getThingIndex types thing by
    rcases Int.lt_or_le (s.getThingIndex types thing) 0 with hneg | hpos
    · exact .inl (by omega)
    · exact .inr ⟨(s.getThingIndex types thing).toNat, (Int.toNat_of_nonneg hpos).symm⟩
  rw [getThingIndex]
  dsimp only
  have hbase : (-1 : Int) ≤ if s.ground.isSome then 0 else -1 := by split_ifs <;> decide
  generalize (if s.ground.isSome then 0 else -1 : Int) = n at hbase
  split_ifs
  · decide
  · cases thing with
    | item r =>
      dsimp only
      split_ifs
      · cases s.topItems.idxOf? r <;> dsimp only <;> omega
      · cases s.downItems.idxOf? r <;> dsimp only <;> omega
    | creature c =>
      dsimp only
      cases s.creatures.idxOf? c <;> dsimp only <;> omega

theorem Stacked.indexed (h : Stacked types s) (hd : Distinct s) : Indexed types s := by
  have hinverse (thing : TileThing) (i : Nat) :
      s.getThing i = some thing ↔ s.getThingIndex types thing = i := by
    cases thing with
    | item r => rw [getThing_item h.count, getThingIndex_item h hd]
    | creature c => rw [getThing_creature h.count, getThingIndex_creature hd]
  refine ⟨hinverse, fun i => ?_, fun thing => ?_⟩
  · rw [getThing_eq h.count, isSome_getElem?, onTile]
    have hsplit := congrArg List.length (downItems_append_topItems s)
    rw [List.length_append] at hsplit
    simp only [List.length_append, List.length_map, getThingCount]
    omega
  · rw [List.mem_iff_getElem?]
    constructor
    · intro hne
      obtain ⟨i, hi⟩ := (getThingIndex_ge s thing).resolve_left hne
      exact ⟨i, by rw [← getThing_eq h.count, hinverse, hi]⟩
    · rintro ⟨i, hi⟩
      rw [← getThing_eq h.count, hinverse] at hi
      omega

/-! ## Adding and removing -/

/-- The stack is in order and nothing is there twice. -/
structure Kept (types : Items) (s : TileStack) : Prop where
  stacked : Stacked types s
  distinct : Distinct s

/-- Nothing is there twice, and the stack is in order under the condition only. -/
def KeepsWhen (types : Items) (s : TileStack) (fits : Prop) : Prop :=
  Distinct s ∧ (Stacked types s ↔ fits)

theorem Kept.keepsWhen {fits : Prop} (h : Kept types s) (hfits : fits) : KeepsWhen types s fits :=
  ⟨h.distinct, iff_of_true h.stacked hfits⟩

theorem KeepsWhen.congr {fits fits' : Prop} (h : KeepsWhen types s fits) (hiff : fits ↔ fits') :
    KeepsWhen types s fits' :=
  ⟨h.1, h.2.trans hiff⟩

theorem stacked_withStack : Stacked types (s.withStack down top) ↔
    (∀ r ∈ down, (s.itemType types r).alwaysOnTop = false) ∧
    (∀ r ∈ top, (s.itemType types r).alwaysOnTop = true) ∧
    top.Pairwise fun r r' =>
      (s.itemType types r).alwaysOnTopOrder ≤ (s.itemType types r').alwaysOnTopOrder := by
  constructor
  · rintro ⟨-, hdown, htop, hordered⟩
    rw [downItems_withStack] at hdown
    rw [topItems_withStack] at htop hordered
    exact ⟨hdown, htop, hordered⟩
  · rintro ⟨hdown, htop, hordered⟩
    refine ⟨by simp [withStack], ?_, ?_, ?_⟩
    · rwa [downItems_withStack]
    · rwa [topItems_withStack]
    · rwa [topItems_withStack]

theorem Kept.withStack_sublist (h : Kept types s) (hdown : down.Sublist s.downItems)
    (htop : top.Sublist s.topItems) : Kept types (s.withStack down top) := by
  refine ⟨stacked_withStack.mpr ⟨fun r hr => h.stacked.down r (hdown.subset hr),
    fun r hr => h.stacked.top r (htop.subset hr), h.stacked.ordered.sublist htop⟩,
    h.distinct.items.sublist (List.Sublist.append_left ?_ _), h.distinct.creatures⟩
  rw [← downItems_append_topItems s]
  exact hdown.append htop

theorem Kept.withStack_perm (h : Kept types s) (hr : .item r ∉ s.onTile)
    (hstacked : Stacked types (s.withStack down top)) (hperm : (down ++ top).Perm (r :: s.items)) :
    Kept types (s.withStack down top) := by
  rw [mem_onTile_item, not_or] at hr
  refine ⟨hstacked, ?_, h.distinct.creatures⟩
  change (s.ground.toList ++ (down ++ top)).Nodup
  rw [(hperm.append_left _).nodup_iff, List.nodup_append]
  obtain ⟨hground, hitems, hapart⟩ := List.nodup_append.mp h.distinct.items
  refine ⟨hground, List.nodup_cons.mpr ⟨hr.2, hitems⟩, fun x hx y hy => ?_⟩
  rcases List.mem_cons.mp hy with rfl | hy
  · rintro rfl
    exact hr.1 (by simpa using hx)
  · exact hapart x hx y hy

/-- Objects change, but no item of the vector its type. -/
theorem Kept.setItem (h : Kept types s) {it : Item}
    (hid : r ∈ s.items → it.id = (s.item r).id) : Kept types (s.setItem r it) := by
  have hsame {x : ItemRef} (hx : x ∈ s.items) :
      (s.setItem r it).itemType types x = s.itemType types x := by
    rw [itemType, itemType, TileStack.setItem]
    by_cases heq : x = r
    · subst heq
      simp [hid hx]
    · simp [heq]
  refine ⟨⟨h.stacked.count, fun x hx => ?_, fun x hx => ?_, ?_⟩, h.distinct.items, h.distinct.creatures⟩
  · rw [hsame (mem_items.mpr (.inl hx))]
    exact h.stacked.down x hx
  · rw [hsame (mem_items.mpr (.inr hx))]
    exact h.stacked.top x hx
  · refine h.stacked.ordered.imp_of_mem fun hx hy hle => ?_
    rw [hsame (mem_items.mpr (.inr hx)), hsame (mem_items.mpr (.inr hy))]
    exact hle

theorem Kept.setGround (h : Kept types s) (hr : .item r ∉ s.onTile) :
    Kept types { s with ground := some r } := by
  rw [mem_onTile_item, not_or] at hr
  refine ⟨⟨h.stacked.count, h.stacked.down, h.stacked.top, h.stacked.ordered⟩, ?_,
    h.distinct.creatures⟩
  exact List.nodup_cons.mpr ⟨hr.2, (List.nodup_append.mp h.distinct.items).2.1⟩

/-- What a removal does: nothing, or it takes the ground, a top item, some of a stack, or a down
item. -/
theorem removeThing_cases (h : s.downItemCount ≤ s.items.length) (r : ItemRef) (count : Nat) :
    s.removeThing types (.item r) count = s ∨
    s.ground = some r ∧ s.removeThing types (.item r) count = { s with ground := none } ∨
    s.removeThing types (.item r) count = s.withStack s.downItems (s.topItems.erase r) ∨
    (count ≠ (s.item r).getItemCount ∧ ∃ n, s.removeThing types (.item r) count =
      s.setItem r ((s.item r).setItemCount n)) ∨
    s.removeThing types (.item r) count = s.withStack (s.downItems.erase r) s.topItems := by
  have hlength := length_downItems h
  unfold removeThing
  dsimp only
  split_ifs with hindex hground hflag htop hdown hcount
  · exact .inl rfl
  · exact .inr (.inl ⟨hground, rfl⟩)
  · exact .inr (.inr (.inl (by rw [withStack, hlength])))
  · exact .inl rfl
  · exact .inr (.inr (.inr (.inl ⟨hcount.2, _, rfl⟩)))
  · exact .inr (.inr (.inr (.inr (by
      rw [withStack, List.length_erase_of_mem hdown, hlength]))))
  · exact .inl rfl

theorem Kept.removeThing (h : Kept types s) (thing : TileThing) (count : Nat) :
    Kept types (s.removeThing types thing count) := by
  cases thing with
  | creature c => exact ⟨⟨h.stacked.count, h.stacked.down, h.stacked.top, h.stacked.ordered⟩,
      h.distinct.items, h.distinct.creatures.erase c⟩
  | item r =>
    rcases @removeThing_cases types s h.stacked.count r count with
      heq | ⟨-, heq⟩ | heq | ⟨-, n, heq⟩ | heq <;> rw [heq]
    · exact h
    · exact ⟨⟨h.stacked.count, h.stacked.down, h.stacked.top, h.stacked.ordered⟩,
        (List.nodup_append.mp h.distinct.items).2.1, h.distinct.creatures⟩
    · exact h.withStack_sublist (.refl _) List.erase_sublist
    · exact h.setItem fun _ => rfl
    · exact h.withStack_sublist List.erase_sublist (.refl _)

theorem removeThing_subset (h : s.downItemCount ≤ s.items.length) (r : ItemRef) (count : Nat)
    {x : ItemRef} (hmem : .item x ∈ (s.removeThing types (.item r) count).onTile) :
    .item x ∈ s.onTile := by
  rw [mem_onTile_item, mem_items] at hmem ⊢
  rcases @removeThing_cases types s h r count with
    heq | ⟨-, heq⟩ | heq | ⟨-, n, heq⟩ | heq <;> rw [heq] at hmem
  · exact hmem
  · exact hmem.imp_left (by simp)
  · rw [downItems_withStack, topItems_withStack] at hmem
    exact hmem.imp_right (Or.imp_right List.mem_of_mem_erase)
  · exact hmem
  · rw [downItems_withStack, topItems_withStack] at hmem
    exact hmem.imp_right (Or.imp_left List.mem_of_mem_erase)

theorem itemType_removeThing (h : s.downItemCount ≤ s.items.length) (r : ItemRef) (count : Nat)
    (x : ItemRef) : (s.removeThing types (.item r) count).itemType types x = s.itemType types x := by
  rcases @removeThing_cases types s h r count with
    heq | ⟨-, heq⟩ | heq | ⟨-, n, heq⟩ | heq <;> rw [heq]
  · rfl
  · rfl
  · rw [itemType, itemType, TileStack.setItem]
    by_cases hx : x = r
    · subst hx
      simp
    · simp [hx]
  · rfl

theorem ordered_insertTop {order : ItemRef → Nat} {comesLater : ItemRef → Bool} {top : List ItemRef}
    (hbefore : ∀ x ∈ top, comesLater x = false → order x ≤ order r)
    (hafter : ∀ x ∈ top, comesLater x = true → order r ≤ order x)
    (h : top.Pairwise fun x y => order x ≤ order y) :
    (Tile.insertTop comesLater r top).Pairwise fun x y => order x ≤ order y := by
  induction top with
  | nil => exact List.pairwise_singleton _ _
  | cons y rest ih =>
    obtain ⟨hy, hrest⟩ := List.pairwise_cons.mp h
    rw [Tile.insertTop]
    split_ifs with hlater
    · refine List.pairwise_cons.mpr ⟨fun x hx => ?_, h⟩
      have hry := hafter y List.mem_cons_self hlater
      rcases List.mem_cons.mp hx with rfl | hx
      · exact hry
      · exact hry.trans (hy x hx)
    · refine List.pairwise_cons.mpr ⟨fun x hx => ?_, ih
        (fun x hx => hbefore x (List.mem_cons_of_mem y hx))
        (fun x hx => hafter x (List.mem_cons_of_mem y hx)) hrest⟩
      rcases List.mem_cons.mp ((Tile.insertTop_perm comesLater rest).mem_iff.mp hx) with rfl | hx
      · exact hbefore y List.mem_cons_self (by simpa using hlater)
      · exact hy x hx

theorem Kept.insertTopItem (h : Kept types s) (hr : .item r ∉ s.onTile)
    (hflag : (s.itemType types r).alwaysOnTop = true) {comesLater : ItemRef → Bool}
    (hbefore : ∀ x ∈ s.topItems, comesLater x = false →
      (s.itemType types x).alwaysOnTopOrder ≤ (s.itemType types r).alwaysOnTopOrder)
    (hafter : ∀ x ∈ s.topItems, comesLater x = true →
      (s.itemType types r).alwaysOnTopOrder ≤ (s.itemType types x).alwaysOnTopOrder) :
    Kept types (s.insertTopItem comesLater r) := by
  have hperm := @Tile.insertTop_perm r comesLater s.topItems
  have heq : s.insertTopItem comesLater r =
      s.withStack s.downItems (Tile.insertTop comesLater r s.topItems) := by
    rw [TileStack.insertTopItem, withStack, length_downItems h.stacked.count]
  rw [heq]
  refine h.withStack_perm hr (stacked_withStack.mpr ⟨h.stacked.down, fun x hx => ?_,
    ordered_insertTop hbefore hafter h.stacked.ordered⟩) ?_
  · rcases List.mem_cons.mp (hperm.mem_iff.mp hx) with rfl | hx
    · exact hflag
    · exact h.stacked.top x hx
  · rw [← downItems_append_topItems s]
    exact (hperm.append_left _).trans List.perm_middle

theorem Kept.insertDownItem (h : Kept types s) (hr : .item r ∉ s.onTile)
    (hflag : (s.itemType types r).alwaysOnTop = false) : Kept types (s.insertDownItem r) := by
  have heq : s.insertDownItem r = s.withStack (r :: s.downItems) s.topItems := by
    rw [TileStack.insertDownItem, withStack, List.cons_append, downItems_append_topItems,
      List.length_cons, length_downItems h.stacked.count]
  rw [heq]
  refine h.withStack_perm hr (stacked_withStack.mpr ⟨fun x hx => ?_, h.stacked.top,
    h.stacked.ordered⟩) ?_
  · rcases List.mem_cons.mp hx with rfl | hx
    · exact hflag
    · exact h.stacked.down x hx
  · rw [List.cons_append, downItems_append_topItems]

theorem Kept.addThing (h : Kept types s) (hthing : thing ∉ s.onTile) :
    Kept types (s.addThing types thing) := by
  cases thing with
  | creature c =>
    refine ⟨⟨h.stacked.count, h.stacked.down, h.stacked.top, h.stacked.ordered⟩, h.distinct.items,
      List.nodup_cons.mpr ⟨fun hc => hthing (mem_onTile_creature.mpr hc), h.distinct.creatures⟩⟩
  | item r =>
    have hremoved (old : ItemRef) : Kept types (s.removeThing types (.item old) 1) ∧
        .item r ∉ (s.removeThing types (.item old) 1).onTile ∧
        ∀ x, (s.removeThing types (.item old) 1).itemType types x = s.itemType types x :=
      ⟨h.removeThing _ _, fun hmem => hthing (removeThing_subset h.stacked.count old 1 hmem),
        itemType_removeThing h.stacked.count old 1⟩
    have htop {u : TileStack} (hu : Kept types u) (hru : .item r ∉ u.onTile)
        (hsame : ∀ x, u.itemType types x = s.itemType types x)
        (hflag : (s.itemType types r).alwaysOnTop = true) :
        Kept types (u.insertTopItem (fun old => (s.itemType types r).alwaysOnTopOrder ≤
          (u.itemType types old).alwaysOnTopOrder) r) := by
      refine hu.insertTopItem hru (by rw [hsame, hflag]) (fun x _ hx => ?_) fun x _ hx => ?_
      · rw [hsame r]
        simp at hx
        omega
      · rw [hsame r]
        simpa using hx
    rw [TileStack.addThing]
    split_ifs with hsize hground hflag
    · exact h
    · exact h.setGround hthing
    · rw [addTopItem]
      split
      · rename_i old _
        obtain ⟨hkept, hfresh, hsame⟩ := hremoved old
        exact htop hkept hfresh hsame hflag
      · exact htop h hthing (fun _ => rfl) hflag
    · rw [Bool.not_eq_true] at hflag
      rw [addDownItem]
      split
      · rename_i old _
        obtain ⟨hkept, hfresh, hsame⟩ := hremoved old
        split_ifs
        · exact hkept.insertDownItem hfresh (by rw [hsame, hflag])
        · exact h
      · exact h.insertDownItem hthing hflag

theorem Kept.internalAddThing (h : Kept types s) (hthing : thing ∉ s.onTile) :
    Kept types (s.internalAddThing types thing) := by
  cases thing with
  | creature c => exact h.addThing hthing
  | item r =>
    rw [TileStack.internalAddThing]
    split_ifs with hground hnone hsize hflag
    · exact h.setGround hthing
    · exact h
    · exact h
    · refine h.insertTopItem hthing hflag (fun x _ hx => ?_) fun x _ hx => ?_
      · simpa using hx
      · simp at hx
        omega
    · exact h.insertDownItem hthing (by simpa using hflag)

/-! ## Changes in place -/

theorem itemType_setItem (s : TileStack) (n x : ItemRef) (it : Item) :
    (s.setItem n it).itemType types x = if x = n then types.get it.id else s.itemType types x := by
  simp only [itemType, setItem, Function.update_apply]
  split_ifs <;> rfl

section InPlace

variable {before after : List ItemRef} {n : ItemRef}

theorem Distinct.apart (hd : Distinct s) (hn : n = r ∨ n ∉ s.items) {rest : List ItemRef}
    (hperm : s.items.Perm (r :: rest)) {x : ItemRef} (hx : x ∈ rest) : x ≠ n := by
  rintro rfl
  have hnodup := hperm.nodup_iff.mp (List.nodup_append.mp hd.items).2.1
  rcases hn with rfl | hn
  · exact (List.nodup_cons.mp hnodup).1 hx
  · exact hn (hperm.mem_iff.mpr (List.mem_cons_of_mem r hx))

/-- A top item, or another one in its place. -/
theorem stacked_in_top (h : Kept types s) (hsplit : s.topItems = before ++ r :: after)
    (hn : n = r ∨ n ∉ s.items) (it : Item) :
    Stacked types ((s.setItem n it).withStack s.downItems (before ++ n :: after)) ↔
      (types.get it.id).alwaysOnTop = true ∧
      (∀ x ∈ before,
        (s.itemType types x).alwaysOnTopOrder ≤ (types.get it.id).alwaysOnTopOrder) ∧
      ∀ x ∈ after,
        (types.get it.id).alwaysOnTopOrder ≤ (s.itemType types x).alwaysOnTopOrder := by
  have hperm : s.items.Perm (r :: (s.downItems ++ (before ++ after))) := by
    rw [← downItems_append_topItems, hsplit, ← List.append_assoc, ← List.append_assoc]
    exact List.perm_middle
  have hsame {x : ItemRef} (hx : x ∈ s.downItems ++ (before ++ after)) :
      (s.setItem n it).itemType types x = s.itemType types x := by
    rw [itemType_setItem, if_neg (h.distinct.apart hn hperm hx)]
  have hnew : (s.setItem n it).itemType types n = types.get it.id := by
    rw [itemType_setItem, if_pos rfl]
  have hbefore {x : ItemRef} (hx : x ∈ before) := hsame
    (List.mem_append_right s.downItems (List.mem_append_left after hx))
  have hafter {x : ItemRef} (hx : x ∈ after) := hsame
    (List.mem_append_right s.downItems (List.mem_append_right before hx))
  have hordered := h.stacked.ordered
  have hflags := h.stacked.top
  rw [hsplit] at hordered hflags
  obtain ⟨hfirst, hlast, hcross⟩ := List.pairwise_append.mp hordered
  obtain ⟨hr, hlast⟩ := List.pairwise_cons.mp hlast
  rw [stacked_withStack]
  constructor
  · rintro ⟨-, hflag, hordered'⟩
    obtain ⟨-, hcons, hcross'⟩ := List.pairwise_append.mp hordered'
    refine ⟨?_, fun x hx => ?_, fun x hx => ?_⟩
    · rw [← hnew]
      exact hflag n (List.mem_append_right _ List.mem_cons_self)
    · rw [← hnew, ← hbefore hx]
      exact hcross' x hx n List.mem_cons_self
    · rw [← hnew, ← hafter hx]
      exact (List.pairwise_cons.mp hcons).1 x hx
  · rintro ⟨hflag, hle, hge⟩
    refine ⟨fun x hx => ?_, fun x hx => ?_, List.pairwise_append.mpr ⟨?_, ?_, fun x hx y hy => ?_⟩⟩
    · rw [hsame (List.mem_append_left _ hx)]
      exact h.stacked.down x hx
    · rcases List.mem_append.mp hx with hx | hx
      · rw [hbefore hx]
        exact hflags x (List.mem_append_left _ hx)
      · rcases List.mem_cons.mp hx with rfl | hx
        · rw [hnew, hflag]
        · rw [hafter hx]
          exact hflags x (List.mem_append_right _ (List.mem_cons_of_mem r hx))
    · refine hfirst.imp_of_mem fun hx hy hxy => ?_
      rwa [hbefore hx, hbefore hy]
    · refine List.pairwise_cons.mpr ⟨fun x hx => ?_, hlast.imp_of_mem fun hx hy hxy => ?_⟩
      · rw [hnew, hafter hx]
        exact hge x hx
      · rwa [hafter hx, hafter hy]
    · rcases List.mem_cons.mp hy with rfl | hy
      · rw [hnew, hbefore hx]
        exact hle x hx
      · rw [hbefore hx, hafter hy]
        exact hcross x hx y (List.mem_cons_of_mem r hy)

/-- A down item, or another one in its place. -/
theorem stacked_in_down (h : Kept types s) (hsplit : s.downItems = before ++ r :: after)
    (hn : n = r ∨ n ∉ s.items) (it : Item) :
    Stacked types ((s.setItem n it).withStack (before ++ n :: after) s.topItems) ↔
      (types.get it.id).alwaysOnTop = false := by
  have hperm : s.items.Perm (r :: (before ++ after ++ s.topItems)) := by
    rw [← downItems_append_topItems, hsplit, List.append_assoc, List.append_assoc]
    exact List.perm_middle
  have hsame {x : ItemRef} (hx : x ∈ before ++ after ++ s.topItems) :
      (s.setItem n it).itemType types x = s.itemType types x := by
    rw [itemType_setItem, if_neg (h.distinct.apart hn hperm hx)]
  have hnew : (s.setItem n it).itemType types n = types.get it.id := by
    rw [itemType_setItem, if_pos rfl]
  have htop {x : ItemRef} (hx : x ∈ s.topItems) := hsame (List.mem_append_right _ hx)
  have hflags := h.stacked.down
  rw [hsplit] at hflags
  rw [stacked_withStack]
  constructor
  · rintro ⟨hflag, -, -⟩
    rw [← hnew]
    exact hflag n (List.mem_append_right _ List.mem_cons_self)
  · intro hflag
    refine ⟨fun x hx => ?_, fun x hx => ?_, h.stacked.ordered.imp_of_mem fun hx hy hxy => ?_⟩
    · rcases List.mem_append.mp hx with hx | hx
      · rw [hsame (List.mem_append_left _ (List.mem_append_left _ hx))]
        exact hflags x (List.mem_append_left _ hx)
      · rcases List.mem_cons.mp hx with rfl | hx
        · rw [hnew, hflag]
        · rw [hsame (List.mem_append_left _ (List.mem_append_right _ hx))]
          exact hflags x (List.mem_append_right _ (List.mem_cons_of_mem r hx))
    · rw [htop hx]
      exact h.stacked.top x hx
    · rwa [htop hx, htop hy]

theorem Distinct.replace (hd : Distinct s) (hn : n = r ∨ .item n ∉ s.onTile)
    {rest items : List ItemRef} (hperm : s.items.Perm (r :: rest))
    (hperm' : items.Perm (n :: rest)) : (s.ground.toList ++ items).Nodup := by
  obtain ⟨hground, hitems, hapart⟩ := List.nodup_append.mp hd.items
  have hrest := (List.nodup_cons.mp (hperm.nodup_iff.mp hitems)).2
  rw [(hperm'.append_left _).nodup_iff, List.nodup_append]
  rw [mem_onTile_item, not_or] at hn
  refine ⟨hground, List.nodup_cons.mpr ⟨fun hx => ?_, hrest⟩, fun x hx y hy => ?_⟩
  · exact hd.apart (hn.imp_right And.right) hperm hx rfl
  · rcases List.mem_cons.mp hy with rfl | hy
    · rcases hn with rfl | hn
      · exact hapart x hx y (hperm.mem_iff.mpr List.mem_cons_self)
      · rintro rfl
        exact hn.1 (by simpa using hx)
    · exact hapart x hx y (hperm.mem_iff.mpr (List.mem_cons_of_mem r hy))

/-- Where an item of the tile lies, with its index. -/
theorem located (h : Kept types s) (hr : .item r ∈ s.onTile) :
    s.ground = some r ∧ s.getThingIndex types (.item r) = (0 : Nat) ∨
    (s.ground ≠ some r ∧ (s.itemType types r).alwaysOnTop = true ∧
      s.topItems = s.topItems.take (s.topItems.idxOf r) ++
        r :: s.topItems.drop (s.topItems.idxOf r + 1) ∧
      s.getThingIndex types (.item r) =
        (s.ground.toList.length + (s.topItems.take (s.topItems.idxOf r)).length : Nat)) ∨
    s.ground ≠ some r ∧ (s.itemType types r).alwaysOnTop = false ∧
      ∃ before after, s.downItems = before ++ r :: after ∧
        s.getThingIndex types (.item r) = (s.ground.toList.length + s.getTopItemCount +
          s.creatures.length + before.length : Nat) := by
  by_cases hground : s.ground = some r
  · exact .inl ⟨hground, (getThingIndex_item h.stacked h.distinct).mpr (.inl ⟨hground, rfl⟩)⟩
  rcases mem_items.mp ((mem_onTile_item.mp hr).resolve_left hground) with hmem | hmem
  · obtain ⟨before, after, hsplit⟩ := List.append_of_mem hmem
    refine .inr (.inr ⟨hground, h.stacked.down r hmem, before, after, hsplit, ?_⟩)
    refine (getThingIndex_item h.stacked h.distinct).mpr (.inr (.inr ⟨before.length, ?_, rfl⟩))
    rw [hsplit]
    simp
  · have hlt := List.idxOf_lt_length_of_mem hmem
    have hget : s.topItems[s.topItems.idxOf r] = r := List.getElem_idxOf hlt
    refine .inr (.inl ⟨hground, h.stacked.top r hmem, ?_, ?_⟩)
    · conv_lhs => rw [← List.take_append_drop (s.topItems.idxOf r) s.topItems]
      rw [List.drop_eq_getElem_cons hlt, hget]
    · refine (getThingIndex_item h.stacked h.distinct).mpr (.inr (.inl ⟨s.topItems.idxOf r, ?_, ?_⟩))
      · rw [List.getElem?_eq_getElem hlt, hget]
      · rw [List.length_take, Nat.min_eq_left (Nat.le_of_lt hlt)]

theorem keepsWhen_in_top (h : Kept types s) (hsplit : s.topItems = before ++ r :: after)
    (hn : n = r ∨ .item n ∉ s.onTile) (it : Item) :
    KeepsWhen types ((s.setItem n it).withStack s.downItems (before ++ n :: after))
      ((types.get it.id).alwaysOnTop = true ∧
      (∀ x ∈ before,
        (s.itemType types x).alwaysOnTopOrder ≤ (types.get it.id).alwaysOnTopOrder) ∧
      ∀ x ∈ after,
        (types.get it.id).alwaysOnTopOrder ≤ (s.itemType types x).alwaysOnTopOrder) := by
  have hn' : n = r ∨ n ∉ s.items := hn.imp_right fun hn hmem => hn (mem_onTile_item.mpr (.inr hmem))
  have hperm : s.items.Perm (r :: (s.downItems ++ (before ++ after))) := by
    rw [← downItems_append_topItems, hsplit, ← List.append_assoc, ← List.append_assoc]
    exact List.perm_middle
  have hperm' : (s.downItems ++ (before ++ n :: after)).Perm
      (n :: (s.downItems ++ (before ++ after))) := by
    rw [← List.append_assoc, ← List.append_assoc]
    exact List.perm_middle
  exact ⟨⟨h.distinct.replace hn hperm hperm', h.distinct.creatures⟩, stacked_in_top h hsplit hn' it⟩

theorem keepsWhen_in_down (h : Kept types s) (hsplit : s.downItems = before ++ r :: after)
    (hn : n = r ∨ .item n ∉ s.onTile) (it : Item) :
    KeepsWhen types ((s.setItem n it).withStack (before ++ n :: after) s.topItems)
      ((types.get it.id).alwaysOnTop = false) := by
  have hn' : n = r ∨ n ∉ s.items := hn.imp_right fun hn hmem => hn (mem_onTile_item.mpr (.inr hmem))
  have hperm : s.items.Perm (r :: (before ++ (after ++ s.topItems))) := by
    rw [← downItems_append_topItems, hsplit, List.append_assoc]
    exact List.perm_middle
  have hperm' : (before ++ n :: after ++ s.topItems).Perm (n :: (before ++ (after ++ s.topItems))) := by
    rw [List.append_assoc]
    exact List.perm_middle
  exact ⟨⟨h.distinct.replace hn hperm hperm', h.distinct.creatures⟩, stacked_in_down h hsplit hn' it⟩

/-- The item takes another type in its place. -/
theorem keepsWhen_setItem (h : Kept types s) (hr : .item r ∈ s.onTile) (it : Item) :
    KeepsWhen types (s.setItem r it) (s.InPlace types r it.id) := by
  have heq : s.setItem r it = (s.setItem r it).withStack s.downItems s.topItems :=
    eq_withStack h.stacked.count
  rw [InPlace]
  rcases located h hr with ⟨hground, -⟩ | ⟨hground, hflag, hsplit, -⟩ |
    ⟨hground, hflag, before, after, hsplit, -⟩
  · have hnot := h.distinct.not_mem_of_ground hground
    exact (h.setItem fun hmem => absurd hmem hnot).keepsWhen (.inl hground)
  · have htop := keepsWhen_in_top h hsplit (.inl rfl) it
    rw [← hsplit, ← heq] at htop
    refine htop.congr ?_
    rw [hflag]
    simp [hground]
  · have hdown := keepsWhen_in_down h hsplit (.inl rfl) it
    rw [← hsplit, ← heq] at hdown
    refine hdown.congr ?_
    rw [hflag]
    simp [hground]

theorem replaceThing_past_ground (s : TileStack) (k : Nat) (n : ItemRef) :
    s.replaceThing (s.ground.toList.length + k) n =
      if k < s.getTopItemCount then { s with items := s.items.set (s.downItemCount + k) n }
      else if k - s.getTopItemCount < s.creatures.length then s
      else if k - s.getTopItemCount - s.creatures.length < s.downItemCount then
        { s with items := s.items.set (k - s.getTopItemCount - s.creatures.length) n }
      else s := by
  have hpos : (if s.ground.isSome then s.ground.toList.length + k - 1
      else s.ground.toList.length + k) = k := by
    cases s.ground <;> simp
  have hnot : ¬ (s.ground.isSome = true ∧ s.ground.toList.length + k = 0) := by
    rintro ⟨hsome, hzero⟩
    cases hground : s.ground with
    | none => simp [hground] at hsome
    | some g => simp [hground] at hzero
  rw [replaceThing, if_neg hnot]
  dsimp only
  rw [hpos]

/-- Another item takes the place. -/
theorem keepsWhen_replaceThing (h : Kept types s) (hr : .item r ∈ s.onTile) (hn : .item n ∉ s.onTile)
    (it : Item) :
    KeepsWhen types ((s.setItem n it).replaceThing (s.getThingIndex types (.item r)).toNat n)
      (s.InPlace types r it.id) := by
  have hlength := length_downItems h.stacked.count
  have hlength' := length_topItems s
  have hitems := downItems_append_topItems s
  rw [InPlace]
  rcases located h hr with ⟨hground, hindex⟩ | ⟨hground, hflag, hsplit, hindex⟩ |
    ⟨hground, hflag, before, after, hsplit, hindex⟩
  · have heq : (s.setItem n it).replaceThing 0 n = { s.setItem n it with ground := some n } := by
      rw [TileStack.replaceThing, if_pos (by simp [setItem, hground])]
    have hmem : n ∉ s.items := fun hmem => hn (mem_onTile_item.mpr (.inr hmem))
    have hset : Kept types (s.setItem n it) := h.setItem fun hn => absurd hn hmem
    rw [hindex, Int.toNat_natCast, heq]
    exact (hset.setGround hn).keepsWhen (.inl hground)
  · generalize s.topItems.take (s.topItems.idxOf r) = before at *
    generalize s.topItems.drop (s.topItems.idxOf r + 1) = after at *
    have hlt : before.length < s.getTopItemCount := by
      rw [← hlength', hsplit, List.length_append, List.length_cons]
      omega
    have hset : s.items.set (s.downItemCount + before.length) n =
        s.downItems ++ (before ++ n :: after) := by
      rw [← hitems, hsplit, ← hlength, List.set_append_right _ _ (Nat.le_add_right _ _),
        Nat.add_sub_cancel_left, List.set_append_right _ _ (Nat.le_refl _), Nat.sub_self,
        List.set_cons_zero]
    have heq : (s.setItem n it).replaceThing (s.ground.toList.length + before.length) n =
        (s.setItem n it).withStack s.downItems (before ++ n :: after) := by
      refine (replaceThing_past_ground (s.setItem n it) before.length n).trans ?_
      rw [if_pos (show before.length < (s.setItem n it).getTopItemCount from hlt), withStack, hlength,
        ← hset]
      rfl
    rw [hindex, Int.toNat_natCast, heq]
    refine (keepsWhen_in_top h hsplit (.inr hn) it).congr ?_
    rw [hflag]
    simp [hground]
  · have hlt : before.length < s.downItemCount := by
      rw [← hlength, hsplit, List.length_append, List.length_cons]
      omega
    have hset : s.items.set before.length n = before ++ n :: after ++ s.topItems := by
      rw [← hitems, hsplit, List.append_assoc, List.set_append_right _ _ (Nat.le_refl _),
        Nat.sub_self, List.cons_append, List.set_cons_zero, List.append_assoc, List.cons_append]
    have heq : (s.setItem n it).replaceThing (s.ground.toList.length +
        (s.getTopItemCount + s.creatures.length + before.length)) n =
        (s.setItem n it).withStack (before ++ n :: after) s.topItems := by
      have htop : (s.setItem n it).getTopItemCount = s.getTopItemCount := rfl
      have hcreatures : (s.setItem n it).creatures.length = s.creatures.length := rfl
      refine (replaceThing_past_ground (s.setItem n it) _ n).trans ?_
      rw [htop, hcreatures, if_neg (by omega), if_neg (by omega), Nat.add_assoc,
        Nat.add_sub_cancel_left, Nat.add_sub_cancel_left,
        if_pos (show before.length < (s.setItem n it).downItemCount from hlt), withStack, ← hset]
      have hcount : (before ++ n :: after).length = s.downItemCount := by
        rw [← hlength, hsplit, List.length_append, List.length_append, List.length_cons,
          List.length_cons]
      rw [hcount]
      rfl
    rw [hindex, Int.toNat_natCast, Nat.add_assoc, Nat.add_assoc, ← Nat.add_assoc s.getTopItemCount,
      heq]
    refine (keepsWhen_in_down h hsplit (.inr hn) it).congr ?_
    rw [hflag]
    simp [hground]

end InPlace

/-! ## Transforming and runs -/

theorem removeThing_gone (h : Kept types s) (hr : .item r ∈ s.onTile) :
    .item r ∉ (s.removeThing types (.item r) (s.item r).getItemCount).onTile := by
  have hindex := (h.stacked.indexed h.distinct).things (.item r) |>.mpr hr
  have hlength := length_downItems h.stacked.count
  rw [removeThing, if_neg hindex]
  rcases located h hr with ⟨hground, -⟩ | ⟨hground, hflag, hsplit, -⟩ |
    ⟨hground, hflag, before, after, hsplit, -⟩
  · rw [if_pos hground, mem_onTile_item, not_or]
    exact ⟨by simp, h.distinct.not_mem_of_ground hground⟩
  · have hmem : r ∈ s.topItems := by
      rw [hsplit]
      exact List.mem_append_right _ List.mem_cons_self
    have hdown : r ∉ s.downItems := fun hdown => by
      rw [h.stacked.down r hdown] at hflag
      cases hflag
    rw [if_neg hground, if_pos hflag, if_pos hmem, mem_onTile_item, not_or]
    refine ⟨hground, fun hleft => ?_⟩
    rcases List.mem_append.mp hleft with hleft | hleft
    · exact hdown hleft
    · exact h.distinct.topItems.not_mem_erase hleft
  · have hmem : r ∈ s.downItems := by
      rw [hsplit]
      exact List.mem_append_right _ List.mem_cons_self
    have htop : r ∉ s.topItems := fun htop => by
      rw [h.stacked.top r htop] at hflag
      cases hflag
    rw [if_neg hground, if_neg (by simp [hflag]), if_pos hmem, if_neg (by simp), mem_onTile_item,
      not_or]
    refine ⟨hground, fun hleft => ?_⟩
    rcases List.mem_append.mp hleft with hleft | hleft
    · exact h.distinct.downItems.not_mem_erase hleft
    · exact htop hleft

theorem transformation_keep {newId : Nat} {newCount : Int}
    (h : s.getThingIndex types (.item r) = -1) : s.transformation types r newId newCount = .keep := by
  simp only [transformation, transformationAux, if_pos h, ite_self]

theorem keepsWhen_updateThing (h : Kept types s) (hr : .item r ∈ s.onTile) (itemId count : Nat)
    (setDefaultSubtype : Bool) :
    KeepsWhen types ((if setDefaultSubtype then s.setItem r ((s.item r).setDefaultSubtype types)
      else s).updateThing types r itemId count) (s.InPlace types r itemId) := by
  have hdefault : ∃ it : Item, it.id = (s.item r).id ∧
      (if setDefaultSubtype then s.setItem r ((s.item r).setDefaultSubtype types) else s) =
        s.setItem r it := by
    split_ifs
    · exact ⟨_, Item.setDefaultSubtype_id types _, rfl⟩
    · exact ⟨s.item r, rfl, by rw [setItem, Function.update_eq_self]⟩
  obtain ⟨it, hid, heq⟩ := hdefault
  have hkept : Kept types (s.setItem r it) := h.setItem fun _ => hid
  have hindex := (hkept.stacked.indexed hkept.distinct).things (.item r) |>.mpr hr
  have hagain (it' : Item) : (s.setItem r it).setItem r it' = s.setItem r it' := by
    rw [setItem, setItem, Function.update_idem]
    rfl
  have hset := keepsWhen_setItem h hr
    ((((s.setItem r it).item r).setID types itemId).setSubType types count)
  rw [Item.setSubType_setID_id] at hset
  rw [heq, updateThing, if_neg hindex, hagain]
  exact hset

/-- A transformation keeps the stack exactly when it fits. -/
theorem keepsWhen_transformItem (h : Kept types s) {newId : Nat} {newCount : Int} {n : ItemRef}
    (hn : .item n ∉ s.onTile) : KeepsWhen types (s.transformItem types r newId newCount n)
      (Fits types s (.transformItem r newId newCount n)) := by
  by_cases hr : .item r ∈ s.onTile
  · rw [transformItem, Fits]
    cases s.transformation types r newId newCount with
    | keep => exact h.keepsWhen trivial
    | readd =>
      refine Kept.keepsWhen ?_ trivial
      have hremoved := h.removeThing (.item r) (s.item r).getItemCount
      have hgone := removeThing_gone h hr
      refine Kept.addThing (hremoved.setItem fun hmem => ?_) hgone
      exact absurd (mem_onTile_item.mpr (.inr hmem)) hgone
    | internalRemoveItem =>
      refine Kept.keepsWhen ?_ trivial
      dsimp only
      rw [TileStack.internalRemoveItem]
      split_ifs
      · exact h
      · exact h.removeThing _ _
    | updateThing itemId count setDefaultSubtype => exact keepsWhen_updateThing h hr itemId count _
    | replaceThing it => exact keepsWhen_replaceThing h hr hn it
  · have hindex : s.getThingIndex types (.item r) = -1 := by
      by_contra hne
      exact hr ((h.stacked.indexed h.distinct).things (.item r) |>.mp hne)
    rw [transformItem, Fits, transformation_keep hindex]
    exact h.keepsWhen trivial

theorem Kept.step (h : Kept types s) {op : Op} (hvalid : op.Valid s) (hfits : Fits types s op) :
    Kept types (op.apply types s) := by
  cases op with
  | addThing thing => exact h.addThing hvalid
  | internalAddThing thing => exact h.internalAddThing hvalid
  | removeThing thing count => exact h.removeThing thing count
  | updateCount r count =>
    rw [Op.apply, updateThing]
    split_ifs
    · exact h
    · exact h.setItem fun _ => Item.setSubType_setID_id _ _ _ _
  | transformItem r newId newCount newItem =>
    obtain ⟨hdistinct, hwhen⟩ := keepsWhen_transformItem h hvalid
    exact ⟨hwhen.mpr hfits, hdistinct⟩
  | setItem r it => exact h.setItem fun hmem => hvalid (mem_onTile_item.mpr (.inr hmem))

theorem kept_of_reachableBy (h : Run.ReachableBy (system types) (Fits types) s) :
    Kept types s := by
  refine h.invariant (I := Kept types) ?_ ?_
  · rintro _ ⟨item, rfl⟩
    exact ⟨⟨Nat.le_refl _, by simp [downItems], by simp [topItems], by simp [topItems]⟩,
      by simp, .nil⟩
  · rintro s op _ hs hfits ⟨hvalid, rfl⟩
    exact hs.step hvalid hfits

/-- When every transformation that maintains a position fits there, the stack stays in order and
the indices name its things; one that does not fit puts the stack out of order. -/
theorem stack_in_order (types : Items) :
    (∀ s, Run.ReachableBy (system types) (Fits types) s → Stacked types s ∧ Indexed types s) ∧
    ∀ s op, Run.ReachableBy (system types) (Fits types) s → op.Valid s → ¬ Fits types s op →
      ¬ Stacked types (op.apply types s) := by
  refine ⟨fun s h => ?_, fun s op h hvalid hnot hstacked => ?_⟩
  · have hkept := kept_of_reachableBy h
    exact ⟨hkept.stacked, hkept.stacked.indexed hkept.distinct⟩
  · have hkept := kept_of_reachableBy h
    cases op with
    | transformItem r newId newCount newItem =>
      exact hnot ((keepsWhen_transformItem hkept hvalid).2.mp hstacked)
    | _ => exact hnot trivial

/-- The ids 1, 2 and 3 are top items of these orders. -/
def topTypes (id : Nat) : ItemType :=
  { ItemType.default with
    id := id
    alwaysOnTop := id = 1 ∨ id = 2 ∨ id = 3
    alwaysOnTopOrder := id }

def topTable : Items where
  get := topTypes
  stackable_id _ h := by cases h
  stackable_plain _ h := by cases h
  stackable_created _ h := by cases h
  floorChange_mem _ _ h := by cases h

/-- A tile with two top items of the orders 1 and 2. -/
def twoTopItems : TileStack where
  items := [1, 2]
  item r := { id := r, count := 1, attributes := none, cls := .item, parent := none }

theorem reachableBy_addThing (h : Run.ReachableBy (system types) (Fits types) s)
    (hthing : thing ∉ s.onTile) :
    Run.ReachableBy (system types) (Fits types) (s.addThing types thing) := by
  have hfits : Fits types s (.addThing thing) := trivial
  have hstep : (system types).step s (.addThing thing) (s.addThing types thing) := ⟨hthing, rfl⟩
  exact h.step hfits hstep

theorem reachableBy_twoTopItems :
    Run.ReachableBy (system topTable) (Fits topTable) twoTopItems := by
  have hnone : Run.ReachableBy (system topTable) (Fits topTable) { item := twoTopItems.item } :=
    .init ⟨_, rfl⟩
  have hfirst := @reachableBy_addThing topTable _ (.item 1) hnone (by decide)
  exact @reachableBy_addThing topTable _ (.item 2) hfirst (by decide)

theorem stack_in_order_twoTopItems :
    Stacked topTable twoTopItems ∧ twoTopItems.getThing 1 = some (.item 2) := by
  obtain ⟨hstacked, hindexed⟩ := (stack_in_order topTable).1 twoTopItems reachableBy_twoTopItems
  exact ⟨hstacked, (hindexed.inverse (.item 2) 1).mpr (by decide)⟩

/-- The first of them becomes one of the order 3 in its place. -/
theorem exists_out_of_order : ∃ (types : Items) (s : TileStack),
    Run.Reachable (system types) s ∧ ¬ Stacked types s := by
  have hstep : (system topTable).step twoTopItems (.transformItem 1 3 (-1) 5)
      (twoTopItems.transformItem topTable 1 3 (-1) 5) :=
    ⟨(by decide : .item 5 ∉ twoTopItems.onTile), rfl⟩
  refine ⟨topTable, _, reachableBy_twoTopItems.reachable.step' hstep, fun h => ?_⟩
  have hordered := h.ordered
  revert hordered
  decide

end TileStack

end Eloth
