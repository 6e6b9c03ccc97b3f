import Eloth.StoredAttributes
import Eloth.Sample

/-!
# Equal items, and the stacks they make

Items with their attributes as they lie in memory: the comparison that decides whether two stacks
may merge, the clone that a split makes, and what the move of a stack leaves at its destination.
The comparison is that of the stacking rules elsewhere in the model. A custom map is compared by
its address, so the comparison by value is stated for pairs of which one has no custom map.
-/

namespace Eloth

namespace Stored

structure Item where
  id : Nat
  count : Nat
  attributes : Option ItemAttributes

namespace Item

/-! ## Attributes -/

/-- The attribute block, which counts as an empty one where there is none. -/
def block (item : Item) : ItemAttributes := item.attributes.getD .empty

def attr (item : Item) (type : AttrType) : Option Value := item.block.attr type

def hasAttribute (item : Item) (type : AttrType) : Bool :=
  match item.attributes with
  | none => false
  | some attributes => attributes.hasAttribute type

def getIntAttr (item : Item) (type : AttrType) : Int :=
  match item.attributes with
  | none => 0
  | some attributes => attributes.getIntAttr type

def setIntAttr (item : Item) (type : AttrType) (value : Int) : Item :=
  { item with attributes := some (item.block.setIntAttr type value) }

def setStrAttr (item : Item) (type : AttrType) (value : String) : Item :=
  { item with attributes := some (item.block.setStrAttr type value) }

def removeAttribute (item : Item) (type : AttrType) : Item :=
  { item with attributes := item.attributes.map fun a => a.removeAttribute type }

def setCharges (item : Item) (n : Nat) : Item := item.setIntAttr .charges (n % 2 ^ 16 : Nat)
def setFluidType (item : Item) (n : Nat) : Item := item.setIntAttr .fluidType (n % 2 ^ 16 : Nat)
def setDuration (item : Item) (time : Nat) : Item := item.setIntAttr .duration (toInt32 time)
def getDuration (item : Item) : Nat := (item.getIntAttr .duration % 2 ^ 32).toNat
def setDecaying (item : Item) (decayState : Int) : Item := item.setIntAttr .decayState decayState
def setItemCount (item : Item) (n : Nat) : Item := { item with count := n % 2 ^ 8 }

@[simp] theorem attr_setItemCount (item : Item) (n : Nat) (t : AttrType) :
    (item.setItemCount n).attr t = item.attr t := rfl

theorem attr_setIntAttr (item : Item) {t : AttrType} (ht : t.isIntAttrType = true)
    (hne : t ≠ .attackSpeed) (v : Int) (u : AttrType) :
    (item.setIntAttr t v).attr u = if u = t then some (.integer v) else item.attr u :=
  item.block.attr_setIntAttr ht hne v u

theorem attr_setDecaying (item : Item) (v : Int) (u : AttrType) :
    (item.setDecaying v).attr u = if u = .decayState then some (.integer v) else item.attr u :=
  item.attr_setIntAttr rfl (by decide) v u

theorem attr_setDuration (item : Item) (n : Nat) (u : AttrType) :
    (item.setDuration n).attr u =
      if u = .duration then some (.integer (toInt32 n)) else item.attr u :=
  item.attr_setIntAttr rfl (by decide) _ u

theorem attr_removeAttribute (item : Item) (t u : AttrType) :
    (item.removeAttribute t).attr u = if u = t then none else item.attr u := by
  unfold attr block removeAttribute
  cases item.attributes with
  | none => simp
  | some a => exact a.attr_removeAttribute t u

theorem hasAttribute_eq (item : Item) (t : AttrType) :
    item.hasAttribute t = (item.attr t).isSome := by
  unfold hasAttribute attr block
  cases item.attributes with
  | none => simp
  | some a =>
    rw [Bool.eq_iff_iff, a.hasAttribute_iff, ← Option.ne_none_iff_isSome, ne_eq,
      Option.getD_some, a.attr_eq_none, not_not]

theorem getIntAttr_eq (item : Item) {t : AttrType} (ht : t.isIntAttrType = true) :
    item.getIntAttr t = ((item.attr t).map Value.word).getD 0 := by
  unfold getIntAttr attr block
  cases item.attributes with
  | none => simp
  | some a => exact a.getIntAttr_eq ht

theorem attr_fits {item : Item} {t : AttrType} {v : Value} (h : item.attr t = some v) :
    v.fits t = true :=
  ItemAttributes.attr_fits h

/-! ## Comparison -/

/-- Whether the loops over two attribute lists meet a pair that differs. -/
def differs (x y : Attribute) : Bool :=
  if x.type.isStrAttrType then x.type = y.type && x.value.text != y.value.text
  else x.type = y.type && x.value.word != y.value.word

def equals (item : Item) (otherItem : Option Item) : Bool :=
  match otherItem with
  | none => false
  | some other =>
    if item.id ≠ other.id then false
    else
      match item.attributes, other.attributes with
      | none, none => true
      | none, some b => b.attributeBits = 0
      | some a, none => a.attributeBits = 0
      | some a, some b =>
        if a.attributeBits ≠ b.attributeBits then false
        else a.attributes.all fun x => b.attributes.all fun y => !differs x y

end Item

/-- What the comparison looks at in a union. -/
def Value.key (value : Value) : String × Int := (value.text, value.word)

namespace Value

theorem eq_custom {address : Nat} {map : CustomAttributeMap} {t : AttrType}
    (h : (custom address map).fits t = true) : t = .custom :=
  of_decide_eq_true h

theorem not_int_and_str (t : AttrType) :
    ¬ (t.isIntAttrType = true ∧ t.isStrAttrType = true) := by
  cases t <;> decide

/-- The values that fit one type are of one kind. -/
theorem same_kind {v w : Value} {t : AttrType} (hv : v.fits t = true) (hw : w.fits t = true) :
    (∃ s s', v = .string s ∧ w = .string s') ∨ (∃ n n', v = .integer n ∧ w = .integer n') ∨
      t = .custom ∧ ∃ address map address' map',
        v = .custom address map ∧ w = .custom address' map' := by
  cases v with
  | string s =>
    cases w with
    | string s' => exact .inl ⟨s, s', rfl, rfl⟩
    | integer n' => exact absurd ⟨hw, hv⟩ (not_int_and_str t)
    | custom address' map' => rw [eq_custom hw] at hv; cases hv
  | integer n =>
    cases w with
    | string s' => exact absurd ⟨hv, hw⟩ (not_int_and_str t)
    | integer n' => exact .inr (.inl ⟨n, n', rfl, rfl⟩)
    | custom address' map' => rw [eq_custom hw] at hv; cases hv
  | custom address map =>
    have ht := eq_custom hv
    cases w with
    | string s' => rw [ht] at hw; cases hw
    | integer n' => rw [ht] at hw; cases hw
    | custom address' map' => exact .inr (.inr ⟨ht, address, map, address', map', rfl, rfl⟩)

/-- The value as an item of the rest of the model shows it. -/
def forget : Value → AttrValue
  | .integer value => .integer value
  | .string value => .string value
  | .custom address _ => .custom address

/-- Equal as values: custom maps hold the same entries, wherever they stand. -/
def Same : Value → Value → Prop
  | .integer v, .integer w => v = w
  | .string s, .string s' => s = s'
  | .custom _ map, .custom _ map' => ∀ key, map.find key = map'.find key
  | _, _ => False

theorem same_copy (address : Nat) (v : Value) : (v.copy address).Same v := by
  cases v with
  | integer n => rfl
  | string s => rfl
  | custom address' map => exact fun _ => rfl

theorem key_eq_iff_same {v w : Value} {t : AttrType} (hv : v.fits t = true)
    (hw : w.fits t = true) (ht : t ≠ .custom) : v.key = w.key ↔ v.Same w := by
  rcases same_kind hv hw with ⟨s, s', rfl, rfl⟩ | ⟨n, n', rfl, rfl⟩ | ⟨hcustom, -⟩
  · simp [key, text, word, Same]
  · simp [key, text, word, Same]
  · exact absurd hcustom ht

theorem key_eq_iff_forget {v w : Value} {t : AttrType} (hv : v.fits t = true)
    (hw : w.fits t = true) : v.key = w.key ↔ v.forget = w.forget := by
  rcases same_kind hv hw with ⟨s, s', rfl, rfl⟩ | ⟨n, n', rfl, rfl⟩ |
    ⟨-, address, map, address', map', rfl, rfl⟩ <;> simp [key, text, word, forget]

end Value

theorem differs_eq_false {x y : Attribute} (h : x.type = y.type) :
    Item.differs x y = false ↔ x.value.key = y.value.key := by
  have hx : x.value.fits y.type = true := h ▸ x.fits
  unfold Item.differs Value.key
  rcases Value.same_kind hx y.fits with ⟨s, s', hs, hs'⟩ | ⟨n, n', hn, hn'⟩ |
    ⟨ht, address, map, address', map', hm, hm'⟩
  · have hstr : y.type.isStrAttrType = true := by simpa [hs, Value.fits] using hx
    simp [hstr, h, hs, hs', Value.text, Value.word]
  · have hint : y.type.isIntAttrType = true := by simpa [hn, Value.fits] using hx
    have hstr : ¬ y.type.isStrAttrType = true :=
      fun hstr => Value.not_int_and_str y.type ⟨hint, hstr⟩
    simp [hstr, h, hn, hn', Value.text, Value.word]
  · have hstr : ¬ y.type.isStrAttrType = true := by rw [ht]; decide
    simp [hstr, h, hm, hm', Value.text, Value.word]

theorem differs_of_ne {x y : Attribute} (h : x.type ≠ y.type) : Item.differs x y = false := by
  unfold Item.differs
  split <;> simp [h]

namespace Item

/-- The bits and the loops agree exactly where every type reads the same in both blocks. -/
theorem blocks_agree (a b : ItemAttributes) :
    (a.attributeBits = b.attributeBits ∧
        (a.attributes.all fun x => b.attributes.all fun y => !differs x y) = true) ↔
      ∀ t, (a.attr t).map Value.key = (b.attr t).map Value.key := by
  have hbits : a.attributeBits = b.attributeBits ↔
      ∀ t, t ∈ a.attributes.map Attribute.type ↔ t ∈ b.attributes.map Attribute.type := by
    rw [a.bits, b.bits, bitsOf_eq_iff]
  rw [hbits]
  simp only [List.all_eq_true, Bool.not_eq_true']
  constructor
  · rintro ⟨htypes, hall⟩ t
    cases ha : a.attr t with
    | none =>
      have hb : b.attr t = none := by
        rw [ItemAttributes.attr_eq_none, ← htypes, ← ItemAttributes.attr_eq_none]
        exact ha
      rw [hb]
    | some v =>
      obtain ⟨x, hx, rfl, rfl⟩ := (a.attr_eq_some _ _).mp ha
      obtain ⟨y, hy, hyt⟩ := List.mem_map.mp ((htypes _).mp (List.mem_map_of_mem hx))
      have hkey := (differs_eq_false hyt.symm).mp (hall x hx y hy)
      have hb : b.attr x.type = some y.value := (b.attr_eq_some _ _).mpr ⟨y, hy, hyt, rfl⟩
      rw [hb, Option.map_some, Option.map_some, hkey]
  · intro h
    have htypes : ∀ t,
        t ∈ a.attributes.map Attribute.type ↔ t ∈ b.attributes.map Attribute.type := by
      intro t
      have hnone : a.attr t = none ↔ b.attr t = none := by
        rw [← Option.map_eq_none_iff, h t, Option.map_eq_none_iff]
      rw [← not_iff_not, ← a.attr_eq_none, ← b.attr_eq_none, hnone]
    refine ⟨htypes, fun x hx y hy => ?_⟩
    by_cases hxy : x.type = y.type
    · have ha : a.attr x.type = some x.value := (a.attr_eq_some _ _).mpr ⟨x, hx, rfl, rfl⟩
      have hb : b.attr x.type = some y.value :=
        (b.attr_eq_some _ _).mpr ⟨y, hy, hxy.symm, rfl⟩
      have hkey := h x.type
      rw [ha, hb, Option.map_some, Option.map_some, Option.some.injEq] at hkey
      exact (differs_eq_false hxy).mpr hkey
    · exact differs_of_ne hxy

theorem equals_blocks (a b : Item) :
    a.equals (some b) = true ↔ a.id = b.id ∧
      a.block.attributeBits = b.block.attributeBits ∧
        (a.block.attributes.all fun x => b.block.attributes.all fun y => !differs x y) = true := by
  have hbits : ItemAttributes.empty.attributeBits = 0 := rfl
  have hnone : ItemAttributes.empty.attributes = [] := rfl
  obtain ⟨id, count, x⟩ := a
  obtain ⟨id', count', y⟩ := b
  by_cases hid : id = id'
  · subst hid
    cases x with
    | none =>
      cases y with
      | none => simp [equals, block, hnone]
      | some y =>
        have hzero : y.attributeBits = 0 ↔ 0 = y.attributeBits := ⟨Eq.symm, Eq.symm⟩
        simp only [equals, block, Option.getD_none, Option.getD_some, hbits, hnone, ← hzero]
        simp
    | some x =>
      cases y with
      | none => simp [equals, block, hbits, hnone]
      | some y => simp [equals, block]
  · simp [equals, hid]

theorem equals_iff (a b : Item) :
    a.equals (some b) = true ↔
      a.id = b.id ∧ ∀ t, (a.attr t).map Value.key = (b.attr t).map Value.key := by
  rw [equals_blocks, blocks_agree]
  rfl

theorem equals_equivalence : Equivalence fun a b : Item => a.equals (some b) = true where
  refl a := (equals_iff a a).mpr ⟨rfl, fun _ => rfl⟩
  symm h := by
    rw [equals_iff] at h ⊢
    exact ⟨h.1.symm, fun t => (h.2 t).symm⟩
  trans h h' := by
    rw [equals_iff] at h h' ⊢
    exact ⟨h.1.trans h'.1, fun t => (h.2 t).trans (h'.2 t)⟩

/-- The same attributes with equal values. -/
def SameAttributes (a b : Item) : Prop := ∀ t, Option.Rel Value.Same (a.attr t) (b.attr t)

def BothCustom (a b : Item) : Prop :=
  a.hasAttribute .custom = true ∧ b.hasAttribute .custom = true

theorem equals_iff_same {a b : Item} (h : ¬ a.BothCustom b) :
    a.equals (some b) = true ↔ a.id = b.id ∧ a.SameAttributes b := by
  rw [equals_iff]
  refine and_congr_right fun _ => forall_congr' fun t => ?_
  cases ha : a.attr t with
  | none =>
    cases hb : b.attr t with
    | none => exact iff_of_true rfl .none
    | some w => exact iff_of_false (fun heq => nomatch heq) (fun hrel => nomatch hrel)
  | some v =>
    cases hb : b.attr t with
    | none => exact iff_of_false (fun heq => nomatch heq) (fun hrel => nomatch hrel)
    | some w =>
      have ht : t ≠ .custom := by
        rintro rfl
        exact h ⟨by rw [hasAttribute_eq, ha]; rfl, by rw [hasAttribute_eq, hb]; rfl⟩
      have hkey := Value.key_eq_iff_same (attr_fits ha) (attr_fits hb) ht
      rw [Option.map_some, Option.map_some, Option.some.injEq, hkey]
      exact ⟨.some, fun hrel => by cases hrel; assumption⟩

def toItem (item : Item) (cls : ItemClass) (parent : Option Cylinder) : Eloth.Item where
  id := item.id
  count := item.count
  attributes := item.attributes.map fun a t => (a.attr t).map Value.forget
  cls := cls
  parent := parent

theorem attr_toItem (item : Item) (cls : ItemClass) (parent : Option Cylinder) (t : AttrType) :
    (item.toItem cls parent).attr t = (item.attr t).map Value.forget := by
  unfold toItem Eloth.Item.attr attr block
  cases item.attributes with
  | none => simp
  | some a => rfl

/-- The comparison is the one by which the stacking rules of the model are stated. -/
theorem equals_toItem (a b : Item) (cls cls' : ItemClass) (parent parent' : Option Cylinder) :
    a.equals (some b) = (a.toItem cls parent).equals (b.toItem cls' parent') := by
  have hall : ∀ t, t ∈ AttrType.all := fun t => by cases t <;> decide
  have hkeys : ∀ t, (a.attr t).map Value.key = (b.attr t).map Value.key ↔
      (a.attr t).map Value.forget = (b.attr t).map Value.forget := by
    intro t
    cases ha : a.attr t with
    | none => cases b.attr t <;> simp
    | some v =>
      cases hb : b.attr t with
      | none => simp
      | some w =>
        have hkey := Value.key_eq_iff_forget (attr_fits ha) (attr_fits hb)
        rw [Option.map_some, Option.map_some, Option.map_some, Option.map_some,
          Option.some.injEq, Option.some.injEq, hkey]
  rw [Bool.eq_iff_iff, equals_iff, Eloth.Item.equals, decide_eq_true_eq]
  refine and_congr_right fun _ => ?_
  simp only [attr_toItem, hkeys]
  exact ⟨fun h t _ => h t, fun h t => h t (hall t)⟩

/-! ## Types and construction -/

variable (items : Items)

def getDefaultDuration (item : Item) : Nat := (items.get item.id).decayTime * 1000 % 2 ^ 32

def setDefaultDuration (item : Item) : Item :=
  if item.getDefaultDuration items ≠ 0 then item.setDuration (item.getDefaultDuration items)
  else item

def setSubType (item : Item) (n : Nat) : Item :=
  let it := items.get item.id
  if it.isFluidContainer || it.isSplash then item.setFluidType n
  else if it.stackable then item.setItemCount n
  else if it.charges ≠ 0 then item.setCharges n
  else item.setItemCount n

def setID (item : Item) (newid : Nat) : Item :=
  let prevIt := items.get item.id
  let it := items.get newid
  let newDuration := it.decayTime * 1000 % 2 ^ 32
  let renamed : Item := { item with id := newid }
  let cleared :=
    if newDuration = 0 ∧ it.stopTime = false ∧ it.decayTo < 0 then
      (renamed.removeAttribute .decayState).removeAttribute .duration
    else renamed
  let unowned := cleared.removeAttribute .corpseOwner
  if 0 < newDuration ∧ (prevIt.stopTime = false ∨ unowned.hasAttribute .duration = false) then
    (unowned.setDecaying DECAYING_FALSE).setDuration newDuration
  else unowned

def new (type count : Nat) : Item :=
  let it := items.get type
  let base : Item := { id := type, count := 1, attributes := none }
  let counted :=
    if it.isFluidContainer || it.isSplash then base.setFluidType count
    else if it.stackable then
      if count ≠ 0 then base.setItemCount count
      else if it.charges ≠ 0 then base.setItemCount it.charges
      else base
    else if it.charges ≠ 0 then
      if count ≠ 0 then base.setCharges count else base.setCharges it.charges
    else base
  counted.setDefaultDuration items

def CreateItem (type count : Nat) : Option Item :=
  let it := items.get type
  if it.group = .deprecated then none
  else
    let count := if it.stackable ∧ count = 0 then 1 else count
    if it.id = 0 then none
    else if it.isDepot || it.isContainer || it.isTeleport || it.isMagicField || it.isDoor ||
        it.isTrashHolder || it.isMailbox then some (new items type 0)
    else if it.isBed then
      some ((new items type 0).setStrAttr .description "Nobody is sleeping there.")
    else some (new items (createdId type) count)

/-- `Item::clone` up to the entry in `toDecayItems`; `address` is that of a copied custom map. -/
def clone (item : Item) (address : Nat) : Option Item :=
  (CreateItem items item.id item.count).map fun copy =>
    match item.attributes with
    | none => copy
    | some attributes =>
      let copy := { copy with attributes := some (attributes.copy address) }
      if 0 < copy.getDuration then copy.setDecaying DECAYING_TRUE else copy

/-- What `updateThing` of every cylinder does to the item itself. -/
def updateThing (item : Item) (itemId count : Nat) : Item :=
  (item.setID items itemId).setSubType items (count % 2 ^ 16)

end Item

/-- The stack at the destination and the item that is still to be added there. -/
structure StackMove where
  toItem : Option Item
  moveItem : Option Item

namespace Item

variable (items : Items)

/-- `std::min<uint32_t>(100 - toItem->getItemCount(), m)`. -/
def mergedCount (toItem : Item) (m : Nat) : Nat :=
  min ((100 - toItem.count : Int) % 2 ^ 32).toNat m

/-- The part of `Game::internalMoveItem` under `item->isStackable()`, once `m` units have been
taken off the source. -/
def moveStack (item : Item) (toItem : Option Item) (m address : Nat) : Option StackMove := do
  let n := match toItem with
    | some target => if item.equals toItem then mergedCount target m else 0
    | none => 0
  let updated := toItem.map fun target =>
    if item.equals toItem then target.updateThing items target.id (target.count + n) else target
  let newCount := toInt32 (m - n)
  if 0 < newCount then
    let copy ← item.clone items address
    return { toItem := updated, moveItem := some (copy.setItemCount newCount.toNat) }
  else
    return { toItem := updated, moveItem := none }

/-! ## What a clone keeps -/

variable {items : Items} {item : Item}

theorem getDuration_eq {a b : Item}
    (h : (a.attr .duration).map Value.word = (b.attr .duration).map Value.word) :
    a.getDuration = b.getDuration := by
  rw [getDuration, getDuration, a.getIntAttr_eq rfl, b.getIntAttr_eq rfl, h]

theorem copied_duration (attributes : ItemAttributes) (address id count : Nat) :
    getDuration ⟨id, count, some (attributes.copy address)⟩ =
      getDuration ⟨id, count, some attributes⟩ := by
  apply getDuration_eq
  have hcopy := attributes.attr_copy address .duration
  simp only [attr, block, Option.getD_some, hcopy, Option.map_map]
  cases h : attributes.attr .duration with
  | none => rfl
  | some v =>
    have hfit := ItemAttributes.attr_fits h
    cases v with
    | integer n => rfl
    | string s => rfl
    | custom a map => exact absurd (Value.eq_custom hfit) (by decide)

/-- Creating the item anew gives it its id, and no block where the original has none. -/
def Recreated (items : Items) (item : Item) : Prop :=
  ∃ fresh, CreateItem items item.id item.count = some fresh ∧ fresh.id = item.id ∧
    (item.attributes = none → fresh.attributes = none)

/-- What a clone reads under a type. -/
def cloned (item : Item) (t : AttrType) : Option Value :=
  if t = .decayState ∧ 0 < item.getDuration then some (.integer DECAYING_TRUE) else item.attr t

theorem clone_spec (h : item.Recreated items) (address : Nat) :
    ∃ copy, item.clone items address = some copy ∧ copy.id = item.id ∧
      ∀ t, copy.attr t = (item.cloned t).map (Value.copy address) := by
  obtain ⟨fresh, hfresh, hid, hbare⟩ := h
  rw [clone, hfresh, Option.map_some]
  refine ⟨_, rfl, ?_⟩
  cases h : item.attributes with
  | none =>
    have hnone : ∀ t, item.attr t = none := fun t => by simp [attr, block, h]
    have hduration : item.getDuration = 0 := by simp [getDuration, getIntAttr, h]
    refine ⟨hid, fun t => ?_⟩
    have hfresh : fresh.attr t = none := by simp [attr, block, hbare h]
    simp [cloned, hnone, hduration, hfresh]
  | some attributes =>
    have hdur : getDuration { fresh with attributes := some (attributes.copy address) } =
        item.getDuration := by
      rw [copied_duration]
      exact getDuration_eq (by simp [attr, block, h])
    have hcopy : ∀ t, attr { fresh with attributes := some (attributes.copy address) } t =
        (item.attr t).map (Value.copy address) := fun t => by
      simp [attr, block, h, attributes.attr_copy]
    simp only [hdur]
    split
    · next hpos =>
      refine ⟨hid, fun t => ?_⟩
      rw [attr_setDecaying, cloned]
      by_cases ht : t = .decayState
      · simp [ht, hpos, Value.copy]
      · simp [ht, hcopy]
    · next hpos =>
      refine ⟨hid, fun t => ?_⟩
      simp [cloned, hpos, hcopy]

/-- The copy holds the values of the original, and it decays. -/
theorem cloned_same {copy : Item} {address : Nat}
    (h : ∀ t, copy.attr t = (item.cloned t).map (Value.copy address)) (t : AttrType) :
    Option.Rel Value.Same (copy.attr t) (item.cloned t) := by
  rw [h t]
  cases item.cloned t with
  | none => exact .none
  | some v => exact .some (Value.same_copy address v)

/-- A clone without a custom map equals its original unless its decay begins with it. -/
theorem equals_clone_iff {copy : Item} {address : Nat} (hid : copy.id = item.id)
    (hcustom : item.hasAttribute .custom = false)
    (h : ∀ t, copy.attr t = (item.cloned t).map (Value.copy address)) :
    item.equals (some copy) = true ↔
      (0 < item.getDuration → item.attr .decayState = some (.integer DECAYING_TRUE)) := by
  have hplain : ∀ t, ((item.attr t).map (Value.copy address)).map Value.key =
      (item.attr t).map Value.key := by
    intro t
    cases ht : item.attr t with
    | none => rfl
    | some v =>
      cases v with
      | integer n => rfl
      | string s => rfl
      | custom address' map =>
        have hcus : t = .custom := Value.eq_custom (attr_fits ht)
        rw [hasAttribute_eq, ← hcus, ht] at hcustom
        cases hcustom
  rw [equals_iff, and_iff_right hid.symm]
  constructor
  · intro hkeys hpos
    have hdecay := hkeys .decayState
    rw [h, cloned, if_pos ⟨rfl, hpos⟩] at hdecay
    cases hd : item.attr .decayState with
    | none => rw [hd] at hdecay; cases hdecay
    | some v =>
      have hfit := attr_fits hd
      cases v with
      | integer n => simpa [hd, Value.key, Value.copy, Value.text, Value.word] using hdecay
      | string s => cases hfit
      | custom a map => exact absurd (Value.eq_custom hfit) (by decide)
  · intro hdecay t
    rw [h, cloned]
    split
    · next ht => rw [ht.1, hdecay ht.2]; rfl
    · exact (hplain t).symm

/-! ## What a merge leaves -/

/-- What a stack reads under a type once `setID` has been called with its own id. -/
def refreshed (items : Items) (item : Item) (t : AttrType) : Option Value :=
  let it := items.get item.id
  let newDuration := it.decayTime * 1000 % 2 ^ 32
  if t = .corpseOwner then none
  else if t ≠ .duration ∧ t ≠ .decayState then item.attr t
  else if newDuration = 0 ∧ it.stopTime = false ∧ it.decayTo < 0 then none
  else if 0 < newDuration ∧ (it.stopTime = false ∨ item.attr .duration = none) then
    some (.integer (if t = .duration then toInt32 newDuration else DECAYING_FALSE))
  else item.attr t

/-- A type that does not decay drops both attributes of decay. -/
theorem attr_cleared (item : Item) (P : Prop) [Decidable P] (t : AttrType) :
    (if P then (item.removeAttribute .decayState).removeAttribute .duration else item).attr t =
      if P ∧ (t = .duration ∨ t = .decayState) then none else item.attr t := by
  by_cases hclear : P
  · rw [if_pos hclear, attr_removeAttribute, attr_removeAttribute]
    by_cases hdur : t = .duration
    · simp [hclear, hdur]
    · by_cases hstate : t = .decayState
      · simp [hclear, hstate]
      · rw [if_neg hdur, if_neg hstate, if_neg fun h => h.2.elim hdur hstate]
  · rw [if_neg hclear, if_neg fun h => hclear h.1]

theorem attr_setID (items : Items) (item : Item) (t : AttrType) :
    (item.setID items item.id).attr t = item.refreshed items t := by
  unfold setID refreshed
  extract_lets it newDuration renamed cleared unowned
  have hunowned : ∀ u, unowned.attr u = if u = .corpseOwner then none
      else if (newDuration = 0 ∧ it.stopTime = false ∧ it.decayTo < 0) ∧
          (u = .duration ∨ u = .decayState) then none
      else item.attr u := by
    intro u
    rw [attr_removeAttribute, attr_cleared]
  have hlast : ((unowned.setDecaying DECAYING_FALSE).setDuration newDuration).attr t =
      if t = .duration then some (.integer (toInt32 newDuration))
      else if t = .decayState then some (.integer DECAYING_FALSE) else unowned.attr t := by
    rw [attr_setDuration, attr_setDecaying]
  have hhas : 0 < newDuration → (unowned.hasAttribute .duration = false ↔
      item.attr .duration = none) := by
    intro hpos
    rw [hasAttribute_eq, hunowned, if_neg (by decide), if_neg (fun h => by omega),
      Option.isSome_eq_false_iff, Option.isNone_iff_eq_none]
  have hguard : (0 < newDuration ∧ (it.stopTime = false ∨ unowned.hasAttribute .duration = false))
      ↔ 0 < newDuration ∧ (it.stopTime = false ∨ item.attr .duration = none) :=
    and_congr_right fun hpos => or_congr_right (hhas hpos)
  have hread : ((if 0 < newDuration ∧
        (it.stopTime = false ∨ unowned.hasAttribute .duration = false) then
      (unowned.setDecaying DECAYING_FALSE).setDuration newDuration else unowned)).attr t =
      if 0 < newDuration ∧ (it.stopTime = false ∨ item.attr .duration = none) then
        ((unowned.setDecaying DECAYING_FALSE).setDuration newDuration).attr t
      else unowned.attr t := by
    rw [apply_ite fun x : Item => x.attr t]
    exact if_congr hguard rfl rfl
  refine hread.trans ?_
  rw [hlast, hunowned]
  have hexcl : (newDuration = 0 ∧ it.stopTime = false ∧ it.decayTo < 0) →
      ¬ (0 < newDuration ∧ (it.stopTime = false ∨ item.attr .duration = none)) := by
    rintro ⟨hzero, -⟩ ⟨hpos, -⟩
    omega
  by_cases hstate : t = .duration ∨ t = .decayState
  · have hown : t ≠ .corpseOwner := by rintro rfl; exact hstate.elim nofun nofun
    have hnot : ¬ (t ≠ .duration ∧ t ≠ .decayState) := fun h => hstate.elim h.1 h.2
    simp only [if_neg hown, if_neg hnot]
    by_cases hclear : newDuration = 0 ∧ it.stopTime = false ∧ it.decayTo < 0
    · rw [if_neg (hexcl hclear), if_pos ⟨hclear, hstate⟩, if_pos hclear]
    · rw [if_neg hclear]
      refine if_congr Iff.rfl ?_ ?_
      · by_cases hdur : t = .duration
        · rw [if_pos hdur, if_pos hdur]
        · rw [if_neg hdur, if_neg hdur, if_pos (hstate.resolve_left hdur)]
      · rw [if_neg fun h => hclear h.1]
  · rw [not_or] at hstate
    simp [hstate]

theorem updateThing_spec (h : (items.get item.id).stackable = true) (n : Nat) :
    (item.updateThing items item.id n).id = item.id ∧
      ∀ t, (item.updateThing items item.id n).attr t = item.refreshed items t := by
  have hid : (item.setID items item.id).id = item.id := by
    unfold setID
    dsimp only
    split_ifs <;> rfl
  have hplain := items.stackable_plain _ h
  simp only [ItemType.isPlain, decide_eq_true_eq] at hplain
  have hcount : item.updateThing items item.id n =
      (item.setID items item.id).setItemCount (n % 2 ^ 16) := by
    unfold updateThing setSubType
    simp [hid, h, ItemType.isFluidContainer, ItemType.isSplash, hplain]
  rw [hcount]
  exact ⟨hid, fun t => (attr_setItemCount _ _ t).trans (attr_setID items item t)⟩

theorem recreated_of_stackable (h : (items.get item.id).stackable = true)
    (hbare : item.attributes = none → item.getDefaultDuration items = 0) :
    item.Recreated items := by
  have hplain := items.stackable_plain _ h
  simp only [ItemType.isPlain, decide_eq_true_eq] at hplain
  have hid : (items.get item.id).id ≠ 0 := by
    rw [(items.stackable_id _ h).2]
    exact (items.stackable_id _ h).1
  have hcreate : ∃ n, CreateItem items item.id item.count = some (new items item.id n) := by
    refine ⟨if item.count = 0 then 1 else item.count, ?_⟩
    unfold CreateItem
    simp [h, hplain, hid, items.stackable_created _ h, ItemType.isDepot, ItemType.isContainer,
      ItemType.isTeleport, ItemType.isMagicField, ItemType.isDoor, ItemType.isTrashHolder,
      ItemType.isMailbox, ItemType.isBed]
  obtain ⟨n, hn⟩ := hcreate
  have hnew : ∃ k, new items item.id n =
      setDefaultDuration items { id := item.id, count := k, attributes := none } := by
    unfold new
    simp only [ItemType.isFluidContainer, ItemType.isSplash, hplain, h]
    by_cases hzero : n = 0
    · by_cases hcharges : (items.get item.id).charges = 0
      · exact ⟨1, by simp [hzero, hcharges]⟩
      · exact ⟨(items.get item.id).charges % 2 ^ 8, by simp [hzero, hcharges, setItemCount]⟩
    · exact ⟨n % 2 ^ 8, by simp [hzero, setItemCount]⟩
  obtain ⟨k, hk⟩ := hnew
  refine ⟨_, hn, ?_, fun hnone => ?_⟩
  · rw [hk, setDefaultDuration]
    split <;> rfl
  · rw [hk, setDefaultDuration, if_neg]
    exact not_not.mpr (hbare hnone)

theorem moveStack_spec (h : (items.get item.id).stackable = true)
    (hbare : item.attributes = none → item.getDefaultDuration items = 0)
    (toItem : Option Item) (m address : Nat) :
    ∃ moved, moveStack items item toItem m address = some moved ∧
      (∀ unit, moved.moveItem = some unit →
        unit.id = item.id ∧ ∀ t, Option.Rel Value.Same (unit.attr t) (item.cloned t)) ∧
      ∀ target, toItem = some target → moved.toItem = some
        (if item.equals toItem then
          target.updateThing items target.id (target.count + mergedCount target m)
        else target) := by
  obtain ⟨copy, hcopy, hid, hattr⟩ := clone_spec (recreated_of_stackable h hbare) address
  unfold moveStack
  extract_lets n updated newCount
  have hupdated : ∀ target, toItem = some target → updated = some
      (if item.equals toItem then
        target.updateThing items target.id (target.count + mergedCount target m)
      else target) := by
    rintro target rfl
    simp only [updated, n, Option.map_some, Option.some.injEq]
    split <;> rfl
  split
  · rw [hcopy]
    refine ⟨_, rfl, ?_, hupdated⟩
    intro unit hunit
    obtain rfl : copy.setItemCount newCount.toNat = unit := by simpa using hunit
    exact ⟨hid, fun t => cloned_same hattr t⟩
  · exact ⟨_, rfl, (fun unit hunit => nomatch hunit), hupdated⟩

/-- The comparison sorts items by id and values, a clone differs from its original by the start
of its decay alone, and the units of a moved stack keep what they had, up to what `setID` does to
the decay of the stack they join. -/
theorem attributes_kept (items : Items) :
    (Equivalence fun a b : Item => a.equals (some b) = true) ∧
    (∀ a b : Item, ¬ a.BothCustom b →
      (a.equals (some b) = true ↔ a.id = b.id ∧ a.SameAttributes b)) ∧
    (∀ (item : Item) (address : Nat), item.Recreated items →
      ∃ copy, item.clone items address = some copy ∧ copy.id = item.id ∧
        (∀ t, Option.Rel Value.Same (copy.attr t) (item.cloned t)) ∧
        (item.hasAttribute .custom = false →
          (item.equals (some copy) = true ↔
            (0 < item.getDuration → item.attr .decayState = some (.integer DECAYING_TRUE))))) ∧
    ∀ (item : Item) (toItem : Option Item) (m address : Nat),
      (items.get item.id).stackable = true →
      (item.attributes = none → item.getDefaultDuration items = 0) →
      ∃ moved, moveStack items item toItem m address = some moved ∧
        (∀ unit, moved.moveItem = some unit →
          unit.id = item.id ∧ ∀ t, Option.Rel Value.Same (unit.attr t) (item.cloned t)) ∧
        (∀ target, toItem = some target → item.equals toItem = false →
          moved.toItem = some target) ∧
        ∀ target, toItem = some target → item.equals toItem = true →
          ∃ stack, moved.toItem = some stack ∧ stack.id = target.id ∧
            (∀ t, stack.attr t = target.refreshed items t) ∧
            (¬ item.BothCustom target →
              ∀ t, t ≠ .corpseOwner → t ≠ .duration → t ≠ .decayState →
                Option.Rel Value.Same (item.attr t) (stack.attr t)) := by
  refine ⟨equals_equivalence, fun a b h => equals_iff_same h, ?_, ?_⟩
  · intro item address hrec
    obtain ⟨copy, hcopy, hid, hattr⟩ := clone_spec hrec address
    exact ⟨copy, hcopy, hid, cloned_same hattr,
      fun hcustom => equals_clone_iff hid hcustom hattr⟩
  · intro item toItem m address hstack hbare
    obtain ⟨moved, hmoved, hunits, htarget⟩ := moveStack_spec hstack hbare toItem m address
    refine ⟨moved, hmoved, hunits, ?_, ?_⟩
    · intro target ht heq
      simpa [heq] using htarget target ht
    · intro target ht heq
      have hstackid : (items.get target.id).stackable = true := by
        rw [ht] at heq
        rw [← ((equals_iff item target).mp heq).1]
        exact hstack
      obtain ⟨hid, hattr⟩ := updateThing_spec hstackid (target.count + mergedCount target m)
      refine ⟨_, by rw [htarget target ht, if_pos heq], hid, hattr, ?_⟩
      intro hcustom t hown hdur hstate
      rw [ht] at heq
      have hsame := ((equals_iff_same hcustom).mp heq).2 t
      rw [hattr t, refreshed]
      simpa [hown, hdur, hstate] using hsame

/-- A torch that was given a duration and does not burn yet. -/
def unlit : Item := setDuration { id := 100, count := 1, attributes := none } 5000

theorem unlit_clone_differs :
    ¬ ∀ (items : Items) (item copy : Item) (address : Nat), item.Recreated items →
      item.clone items address = some copy → item.equals (some copy) = true := by
  intro h
  have hrec : unlit.Recreated (Items.ofEntries [{ ItemType.default with id := 100 }]) :=
    ⟨_, rfl, rfl, (fun h => nomatch h)⟩
  obtain ⟨copy, hcopy, -, -⟩ := clone_spec hrec 0
  have heq := h _ _ copy 0 hrec hcopy
  obtain rfl := Option.some.inj hcopy
  exact absurd heq (by decide)

end Item

end Stored

end Eloth
