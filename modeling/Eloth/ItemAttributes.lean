import Eloth.Item

/-!
# The attributes of an item by value

An item as its property stream shows it: strings are byte strings, and the custom attributes are
held by value. The setters of the server keep the empty string out of the string attributes,
attack speeds at 100 or more, and the keys of custom attributes in lower case.
-/

namespace Eloth

def tolower (b : UInt8) : UInt8 := if 65 ≤ b ∧ b ≤ 90 then b + 32 else b

def asLowerCaseString (s : List UInt8) : List UInt8 := s.map tolower

theorem tolower_tolower (b : UInt8) : tolower (tolower b) = tolower b := by
  unfold tolower
  by_cases h : 65 ≤ b ∧ b ≤ 90
  · have hge : ¬ b + 32 ≤ 90 := by
      have hle := h.2
      have hlo := h.1
      simp only [UInt8.le_iff_toNat_le, UInt8.toNat_add, UInt8.reduceToNat] at *
      omega
    simp [h, hge]
  · simp [h]

abbrev LowerString := { s : List UInt8 // asLowerCaseString s = s }

def LowerString.of (s : List UInt8) : LowerString :=
  ⟨asLowerCaseString s, by simp [asLowerCaseString, tolower_tolower]⟩

@[simp] theorem LowerString.of_val (s : LowerString) : LowerString.of s.1 = s := Subtype.ext s.2

/-! ## Custom attributes -/

/-- `ItemAttributes::CustomAttribute` once it has been given a value. A double is its bits. -/
inductive CustomAttribute where
  | string (value : List UInt8)
  | integer (value : Int64)
  | double (bits : UInt64)
  | boolean (value : Bool)
  deriving DecidableEq

/-- The entries stand in the order in which the hash table is walked. -/
structure CustomAttributeMap where
  entries : List (LowerString × CustomAttribute)
  nodup : (entries.map Prod.fst).Nodup

namespace CustomAttributeMap

def empty : CustomAttributeMap := ⟨[], List.nodup_nil⟩

def size (m : CustomAttributeMap) : Nat := m.entries.length

def find (m : CustomAttributeMap) (key : LowerString) : Option CustomAttribute :=
  m.entries.lookup key

def erase (m : CustomAttributeMap) (key : LowerString) : CustomAttributeMap where
  entries := m.entries.filter fun e => e.1 ≠ key
  nodup := m.nodup.sublist (List.filter_sublist.map _)

def emplace (m : CustomAttributeMap) (key : LowerString) (value : CustomAttribute) :
    CustomAttributeMap :=
  if h : key ∈ m.entries.map Prod.fst then m
  else
    { entries := (key, value) :: m.entries
      nodup := List.nodup_cons.mpr ⟨h, m.nodup⟩ }

variable (m : CustomAttributeMap) (key k : LowerString) (value : CustomAttribute)

theorem find_erase_of_ne (h : k ≠ key) : (m.erase key).find k = m.find k := by
  simp only [find, erase]
  induction m.entries with
  | nil => rfl
  | cons e es ih =>
    by_cases he : e.1 = key
    · have hk : (k == e.1) = false := beq_false_of_ne fun heq => h (heq.trans he)
      rw [List.filter_cons_of_neg (by simpa using he), ih, List.lookup_cons, hk]
    · rw [List.filter_cons_of_pos (by simpa using he), List.lookup_cons, List.lookup_cons, ih]

theorem find_emplace_erase :
    ((m.erase key).emplace key value).find k = if k = key then some value else m.find k := by
  have hfresh : key ∉ (m.erase key).entries.map Prod.fst := by simp [erase]
  rw [emplace, dif_neg hfresh]
  by_cases h : k = key
  · subst h
    simp [find]
  · have hne : (k == key) = false := beq_false_of_ne h
    have hkeep := find_erase_of_ne m key k h
    rw [if_neg h, ← hkeep]
    simp [find, List.lookup_cons, hne]

end CustomAttributeMap

/-! ## Attributes -/

namespace AttrType

def isIntAttrType : AttrType → Bool
  | .actionId | .uniqueId | .date | .weight | .attack | .defense | .extraDefense | .armor
  | .hitChance | .shootRange | .owner | .duration | .decayState | .corpseOwner | .charges
  | .fluidType | .doorId | .decayTo | .attackSpeed => true
  | _ => false

def isStrAttrType : AttrType → Bool
  | .description | .text | .writer | .name | .article | .pluralName => true
  | _ => false

end AttrType

structure ItemAttributes where
  integer : AttrType → Option Int
  string : AttrType → Option { s : List UInt8 // s ≠ [] }
  custom : Option CustomAttributeMap
  attackSpeed_ge : ∀ v ∈ integer .attackSpeed, 100 ≤ v

namespace ItemAttributes

def empty : ItemAttributes where
  integer := fun _ => none
  string := fun _ => none
  custom := none
  attackSpeed_ge := fun _ h => by cases h

def hasAttribute (a : ItemAttributes) (type : AttrType) : Bool :=
  if type.isIntAttrType then (a.integer type).isSome
  else if type.isStrAttrType then (a.string type).isSome
  else if type = .custom then a.custom.isSome
  else false

def getIntAttr (a : ItemAttributes) (type : AttrType) : Int :=
  if type.isIntAttrType then (a.integer type).getD 0 else 0

def getStrAttr (a : ItemAttributes) (type : AttrType) : List UInt8 :=
  match a.string type with
  | some s => if type.isStrAttrType then s.1 else []
  | none => []

def setIntAttr (a : ItemAttributes) (type : AttrType) (value : Int) : ItemAttributes :=
  if type.isIntAttrType then
    let value := if type = .attackSpeed ∧ value < 100 then 100 else value
    { a with
      integer := Function.update a.integer type (some value)
      attackSpeed_ge := by
        intro v hv
        by_cases h : type = .attackSpeed
        · subst h
          simp only [Function.update_self, Option.mem_some_iff] at hv
          subst hv
          simp only [value, true_and]
          split <;> omega
        · rw [Function.update_of_ne (Ne.symm h)] at hv
          exact a.attackSpeed_ge v hv }
  else a

def setStrAttr (a : ItemAttributes) (type : AttrType) (value : List UInt8) : ItemAttributes :=
  if type.isStrAttrType = true then
    if h : value = [] then a
    else { a with string := Function.update a.string type (some ⟨value, h⟩) }
  else a

def removeAttribute (a : ItemAttributes) (type : AttrType) : ItemAttributes where
  integer := Function.update a.integer type none
  string := Function.update a.string type none
  custom := if type = .custom then none else a.custom
  attackSpeed_ge := by
    intro v hv
    by_cases h : type = .attackSpeed
    · subst h
      simp at hv
    · rw [Function.update_of_ne (Ne.symm h)] at hv
      exact a.attackSpeed_ge v hv

def getCustomAttribute (a : ItemAttributes) (key : List UInt8) : Option CustomAttribute :=
  a.custom.bind fun m => m.find (LowerString.of key)

def setCustomAttribute (a : ItemAttributes) (key : List UInt8) (value : CustomAttribute) :
    ItemAttributes :=
  let key := LowerString.of key
  let map := match a.custom with
    | some m => m.erase key
    | none => .empty
  { a with custom := some (map.emplace key value) }

end ItemAttributes

end Eloth
