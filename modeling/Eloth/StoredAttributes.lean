import Mathlib.Data.List.Nodup
import Mathlib.Data.List.Perm.Lattice
import Eloth.ItemAttributes

/-!
# The attribute list of an item

`ItemAttributes` as it lies in memory: a vector of tagged unions and the word of their bits. A
structure carries what every setter keeps, namely that no type stands twice, that the word has
the bits of the types listed, and that the union holds the kind of value its tag says. Reading an
attribute by type is then a function that each setter updates at one place.
-/

namespace Eloth

namespace AttrType

/-- The position of the bit that stands for the type. -/
def bit : AttrType → Nat
  | .actionId => 0 | .uniqueId => 1 | .description => 2 | .text => 3 | .date => 4
  | .writer => 5 | .name => 6 | .article => 7 | .pluralName => 8 | .weight => 9
  | .attack => 10 | .defense => 11 | .extraDefense => 12 | .armor => 13 | .hitChance => 14
  | .shootRange => 15 | .owner => 16 | .duration => 17 | .decayState => 18
  | .corpseOwner => 19 | .charges => 20 | .fluidType => 21 | .doorId => 22 | .decayTo => 23
  | .wrapId => 24 | .storeItem => 25 | .attackSpeed => 26 | .custom => 31

theorem bit_lt (t : AttrType) : t.bit < 32 := by cases t <;> decide

theorem bit_injective : Function.Injective bit := by
  have hread : Function.LeftInverse (fun n => (all.find? fun t => t.bit = n).getD .custom) bit := by
    intro t
    cases t <;> rfl
  exact hread.injective

def mask (t : AttrType) : BitVec 32 := BitVec.twoPow 32 t.bit

theorem mask_and (t : AttrType) (bits : BitVec 32) :
    t.mask &&& bits ≠ 0 ↔ bits.getLsbD t.bit = true := by
  have hmask : t.mask ≠ 0 := by cases t <;> decide
  rw [mask, BitVec.twoPow_and]
  split
  · next h => exact iff_of_true hmask h
  · next h => exact iff_of_false (fun hne => hne rfl) h

end AttrType

namespace Stored

/-- The union of `ItemAttributes::Attribute` with what its pointers lead to. A custom map also
shows the address at which it stands. -/
inductive Value where
  | integer (value : Int)
  | string (value : String)
  | custom (address : Nat) (map : CustomAttributeMap)

namespace Value

def fits : Value → AttrType → Bool
  | .integer _, type => type.isIntAttrType
  | .string _, type => type.isStrAttrType
  | .custom _ _, type => type = .custom

/-- `*value.string`. -/
def text : Value → String
  | .string value => value
  | _ => ""

/-- The union read as `value.integer`. -/
def word : Value → Int
  | .integer value => value
  | .custom address _ => address
  | .string _ => 0

/-- What the copy constructor of `Attribute` makes; `address` is that of the new map. -/
def copy (address : Nat) : Value → Value
  | .custom _ map => .custom address map
  | value => value

theorem fits_copy (address : Nat) (value : Value) (type : AttrType) :
    (value.copy address).fits type = value.fits type := by
  cases value <;> rfl

end Value

structure Attribute where
  type : AttrType
  value : Value
  fits : value.fits type = true

def bitsOf (types : List AttrType) : BitVec 32 :=
  types.foldr (fun t bits => t.mask ||| bits) 0

theorem getLsbD_bitsOf (types : List AttrType) (t : AttrType) :
    (bitsOf types).getLsbD t.bit = true ↔ t ∈ types := by
  induction types with
  | nil => simp [bitsOf]
  | cons u types ih =>
    have hu : u.mask.getLsbD t.bit = true ↔ t = u := by
      simp only [AttrType.mask, BitVec.getLsbD_twoPow, u.bit_lt, decide_true, Bool.true_and,
        decide_eq_true_eq]
      exact ⟨fun h => (AttrType.bit_injective h).symm, fun h => by rw [h]⟩
    rw [List.mem_cons, ← hu, ← ih, ← Bool.or_eq_true, ← BitVec.getLsbD_or]
    rfl

theorem getLsbD_bitsOf_eq (types : List AttrType) (i : Nat) :
    (bitsOf types).getLsbD i = true ↔ ∃ t ∈ types, t.bit = i := by
  induction types with
  | nil => simp [bitsOf]
  | cons u types ih =>
    have hu : u.mask.getLsbD i = true ↔ u.bit = i := by
      simp [AttrType.mask, BitVec.getLsbD_twoPow, u.bit_lt]
    rw [List.exists_mem_cons_iff, ← hu, ← ih, ← Bool.or_eq_true, ← BitVec.getLsbD_or]
    rfl

/-- The word of bits says which types are listed, and no more. -/
theorem bitsOf_eq_iff (types others : List AttrType) :
    bitsOf types = bitsOf others ↔ ∀ t, t ∈ types ↔ t ∈ others := by
  constructor
  · intro h t
    rw [← getLsbD_bitsOf, h, getLsbD_bitsOf]
  · intro h
    refine BitVec.eq_of_getLsbD_eq fun i _ => ?_
    rw [Bool.eq_iff_iff, getLsbD_bitsOf_eq, getLsbD_bitsOf_eq]
    exact exists_congr fun t => and_congr_left fun _ => h t

/-! ## The list and its bits -/

structure ItemAttributes where
  attributes : List Attribute
  attributeBits : BitVec 32
  nodup : (attributes.map Attribute.type).Nodup
  bits : attributeBits = bitsOf (attributes.map Attribute.type)

namespace ItemAttributes

def empty : ItemAttributes where
  attributes := []
  attributeBits := 0
  nodup := List.nodup_nil
  bits := rfl

def hasAttribute (a : ItemAttributes) (type : AttrType) : Bool :=
  type.mask &&& a.attributeBits ≠ 0

theorem hasAttribute_iff (a : ItemAttributes) (t : AttrType) :
    a.hasAttribute t = true ↔ t ∈ a.attributes.map Attribute.type := by
  rw [hasAttribute, decide_eq_true_eq, AttrType.mask_and, a.bits, getLsbD_bitsOf]

def getExistingAttr (a : ItemAttributes) (type : AttrType) : Option Attribute :=
  if a.hasAttribute type then a.attributes.find? fun x => x.type = type else none

/-- The value listed under a type. -/
def attr (a : ItemAttributes) (type : AttrType) : Option Value :=
  (a.getExistingAttr type).map Attribute.value

theorem attr_eq_some (a : ItemAttributes) (t : AttrType) (v : Value) :
    a.attr t = some v ↔ ∃ x ∈ a.attributes, x.type = t ∧ x.value = v := by
  rw [attr, Option.map_eq_some_iff]
  constructor
  · rintro ⟨x, hx, rfl⟩
    rw [getExistingAttr] at hx
    split at hx
    · exact ⟨x, List.mem_of_find?_eq_some hx, by simpa using List.find?_some hx, rfl⟩
    · cases hx
  · rintro ⟨x, hx, rfl, rfl⟩
    have hhas : a.hasAttribute x.type = true :=
      (a.hasAttribute_iff _).mpr (List.mem_map_of_mem hx)
    obtain ⟨y, hy⟩ : ∃ y, a.attributes.find? (fun y => y.type = x.type) = some y := by
      rw [← Option.isSome_iff_exists, List.find?_isSome]
      exact ⟨x, hx, by simp⟩
    have htype : y.type = x.type := by simpa using List.find?_some hy
    have hsame : y = x :=
      List.inj_on_of_nodup_map a.nodup (List.mem_of_find?_eq_some hy) hx htype
    exact ⟨x, by rw [getExistingAttr, if_pos hhas, hy, hsame], rfl⟩

theorem attr_eq_none (a : ItemAttributes) (t : AttrType) :
    a.attr t = none ↔ t ∉ a.attributes.map Attribute.type := by
  rw [Option.eq_none_iff_forall_ne_some]
  constructor
  · intro h hmem
    obtain ⟨x, hx, rfl⟩ := List.mem_map.mp hmem
    exact h x.value ((a.attr_eq_some _ _).mpr ⟨x, hx, rfl, rfl⟩)
  · intro h v hv
    obtain ⟨x, hx, rfl, -⟩ := (a.attr_eq_some _ _).mp hv
    exact h (List.mem_map_of_mem hx)

@[simp] theorem attr_empty (t : AttrType) : empty.attr t = none := by
  rw [attr_eq_none]
  exact List.not_mem_nil

theorem attr_fits {a : ItemAttributes} {t : AttrType} {v : Value} (h : a.attr t = some v) :
    v.fits t = true := by
  obtain ⟨x, -, rfl, rfl⟩ := (a.attr_eq_some _ _).mp h
  exact x.fits

/-- Blocks agree on what they list as soon as the same entries stand in them. -/
theorem attr_congr {a b : ItemAttributes} {t : AttrType}
    (h : ∀ x : Attribute, x.type = t → (x ∈ a.attributes ↔ x ∈ b.attributes)) :
    a.attr t = b.attr t := by
  refine Option.ext fun v => ?_
  rw [attr_eq_some, attr_eq_some]
  constructor
  · rintro ⟨x, hx, ht, hv⟩
    exact ⟨x, (h x ht).mp hx, ht, hv⟩
  · rintro ⟨x, hx, ht, hv⟩
    exact ⟨x, (h x ht).mpr hx, ht, hv⟩

/-! ## The setters -/

/-- `getAttr(type)` and the assignment through the reference it returns, for a type whose bit is
set. -/
def overwrite (x : Attribute) : List Attribute → List Attribute
  | [] => []
  | y :: rest => if y.type = x.type then x :: rest else y :: overwrite x rest

theorem overwrite_types (x : Attribute) (l : List Attribute) :
    (overwrite x l).map Attribute.type = l.map Attribute.type := by
  induction l with
  | nil => rfl
  | cons y rest ih =>
    rw [overwrite]
    split
    · next h => rw [List.map_cons, List.map_cons, h]
    · next h => rw [List.map_cons, List.map_cons, ih]

theorem mem_overwrite {x y : Attribute} {l : List Attribute} (h : y.type ≠ x.type) :
    y ∈ overwrite x l ↔ y ∈ l := by
  have hne : y ≠ x := fun heq => h (congrArg Attribute.type heq)
  induction l with
  | nil => rfl
  | cons z rest ih =>
    rw [overwrite]
    split
    · next hz =>
      have hyz : y ≠ z := fun heq => h (heq ▸ hz)
      simp [hne, hyz]
    · next hz => simp [ih]

theorem mem_overwrite_self {x : Attribute} {l : List Attribute}
    (h : x.type ∈ l.map Attribute.type) : x ∈ overwrite x l := by
  induction l with
  | nil => simp at h
  | cons y rest ih =>
    rw [overwrite]
    split
    · exact List.mem_cons_self
    · next hy =>
      have hrest : x.type ∈ rest.map Attribute.type := by simpa [Ne.symm hy] using h
      exact List.mem_cons_of_mem _ (ih hrest)

/-- `getAttr(type)` with the assignment that follows it. -/
def setAttr (a : ItemAttributes) (x : Attribute) : ItemAttributes :=
  if h : a.hasAttribute x.type = true then
    { attributes := overwrite x a.attributes
      attributeBits := a.attributeBits
      nodup := by rw [overwrite_types]; exact a.nodup
      bits := by rw [overwrite_types]; exact a.bits }
  else
    { attributes := a.attributes ++ [x]
      attributeBits := a.attributeBits ||| x.type.mask
      nodup := by
        have hfresh : x.type ∉ a.attributes.map Attribute.type :=
          fun hmem => h ((a.hasAttribute_iff _).mpr hmem)
        rw [List.map_append]
        exact List.Nodup.append a.nodup (List.nodup_singleton _) (by simpa using hfresh)
      bits := by
        have hcomm := bitsOf_eq_iff (x.type :: a.attributes.map Attribute.type)
          ((a.attributes ++ [x]).map Attribute.type)
        rw [a.bits, BitVec.or_comm, ← hcomm.mpr fun t => by simp [or_comm]]
        rfl }

theorem attr_setAttr (a : ItemAttributes) (x : Attribute) (t : AttrType) :
    (a.setAttr x).attr t = if t = x.type then some x.value else a.attr t := by
  by_cases ht : t = x.type
  · subst ht
    have hmem : x ∈ (a.setAttr x).attributes := by
      rw [setAttr]
      split
      · next h => exact mem_overwrite_self ((a.hasAttribute_iff _).mp h)
      · exact List.mem_append_right _ List.mem_cons_self
    rw [if_pos rfl]
    exact (attr_eq_some _ _ _).mpr ⟨x, hmem, rfl, rfl⟩
  · rw [if_neg ht]
    refine attr_congr fun y hy => ?_
    have hne : y.type ≠ x.type := hy ▸ ht
    rw [setAttr]
    split
    · exact mem_overwrite hne
    · have hyx : y ≠ x := fun heq => hne (congrArg Attribute.type heq)
      simp [hyx]

def setIntAttr (a : ItemAttributes) (type : AttrType) (value : Int) : ItemAttributes :=
  if h : type.isIntAttrType = true then
    a.setAttr ⟨type, .integer (if type = .attackSpeed ∧ value < 100 then 100 else value), h⟩
  else a

def setStrAttr (a : ItemAttributes) (type : AttrType) (value : String) : ItemAttributes :=
  if h : type.isStrAttrType = true then
    if value = "" then a else a.setAttr ⟨type, .string value, h⟩
  else a

def getIntAttr (a : ItemAttributes) (type : AttrType) : Int :=
  if type.isIntAttrType then ((a.attr type).map Value.word).getD 0 else 0

theorem attr_setIntAttr (a : ItemAttributes) {t : AttrType} (ht : t.isIntAttrType = true)
    (hne : t ≠ .attackSpeed) (v : Int) (u : AttrType) :
    (a.setIntAttr t v).attr u = if u = t then some (.integer v) else a.attr u := by
  rw [setIntAttr, dif_pos ht, attr_setAttr]
  simp [hne]

theorem getIntAttr_eq (a : ItemAttributes) {t : AttrType} (ht : t.isIntAttrType = true) :
    a.getIntAttr t = ((a.attr t).map Value.word).getD 0 := by
  rw [getIntAttr, if_pos ht]

/-- The entry of a type takes the back of the vector in its place. -/
def swapOut (type : AttrType) (back : Attribute) : List Attribute → List Attribute
  | [] => []
  | x :: rest => if x.type = type then back :: rest else x :: swapOut type back rest

theorem swapOut_perm {t : AttrType} {back : Attribute} {l : List Attribute}
    (hnodup : (l.map Attribute.type).Nodup) (hmem : t ∈ l.map Attribute.type) :
    (swapOut t back l).Perm (back :: l.filter fun x => x.type ≠ t) := by
  induction l with
  | nil => simp at hmem
  | cons x rest ih =>
    rw [List.map_cons, List.nodup_cons] at hnodup
    rw [swapOut]
    split
    · next hx =>
      have hkeep : (rest.filter fun x => x.type ≠ t) = rest :=
        List.filter_eq_self.mpr fun y hy => decide_eq_true fun hyt =>
          hnodup.1 (hx ▸ hyt ▸ List.mem_map_of_mem hy)
      rw [List.filter_cons_of_neg (by simpa using hx), hkeep]
    · next hx =>
      have hrest : t ∈ rest.map Attribute.type := by simpa [Ne.symm hx] using hmem
      rw [List.filter_cons_of_pos (by simpa using hx)]
      exact ((ih hnodup.2 hrest).cons x).trans (List.Perm.swap _ _ _)

/-- What `removeAttribute` leaves of the vector. -/
def erased (type : AttrType) (attributes : List Attribute) : List Attribute :=
  match attributes.getLast? with
  | none => []
  | some back =>
    if back.type = type then attributes.dropLast else swapOut type back attributes.dropLast

theorem erased_perm {t : AttrType} {l : List Attribute}
    (hnodup : (l.map Attribute.type).Nodup) (hmem : t ∈ l.map Attribute.type) :
    (erased t l).Perm (l.filter fun x => x.type ≠ t) := by
  cases l using List.reverseRecOn with
  | nil => simp at hmem
  | append_singleton init back =>
    rw [List.map_append, List.map_cons, List.map_nil] at hnodup hmem
    have hinit : (init.map Attribute.type).Nodup := (List.nodup_append.mp hnodup).1
    have hfresh : back.type ∉ init.map Attribute.type := by
      intro h
      exact (List.nodup_append.mp hnodup).2.2 _ h _ List.mem_cons_self rfl
    have herased : erased t (init ++ [back]) =
        if back.type = t then init else swapOut t back init := by
      simp [erased]
    rw [herased, List.filter_append]
    split
    · next hback =>
      have hkeep : (init.filter fun x => x.type ≠ t) = init :=
        List.filter_eq_self.mpr fun y hy => decide_eq_true fun hyt =>
          hfresh (hback ▸ hyt ▸ List.mem_map_of_mem hy)
      have hlast : [back].filter (fun x => x.type ≠ t) = [] :=
        List.filter_cons_of_neg (by simpa using hback)
      rw [hkeep, hlast, List.append_nil]
    · next hback =>
      have hin : t ∈ init.map Attribute.type := by simpa [Ne.symm hback] using hmem
      have hlast : [back].filter (fun x => x.type ≠ t) = [back] :=
        List.filter_cons_of_pos (by simpa using hback)
      rw [hlast]
      exact (swapOut_perm hinit hin).trans (List.perm_append_singleton _ _).symm

def removeAttribute (a : ItemAttributes) (type : AttrType) : ItemAttributes :=
  if h : a.hasAttribute type = true then
    { attributes := erased type a.attributes
      attributeBits := a.attributeBits &&& ~~~type.mask
      nodup := by
        have hperm := erased_perm a.nodup ((a.hasAttribute_iff _).mp h)
        rw [(hperm.map Attribute.type).nodup_iff]
        exact a.nodup.sublist (List.filter_sublist.map _)
      bits := by
        have hperm := erased_perm a.nodup ((a.hasAttribute_iff _).mp h)
        refine BitVec.eq_of_getLsbD_eq fun i hi => ?_
        rw [Bool.eq_iff_iff, getLsbD_bitsOf_eq, BitVec.getLsbD_and, BitVec.getLsbD_not,
          Bool.and_eq_true, a.bits, getLsbD_bitsOf_eq]
        have htypes : ∀ t, t ∈ (erased type a.attributes).map Attribute.type ↔
            t ∈ a.attributes.map Attribute.type ∧ t ≠ type := by
          intro t
          rw [(hperm.map Attribute.type).mem_iff]
          simp only [List.mem_map, List.mem_filter, decide_eq_true_eq]
          constructor
          · rintro ⟨x, ⟨hx, hne⟩, rfl⟩
            exact ⟨⟨x, hx, rfl⟩, hne⟩
          · rintro ⟨⟨x, hx, rfl⟩, hne⟩
            exact ⟨x, ⟨hx, hne⟩, rfl⟩
        have hmask : (decide (i < 32) && !type.mask.getLsbD i) = true ↔ type.bit ≠ i := by
          rw [AttrType.mask, BitVec.getLsbD_twoPow]
          simp [type.bit_lt, hi]
        rw [hmask]
        constructor
        · rintro ⟨⟨t, ht, rfl⟩, hne⟩
          exact ⟨t, (htypes t).mpr ⟨ht, fun heq => hne (congrArg AttrType.bit heq.symm)⟩, rfl⟩
        · rintro ⟨t, ht, rfl⟩
          have hkept := (htypes t).mp ht
          exact ⟨⟨t, hkept.1, rfl⟩, fun heq => hkept.2 (AttrType.bit_injective heq.symm)⟩ }
  else a

theorem attr_removeAttribute (a : ItemAttributes) (type t : AttrType) :
    (a.removeAttribute type).attr t = if t = type then none else a.attr t := by
  rw [removeAttribute]
  split
  · next h =>
    have hperm := erased_perm a.nodup ((a.hasAttribute_iff _).mp h)
    by_cases ht : t = type
    · subst ht
      rw [if_pos rfl, attr_eq_none, (hperm.map Attribute.type).mem_iff]
      simp
    · rw [if_neg ht]
      refine attr_congr fun x hx => ?_
      rw [hperm.mem_iff, List.mem_filter]
      simp [hx, ht]
  · next h =>
    split
    · next ht => rw [ht, attr_eq_none, ← hasAttribute_iff]; exact h
    · rfl

/-- The copy constructor; `address` is where a custom map is built anew. -/
def copy (a : ItemAttributes) (address : Nat) : ItemAttributes where
  attributes := a.attributes.map fun x =>
    ⟨x.type, x.value.copy address, (Value.fits_copy _ _ _).trans x.fits⟩
  attributeBits := a.attributeBits
  nodup := by rw [List.map_map]; exact a.nodup
  bits := by rw [List.map_map]; exact a.bits

theorem attr_copy (a : ItemAttributes) (address : Nat) (t : AttrType) :
    (a.copy address).attr t = (a.attr t).map (Value.copy address) := by
  refine Option.ext fun v => ?_
  rw [attr_eq_some, Option.map_eq_some_iff]
  constructor
  · rintro ⟨y, hy, rfl, rfl⟩
    obtain ⟨x, hx, rfl⟩ := List.mem_map.mp hy
    exact ⟨x.value, (a.attr_eq_some _ _).mpr ⟨x, hx, rfl, rfl⟩, rfl⟩
  · rintro ⟨w, hw, rfl⟩
    obtain ⟨x, hx, rfl, rfl⟩ := (a.attr_eq_some _ _).mp hw
    exact ⟨_, List.mem_map_of_mem hx, rfl, rfl⟩

end ItemAttributes

end Stored

end Eloth
