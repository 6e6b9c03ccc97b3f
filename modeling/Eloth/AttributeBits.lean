import Eloth.StoredAttributes

/-!
# The word of attribute bits

`ItemAttributes` with the types as the words that the calls pass. The checks of the setters let
every word through that has no bit outside of a mask: the enumerators, but also
`ITEM_ATTRIBUTE_NONE` and words of several bits.
-/

namespace Eloth.AttributeBits

abbrev itemAttrTypes := BitVec 32

abbrev ITEM_ATTRIBUTE_NONE : itemAttrTypes := 0

def intAttributeTypes : itemAttrTypes :=
  Stored.bitsOf [.actionId, .uniqueId, .date, .weight, .attack, .defense, .extraDefense, .armor,
    .hitChance, .shootRange, .owner, .duration, .decayState, .corpseOwner, .charges, .fluidType,
    .doorId, .decayTo, .attackSpeed]

def stringAttributeTypes : itemAttrTypes :=
  Stored.bitsOf [.description, .text, .writer, .name, .article, .pluralName]

def isIntAttrType (type : itemAttrTypes) : Bool := type &&& intAttributeTypes = type

def isStrAttrType (type : itemAttrTypes) : Bool := type &&& stringAttributeTypes = type

structure Attribute where
  type : itemAttrTypes
  value : Stored.Value

/-- The entry of the type gets the value. -/
def assign (type : itemAttrTypes) (value : Stored.Value) :
    List Attribute → Option (List Attribute)
  | [] => none
  | x :: rest =>
    if x.type = type then some (⟨type, value⟩ :: rest)
    else (assign type value rest).map (x :: ·)

/-- The entry of the type that the reverse iteration comes to first gets the last entry. -/
def swapLast (type : itemAttrTypes) (back : Attribute) : List Attribute → Option (List Attribute)
  | [] => none
  | x :: rest =>
    match swapLast type back rest with
    | some rest => some (x :: rest)
    | none => if x.type = type then some (back :: rest) else none

def erase (type : itemAttrTypes) (attributes : List Attribute) : List Attribute :=
  match attributes.getLast? with
  | none => attributes
  | some back =>
    if back.type = type then attributes.dropLast
    else (swapLast type back attributes.dropLast).getD attributes

structure ItemAttributes where
  attributes : List Attribute := []
  attributeBits : itemAttrTypes := 0

namespace ItemAttributes

def hasAttribute (a : ItemAttributes) (type : itemAttrTypes) : Bool :=
  type &&& a.attributeBits ≠ 0

def getExistingAttr (a : ItemAttributes) (type : itemAttrTypes) : Option Attribute :=
  if a.hasAttribute type then a.attributes.find? fun x => x.type = type else none

/-- The value that stands under the type. -/
def value (a : ItemAttributes) (type : itemAttrTypes) : Option Stored.Value :=
  (a.getExistingAttr type).map Attribute.value

/-- `getAttr(type)`, and the assignment to the value that it returns. -/
def setAttr (a : ItemAttributes) (type : itemAttrTypes) (value : Stored.Value) : ItemAttributes :=
  match if a.hasAttribute type then assign type value a.attributes else none with
  | some attributes => { a with attributes := attributes }
  | none =>
    { attributes := a.attributes ++ [⟨type, value⟩]
      attributeBits := a.attributeBits ||| type }

def getStrAttr (a : ItemAttributes) (type : itemAttrTypes) : String :=
  if isStrAttrType type then ((a.value type).map Stored.Value.text).getD "" else ""

def setStrAttr (a : ItemAttributes) (type : itemAttrTypes) (value : String) : ItemAttributes :=
  if isStrAttrType type then
    if value = "" then a else a.setAttr type (.string value)
  else a

def getIntAttr (a : ItemAttributes) (type : itemAttrTypes) : Int :=
  if isIntAttrType type then ((a.value type).map Stored.Value.word).getD 0 else 0

/-- What is stored of a value. -/
def clamped (type : itemAttrTypes) (value : Int) : Int :=
  if type = AttrType.attackSpeed.mask ∧ value < 100 then 100 else value

def setIntAttr (a : ItemAttributes) (type : itemAttrTypes) (value : Int) : ItemAttributes :=
  if isIntAttrType type then a.setAttr type (.integer (clamped type value)) else a

/-- The sum of two words of 64 bits. -/
def increased (a : ItemAttributes) (type : itemAttrTypes) (value : Int) : Int :=
  (a.getIntAttr type + value).bmod (2 ^ 64)

def increaseIntAttr (a : ItemAttributes) (type : itemAttrTypes) (value : Int) : ItemAttributes :=
  a.setIntAttr type (a.increased type value)

def removeAttribute (a : ItemAttributes) (type : itemAttrTypes) : ItemAttributes :=
  if a.hasAttribute type then
    { attributes := erase type a.attributes, attributeBits := a.attributeBits &&& ~~~type }
  else a

/-- The bits are the types listed, each of which is one enumerator and stands there once, and the
unions hold the kinds of values that belong to the types. -/
structure Agrees (a : ItemAttributes) : Prop where
  enumerator : ∀ x ∈ a.attributes, ∃ t : AttrType, x.type = t.mask ∧ x.value.fits t = true
  nodup : (a.attributes.map Attribute.type).Nodup
  bits : ∀ i < 32, a.attributeBits.getLsbD i = true ↔
    BitVec.twoPow 32 i ∈ a.attributes.map Attribute.type

end ItemAttributes

/-! ## Calls -/

inductive Call where
  | setStrAttr (type : itemAttrTypes) (value : String)
  | setIntAttr (type : itemAttrTypes) (value : Int)
  | increaseIntAttr (type : itemAttrTypes) (value : Int)
  | removeAttribute (type : itemAttrTypes)

namespace Call

def apply : Call → ItemAttributes → ItemAttributes
  | setStrAttr type value, a => a.setStrAttr type value
  | setIntAttr type value, a => a.setIntAttr type value
  | increaseIntAttr type value, a => a.increaseIntAttr type value
  | removeAttribute type, a => a.removeAttribute type

def type : Call → itemAttrTypes
  | setStrAttr type _ | setIntAttr type _ | increaseIntAttr type _ | removeAttribute type => type

/-- The call gets past the checks at its start. -/
def Passes (a : ItemAttributes) : Call → Prop
  | setStrAttr type value => isStrAttrType type = true ∧ value ≠ ""
  | setIntAttr type _ | increaseIntAttr type _ => isIntAttrType type = true
  | removeAttribute type => a.hasAttribute type = true

/-- A call that gets past the checks is about one enumerator. -/
def Fits (c : Call) (a : ItemAttributes) : Prop := c.Passes a → ∃ t : AttrType, c.type = t.mask

/-- What is read of the type afterwards. -/
def Returns (a a' : ItemAttributes) : Call → Prop
  | setStrAttr type value =>
    a'.getStrAttr type = if isStrAttrType type = true ∧ value ≠ "" then value else a.getStrAttr type
  | setIntAttr type value =>
    a'.getIntAttr type = if isIntAttrType type then ItemAttributes.clamped type value else 0
  | increaseIntAttr type value =>
    a'.getIntAttr type =
      if isIntAttrType type then ItemAttributes.clamped type (a.increased type value) else 0
  | removeAttribute type => type ∉ a'.attributes.map Attribute.type

end Call

def run (a : ItemAttributes) (calls : List Call) : ItemAttributes :=
  calls.foldl (fun a c => c.apply a) a

/-- Every call of the run fits the value that it is made on. -/
def RunFits (a : ItemAttributes) (calls : List Call) : Prop :=
  ∀ front c back, calls = front ++ c :: back → c.Fits (run a front)

/-! ## Agreeing lists and bits -/

variable {a : ItemAttributes} {type u : itemAttrTypes} {t : AttrType} {i : Nat}

theorem mask_eq_twoPow (hi : i < 32) : t.mask = BitVec.twoPow 32 i ↔ t.bit = i := by
  constructor
  · intro h
    have hbit := congrArg (fun b => b.getLsbD t.bit) h
    simp only [AttrType.mask, BitVec.getLsbD_twoPow, t.bit_lt, hi, decide_true, Bool.true_and] at hbit
    exact (of_decide_eq_true hbit.symm).symm
  · rintro rfl
    rfl

theorem mask_injective : Function.Injective AttrType.mask := fun _ u h =>
  AttrType.bit_injective ((mask_eq_twoPow u.bit_lt).mp h)

def rawEntry (x : Stored.Attribute) : Attribute := ⟨x.type.mask, x.value⟩

/-- The entries and the bits of a block whose types are enumerators. -/
def raw (s : Stored.ItemAttributes) : ItemAttributes where
  attributes := s.attributes.map rawEntry
  attributeBits := s.attributeBits

theorem types_raw (s : Stored.ItemAttributes) : (raw s).attributes.map Attribute.type =
    (s.attributes.map Stored.Attribute.type).map AttrType.mask := by
  simp [raw, rawEntry, Function.comp_def]

theorem agrees_raw (s : Stored.ItemAttributes) : (raw s).Agrees where
  enumerator x hx := by
    obtain ⟨y, -, rfl⟩ := List.mem_map.mp hx
    exact ⟨y.type, rfl, y.fits⟩
  nodup := by
    rw [types_raw]
    exact s.nodup.map mask_injective
  bits i hi := by
    rw [types_raw, List.mem_map]
    change s.attributeBits.getLsbD i = true ↔ _
    rw [s.bits, Stored.getLsbD_bitsOf_eq]
    exact exists_congr fun t => and_congr_right fun _ => (mask_eq_twoPow hi).symm

theorem ItemAttributes.Agrees.exists_raw (h : a.Agrees) : ∃ s, raw s = a := by
  obtain ⟨henumerator, hnodup, hbits⟩ := h
  obtain ⟨attributes, attributeBits⟩ := a
  obtain ⟨entries, hentries⟩ : ∃ entries : List Stored.Attribute,
      entries.map rawEntry = attributes := by
    clear hnodup hbits
    induction attributes with
    | nil => exact ⟨[], rfl⟩
    | cons x rest ih =>
      obtain ⟨entries, hentries⟩ := ih fun y hy => henumerator y (List.mem_cons_of_mem _ hy)
      obtain ⟨t, htype, hfits⟩ := henumerator x List.mem_cons_self
      refine ⟨⟨t, x.value, hfits⟩ :: entries, ?_⟩
      rw [List.map_cons, hentries, rawEntry, ← htype]
  have htypes : attributes.map Attribute.type =
      (entries.map Stored.Attribute.type).map AttrType.mask := by
    simp [← hentries, rawEntry, Function.comp_def]
  refine ⟨⟨entries, attributeBits, List.Nodup.of_map _ (htypes ▸ hnodup), ?_⟩, by
    simp [raw, hentries]⟩
  refine BitVec.eq_of_getLsbD_eq fun i hi => ?_
  rw [Bool.eq_iff_iff, hbits i hi, htypes, List.mem_map, Stored.getLsbD_bitsOf_eq]
  exact exists_congr fun t => and_congr_right fun _ => mask_eq_twoPow hi

/-! ## The operations on enumerators -/

variable {s : Stored.ItemAttributes}

theorem isIntAttrType_mask (t : AttrType) : isIntAttrType t.mask = t.isIntAttrType := by
  cases t <;> rfl

theorem isStrAttrType_mask (t : AttrType) : isStrAttrType t.mask = t.isStrAttrType := by
  cases t <;> rfl

theorem rawEntry_type_eq {x : Stored.Attribute} : (rawEntry x).type = t.mask ↔ x.type = t :=
  mask_injective.eq_iff

theorem getExistingAttr_raw (s : Stored.ItemAttributes) (t : AttrType) :
    (raw s).getExistingAttr t.mask = (s.getExistingAttr t).map rawEntry := by
  have hfind : (s.attributes.map rawEntry).find? (fun x => x.type = t.mask) =
      (s.attributes.find? fun x => x.type = t).map rawEntry := by
    rw [List.find?_map]
    congr 2
    funext x
    exact decide_eq_decide.mpr rawEntry_type_eq
  unfold ItemAttributes.getExistingAttr Stored.ItemAttributes.getExistingAttr
  have hhas : (raw s).hasAttribute t.mask = s.hasAttribute t := rfl
  rw [hhas, raw, hfind]
  split_ifs <;> rfl

/-- A word that is no enumerator finds nothing. -/
theorem getExistingAttr_of_forall_ne (s : Stored.ItemAttributes) (h : ∀ t : AttrType, u ≠ t.mask) :
    (raw s).getExistingAttr u = none := by
  unfold ItemAttributes.getExistingAttr
  split_ifs
  · refine List.find?_eq_none.mpr fun x hx => ?_
    obtain ⟨y, -, rfl⟩ := List.mem_map.mp hx
    exact fun h' => h y.type (of_decide_eq_true h').symm
  · rfl

theorem assign_raw {l : List Stored.Attribute} {x : Stored.Attribute}
    (h : x.type ∈ l.map Stored.Attribute.type) :
    assign x.type.mask x.value (l.map rawEntry) =
      some ((Stored.ItemAttributes.overwrite x l).map rawEntry) := by
  induction l with
  | nil => cases h
  | cons y rest ih =>
    rw [List.map_cons, assign, Stored.ItemAttributes.overwrite]
    by_cases hy : y.type = x.type
    · rw [if_pos (rawEntry_type_eq.mpr hy), if_pos hy]
      rfl
    · have hrest := (List.mem_cons.mp h).resolve_left (Ne.symm hy)
      rw [if_neg fun h => hy (rawEntry_type_eq.mp h), if_neg hy, ih hrest]
      rfl

theorem assign_of_forall_ne {l : List Attribute} (h : ∀ x ∈ l, x.type ≠ type)
    (value : Stored.Value) : assign type value l = none := by
  induction l with
  | nil => rfl
  | cons x rest ih =>
    rw [assign, if_neg (h x List.mem_cons_self), ih fun y hy => h y (List.mem_cons_of_mem _ hy)]
    rfl

theorem setAttr_raw (s : Stored.ItemAttributes) (x : Stored.Attribute) :
    (raw s).setAttr x.type.mask x.value = raw (s.setAttr x) := by
  have hhas : (raw s).hasAttribute x.type.mask = s.hasAttribute x.type := rfl
  unfold ItemAttributes.setAttr Stored.ItemAttributes.setAttr
  rw [hhas]
  by_cases h : s.hasAttribute x.type = true
  · have hassign : assign x.type.mask x.value (raw s).attributes = _ :=
      assign_raw ((s.hasAttribute_iff _).mp h)
    rw [if_pos h, hassign, dif_pos h]
    rfl
  · rw [if_neg h, dif_neg h]
    simp [raw, rawEntry]

theorem clamped_mask (t : AttrType) (value : Int) : ItemAttributes.clamped t.mask value =
    if t = .attackSpeed ∧ value < 100 then 100 else value :=
  if_congr (and_congr_left' mask_injective.eq_iff) rfl rfl

theorem setIntAttr_raw (s : Stored.ItemAttributes) (t : AttrType) (value : Int) :
    (raw s).setIntAttr t.mask value = raw (s.setIntAttr t value) := by
  unfold ItemAttributes.setIntAttr Stored.ItemAttributes.setIntAttr
  rw [isIntAttrType_mask]
  by_cases h : t.isIntAttrType = true
  · rw [if_pos h, dif_pos h, clamped_mask, ← setAttr_raw]
  · rw [if_neg h, dif_neg h]

theorem setStrAttr_raw (s : Stored.ItemAttributes) (t : AttrType) (value : String) :
    (raw s).setStrAttr t.mask value = raw (s.setStrAttr t value) := by
  unfold ItemAttributes.setStrAttr Stored.ItemAttributes.setStrAttr
  rw [isStrAttrType_mask]
  by_cases h : t.isStrAttrType = true
  · rw [if_pos h, dif_pos h]
    split_ifs
    · rfl
    · rw [← setAttr_raw]
  · rw [if_neg h, dif_neg h]

theorem swapLast_of_forall_ne {l : List Attribute} (h : ∀ x ∈ l, x.type ≠ type)
    (back : Attribute) : swapLast type back l = none := by
  induction l with
  | nil => rfl
  | cons x rest ih =>
    rw [swapLast, ih fun y hy => h y (List.mem_cons_of_mem _ hy),
      if_neg (h x List.mem_cons_self)]

/-- The type stands once, so that it does not matter which entry is found first. -/
theorem swapLast_raw {l : List Stored.Attribute} (hnodup : (l.map Stored.Attribute.type).Nodup)
    (h : t ∈ l.map Stored.Attribute.type) (back : Stored.Attribute) :
    swapLast t.mask (rawEntry back) (l.map rawEntry) =
      some ((Stored.ItemAttributes.swapOut t back l).map rawEntry) := by
  induction l with
  | nil => cases h
  | cons x rest ih =>
    rw [List.map_cons, List.nodup_cons] at hnodup
    rw [List.map_cons, swapLast, Stored.ItemAttributes.swapOut]
    by_cases hx : x.type = t
    · have hrest : ∀ y ∈ rest.map rawEntry, y.type ≠ t.mask := by
        intro y hy heq
        obtain ⟨z, hz, rfl⟩ := List.mem_map.mp hy
        exact hnodup.1 (hx.symm ▸ rawEntry_type_eq.mp heq ▸ List.mem_map_of_mem hz)
      rw [swapLast_of_forall_ne hrest, if_pos (rawEntry_type_eq.mpr hx), if_pos hx]
      rfl
    · have hrest := (List.mem_cons.mp h).resolve_left (Ne.symm hx)
      rw [ih hnodup.2 hrest, if_neg hx]
      rfl

theorem erase_raw {l : List Stored.Attribute} (hnodup : (l.map Stored.Attribute.type).Nodup)
    (h : t ∈ l.map Stored.Attribute.type) :
    erase t.mask (l.map rawEntry) = (Stored.ItemAttributes.erased t l).map rawEntry := by
  cases l using List.reverseRecOn with
  | nil => cases h
  | append_singleton init back =>
    rw [List.map_append, List.map_singleton] at hnodup h
    have hraw : erase t.mask ((init ++ [back]).map rawEntry) =
        if back.type = t then init.map rawEntry
        else (swapLast t.mask (rawEntry back) (init.map rawEntry)).getD
          ((init ++ [back]).map rawEntry) := by
      simp [erase, rawEntry_type_eq]
    have herased : Stored.ItemAttributes.erased t (init ++ [back]) =
        if back.type = t then init else Stored.ItemAttributes.swapOut t back init := by
      simp [Stored.ItemAttributes.erased]
    rw [hraw, herased]
    by_cases hback : back.type = t
    · rw [if_pos hback, if_pos hback]
    · have hinit : t ∈ init.map Stored.Attribute.type :=
        (List.mem_append.mp h).resolve_right fun hmem => hback (List.mem_singleton.mp hmem).symm
      rw [if_neg hback, if_neg hback, swapLast_raw (List.nodup_append.mp hnodup).1 hinit]
      rfl

theorem removeAttribute_raw (s : Stored.ItemAttributes) (t : AttrType) :
    (raw s).removeAttribute t.mask = raw (s.removeAttribute t) := by
  have hhas : (raw s).hasAttribute t.mask = s.hasAttribute t := rfl
  unfold ItemAttributes.removeAttribute Stored.ItemAttributes.removeAttribute
  rw [hhas]
  by_cases h : s.hasAttribute t = true
  · have herase : erase t.mask (raw s).attributes = _ :=
      erase_raw s.nodup ((s.hasAttribute_iff _).mp h)
    rw [if_pos h, dif_pos h, herase]
    rfl
  · rw [if_neg h, dif_neg h]

theorem value_raw (s : Stored.ItemAttributes) (t : AttrType) :
    (raw s).value t.mask = s.attr t := by
  rw [ItemAttributes.value, getExistingAttr_raw, Option.map_map]
  rfl

/-- Blocks with the same values under the enumerators have the same under every word but one. -/
theorem value_raw_congr {s' : Stored.ItemAttributes} (h : ∀ t : AttrType, u = t.mask →
    s'.attr t = s.attr t) : (raw s').value u = (raw s).value u := by
  by_cases hu : ∃ t : AttrType, u = t.mask
  · obtain ⟨t, rfl⟩ := hu
    rw [value_raw, value_raw, h t rfl]
  · have hne : ∀ t : AttrType, u ≠ t.mask := fun t ht => hu ⟨t, ht⟩
    rw [ItemAttributes.value, ItemAttributes.value, getExistingAttr_of_forall_ne s' hne,
      getExistingAttr_of_forall_ne s hne]

/-! ## What a call does -/

/-- The call changes what stands under its type, and reads of it what it should. -/
structure Call.Does (c : Call) (a a' : ItemAttributes) : Prop where
  returns : c.Returns a a'
  others : ∀ u, u ≠ c.type → a'.value u = a.value u

theorem value_setAttr_of_ne (x : Stored.Attribute) (hu : u ≠ x.type.mask) :
    (raw (s.setAttr x)).value u = (raw s).value u := by
  refine value_raw_congr fun t ht => ?_
  rw [s.attr_setAttr, if_neg]
  rintro rfl
  exact hu ht

theorem does_setStrAttr (s : Stored.ItemAttributes) (h : t.isStrAttrType = true) {value : String}
    (hvalue : value ≠ "") :
    (Call.setStrAttr t.mask value).Does (raw s) (raw (s.setStrAttr t value)) := by
  have htype : isStrAttrType t.mask = true := (isStrAttrType_mask t).trans h
  rw [Stored.ItemAttributes.setStrAttr, dif_pos h, if_neg hvalue]
  refine ⟨?_, fun _ hu => value_setAttr_of_ne _ hu⟩
  rw [Call.Returns, ItemAttributes.getStrAttr, value_raw, s.attr_setAttr, if_pos rfl,
    if_pos htype, if_pos ⟨htype, hvalue⟩]
  rfl

theorem does_setIntAttr (s : Stored.ItemAttributes) (h : t.isIntAttrType = true) (value : Int) :
    (Call.setIntAttr t.mask value).Does (raw s) (raw (s.setIntAttr t value)) := by
  have htype : isIntAttrType t.mask = true := (isIntAttrType_mask t).trans h
  rw [Stored.ItemAttributes.setIntAttr, dif_pos h]
  refine ⟨?_, fun _ hu => value_setAttr_of_ne _ hu⟩
  rw [Call.Returns, ItemAttributes.getIntAttr, value_raw, s.attr_setAttr, if_pos rfl,
    if_pos htype, if_pos htype, clamped_mask]
  rfl

theorem does_removeAttribute (s : Stored.ItemAttributes) (t : AttrType) :
    (Call.removeAttribute t.mask).Does (raw s) (raw (s.removeAttribute t)) := by
  refine ⟨?_, fun u hu => value_raw_congr fun v hv => ?_⟩
  · have hnone := (Stored.ItemAttributes.attr_eq_none (s.removeAttribute t) t).mp (by
      rw [s.attr_removeAttribute, if_pos rfl])
    rw [Call.Returns, types_raw]
    exact fun hmem => hnone ((List.mem_map_of_injective mask_injective).mp hmem)
  · rw [s.attr_removeAttribute, if_neg]
    rintro rfl
    exact hu hv

/-- A fitting call leads to a block that agrees again. -/
theorem Call.apply_raw (c : Call) (hfits : c.Fits (raw s)) :
    ∃ s', c.apply (raw s) = raw s' ∧ c.Does (raw s) (raw s') := by
  by_cases hpasses : c.Passes (raw s)
  · obtain ⟨t, ht⟩ := hfits hpasses
    cases c with
    | setStrAttr type value =>
      obtain rfl : type = t.mask := ht
      exact ⟨_, setStrAttr_raw s t value,
        does_setStrAttr s ((isStrAttrType_mask t).symm.trans hpasses.1) hpasses.2⟩
    | setIntAttr type value =>
      obtain rfl : type = t.mask := ht
      exact ⟨_, setIntAttr_raw s t value,
        does_setIntAttr s ((isIntAttrType_mask t).symm.trans hpasses) value⟩
    | increaseIntAttr type value =>
      obtain rfl : type = t.mask := ht
      obtain ⟨hreturns, hothers⟩ := does_setIntAttr s ((isIntAttrType_mask t).symm.trans hpasses)
        ((raw s).increased t.mask value)
      exact ⟨_, setIntAttr_raw s t _, hreturns, hothers⟩
    | removeAttribute type =>
      obtain rfl : type = t.mask := ht
      exact ⟨_, removeAttribute_raw s t, does_removeAttribute s t⟩
  · -- A call that is turned away at the start changes nothing.
    cases c with
    | setStrAttr type value =>
      have hnot : ¬ (isStrAttrType type = true ∧ value ≠ "") := hpasses
      refine ⟨s, ?_, by rw [Call.Returns, if_neg hnot], fun _ _ => rfl⟩
      change (raw s).setStrAttr type value = raw s
      unfold ItemAttributes.setStrAttr
      split_ifs with htype hempty
      · rfl
      · exact absurd ⟨htype, hempty⟩ hnot
      · rfl
    | setIntAttr type value =>
      have hnot : ¬ isIntAttrType type = true := hpasses
      refine ⟨s, if_neg hnot, ?_, fun _ _ => rfl⟩
      rw [Call.Returns, ItemAttributes.getIntAttr, if_neg hnot, if_neg hnot]
    | increaseIntAttr type value =>
      have hnot : ¬ isIntAttrType type = true := hpasses
      refine ⟨s, if_neg hnot, ?_, fun _ _ => rfl⟩
      rw [Call.Returns, ItemAttributes.getIntAttr, if_neg hnot, if_neg hnot]
    | removeAttribute type =>
      refine ⟨s, if_neg hpasses, fun hmem => ?_, fun _ _ => rfl⟩
      rw [types_raw] at hmem
      obtain ⟨t, ht, rfl⟩ := List.mem_map.mp hmem
      exact hpasses ((s.hasAttribute_iff t).mpr ht)

theorem not_agrees_setAttr (hfresh : ∀ x ∈ a.attributes, x.type ≠ type)
    (htype : ∀ t : AttrType, type ≠ t.mask) (value : Stored.Value) :
    ¬ (a.setAttr type value).Agrees := by
  have hnone : (if a.hasAttribute type then assign type value a.attributes else none) = none := by
    rw [assign_of_forall_ne hfresh, ite_self]
  intro h
  rw [ItemAttributes.setAttr, hnone] at h
  obtain ⟨t, ht, -⟩ := h.enumerator ⟨type, value⟩ (List.mem_append_right _ List.mem_cons_self)
  exact htype t ht

theorem erase_of_forall_ne {l : List Attribute} (h : ∀ x ∈ l, x.type ≠ type) :
    erase type l = l := by
  unfold erase
  cases hlast : l.getLast? with
  | none => rfl
  | some back =>
    have hback := h back (List.mem_of_getLast? hlast)
    have hswap := swapLast_of_forall_ne (fun x hx => h x (List.mem_of_mem_dropLast hx)) back
    simp only [if_neg hback, hswap, Option.getD_none]

/-- Bits are taken from the word, but no entry from the list. -/
theorem not_agrees_removeAttribute (h : a.Agrees) (hfresh : ∀ x ∈ a.attributes, x.type ≠ type)
    (hhas : a.hasAttribute type = true) : ¬ (a.removeAttribute type).Agrees := by
  intro h'
  rw [ItemAttributes.removeAttribute, if_pos hhas, erase_of_forall_ne hfresh] at h'
  obtain ⟨i, hi, hbit⟩ : ∃ i, ∃ hi : i < 32,
      type.getLsbD i = true ∧ a.attributeBits.getLsbD i = true := by
    by_contra hnone
    refine of_decide_eq_true hhas (BitVec.eq_of_getLsbD_eq fun i hi => ?_)
    have hzero : (0 : BitVec 32).getLsbD i = false := BitVec.getLsbD_zero
    rw [BitVec.getLsbD_and, hzero, Bool.and_eq_false_iff, ← Bool.not_eq_true,
      ← Bool.not_eq_true, ← not_and_or]
    exact fun hboth => hnone ⟨i, hi, hboth⟩
  have hkept := (h'.bits i hi).mpr ((h.bits i hi).mp hbit.2)
  rw [BitVec.getLsbD_and, BitVec.getLsbD_not, hbit.1] at hkept
  simp at hkept

/-- Only a fitting call keeps list and bits in step. -/
theorem Call.fits_of_agrees (c : Call) (h : a.Agrees) (h' : (c.apply a).Agrees) : c.Fits a := by
  intro hpasses
  by_contra hne
  have htype : ∀ t : AttrType, c.type ≠ t.mask := fun t ht => hne ⟨t, ht⟩
  have hfresh : ∀ x ∈ a.attributes, x.type ≠ c.type := by
    intro x hx heq
    obtain ⟨t, ht, -⟩ := h.enumerator x hx
    exact htype t (heq.symm.trans ht)
  cases c with
  | setStrAttr type value =>
    have happly : (Call.setStrAttr type value).apply a = a.setAttr type (.string value) := by
      rw [Call.apply, ItemAttributes.setStrAttr, if_pos hpasses.1, if_neg hpasses.2]
    exact not_agrees_setAttr hfresh htype _ (happly ▸ h')
  | setIntAttr type value =>
    have happly : (Call.setIntAttr type value).apply a = a.setAttr type _ := if_pos hpasses
    exact not_agrees_setAttr hfresh htype _ (happly ▸ h')
  | increaseIntAttr type value =>
    have happly : (Call.increaseIntAttr type value).apply a = a.setAttr type _ :=
      if_pos hpasses
    exact not_agrees_setAttr hfresh htype _ (happly ▸ h')
  | removeAttribute type => exact not_agrees_removeAttribute h hfresh hpasses h'

/-! ## Runs -/

theorem run_append (a : ItemAttributes) (front : List Call) (c : Call) :
    run a (front ++ [c]) = c.apply (run a front) := by
  rw [run, List.foldl_append]
  rfl

theorem RunFits.front {front back : List Call} (h : RunFits a (front ++ back)) :
    RunFits a front := by
  rintro first c rest rfl
  exact h first c (rest ++ back) (by rw [List.append_assoc, List.cons_append])

theorem agrees_run (h : a.Agrees) {calls : List Call} (hfits : RunFits a calls) :
    (run a calls).Agrees := by
  induction calls using List.reverseRecOn with
  | nil => exact h
  | append_singleton calls c ih =>
    obtain ⟨s, hs⟩ := (ih hfits.front).exists_raw
    have hc : c.Fits (run a calls) := hfits calls c [] rfl
    obtain ⟨s', happly, -⟩ := c.apply_raw (hs ▸ hc)
    rw [run_append, ← hs, happly]
    exact agrees_raw s'

/-- Every state of the run agrees, and every call in it does what it should. -/
def Correct (a : ItemAttributes) (calls : List Call) : Prop :=
  (∀ front back, calls = front ++ back → (run a front).Agrees) ∧
    ∀ front c back, calls = front ++ c :: back → c.Does (run a front) (run a (front ++ [c]))

theorem agrees_empty : ItemAttributes.Agrees {} := agrees_raw Stored.ItemAttributes.empty

end Eloth.AttributeBits
