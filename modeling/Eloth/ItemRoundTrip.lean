import Eloth.ItemStream
import Eloth.Sample

/-!
# Items come back from their stream

What `unserializeAttr` makes of the bytes that `serializeAttr` wrote.
-/

namespace Eloth

open PropStream

/-! ## Integers and strings -/

namespace PropStream

theorem decodes_readUInt (size : Nat) (value : Int) :
    (readUInt size).Decodes (writeInt size value) (some (value % (256 ^ size : Nat))) := by
  have hlen : (writeInt size value).length = size := LittleEndian.length_bytes _ _
  have htake : (Reader.take size).Decodes (writeInt size value) (some (writeInt size value)) := by
    have htake := Reader.decodes_take (writeInt size value)
    rwa [hlen] at htake
  have hpos : (0 : Int) < (256 ^ size : Nat) := by exact_mod_cast Nat.pow_pos (by decide)
  have hvalue : (LittleEndian.value (writeInt size value) : Int) = value % (256 ^ size : Nat) := by
    have hnonneg := Int.emod_nonneg value hpos.ne'
    have hlt := Int.emod_lt_of_pos value hpos
    rw [writeInt, LittleEndian.value_bytes, Nat.mod_eq_of_lt (by omega), Int.toNat_of_nonneg hnonneg]
  have hmap := htake.map fun s => s.map fun s => (LittleEndian.value s : Int)
  rwa [Option.map_some, hvalue] at hmap

theorem decodes_readInt (size : Nat) (value : Int) :
    (readInt size).Decodes (writeInt size value) (some (value.bmod (256 ^ size))) := by
  have hmap := (decodes_readUInt size value).map fun v => v.map fun v => v.bmod (256 ^ size)
  rwa [Option.map_some, Int.emod_bmod] at hmap

/-- A string too long for its length field is written as the empty one. -/
def storedString (s : List UInt8) : List UInt8 := if 65535 < s.length then [] else s

theorem storedString_of_le {s : List UInt8} (h : s.length ≤ 65535) : storedString s = s :=
  if_neg (Nat.not_lt.mpr h)

theorem decodes_readString (s : List UInt8) :
    readString.Decodes (writeString s) (some (storedString s)) := by
  unfold writeString storedString
  split
  · have hempty : (Reader.take 0).Decodes [] (some []) := Reader.decodes_take []
    exact (decodes_readUInt 2 0).bind hempty
  · have hlen : ((s.length : Int) % (256 ^ 2 : Nat)).toNat = s.length := by omega
    refine (decodes_readUInt 2 s.length).bind ?_
    dsimp only
    rw [hlen]
    exact Reader.decodes_take s

end PropStream

/-- No class reads the field itself. -/
def AttrCode.isPlain : AttrCode → Bool
  | .sleeperGuid | .sleepStart | .teleDest | .houseDoorId | .depotId | .containerItems => false
  | _ => true

/-! ## Custom attributes -/

def CustomAttribute.stored : CustomAttribute → CustomAttribute
  | string s => string (storedString s)
  | value => value

theorem CustomAttribute.decodes_unserialize (value : CustomAttribute) :
    unserialize.Decodes value.serialize (some value.stored) := by
  cases value with
  | string s =>
    have hs := (decodes_readString s).map fun v => v.map string
    exact (decodes_readUInt 1 1).bind hs
  | integer v =>
    have hv := (decodes_readInt 8 v.toInt).map fun v => v.map fun v => integer (Int64.ofInt v)
    have hself : Int64.ofInt (v.toInt.bmod (256 ^ 8)) = v := by
      have hlo := v.le_toInt
      have hhi := v.toInt_lt
      rw [Int.bmod_eq_of_le_mul_two (by omega) (by omega), Int64.ofInt_toInt]
    rw [Option.map_some, hself] at hv
    exact (decodes_readUInt 1 2).bind hv
  | double bits =>
    have hv := (decodes_readUInt 8 bits.toNat).map fun v => v.map fun v => double (UInt64.ofInt v)
    have hself : UInt64.ofInt ((bits.toNat : Int) % (256 ^ 8 : Nat)) = bits := by
      have hlt := bits.toNat_lt
      apply UInt64.toNat_inj.mp
      rw [UInt64.ofInt, UInt64.toNat_ofNat']
      omega
    rw [Option.map_some, hself] at hv
    exact (decodes_readUInt 1 3).bind hv
  | boolean b =>
    have hv := (decodes_readUInt 1 b.toNat).map fun v => v.map fun v => boolean (v != 0)
    have hself : ((b.toNat : Int) % (256 ^ 1 : Nat) != 0) = b := by cases b <;> rfl
    rw [Option.map_some, hself] at hv
    exact (decodes_readUInt 1 4).bind hv

namespace StoredItem

variable {env : StreamEnv} {item item' src : StoredItem}

def restoreEntries (item : StoredItem) (entries : List (LowerString × CustomAttribute)) :
    StoredItem :=
  entries.foldl (fun item e => item.setCustomAttribute (storedString e.1.1) e.2.stored) item

theorem decodes_readCustomAttributes (item : StoredItem)
    (entries : List (LowerString × CustomAttribute)) :
    (item.readCustomAttributes entries.length).Decodes (writeEntries entries)
      (.continue, item.restoreEntries entries) := by
  induction entries generalizing item with
  | nil => exact Reader.decodes_pure _
  | cons e es ih =>
    have hkey := decodes_readString e.1.1
    have hvalue := e.2.decodes_unserialize
    have hrest := ih (item.setCustomAttribute (storedString e.1.1) e.2.stored)
    have hbytes : writeEntries (e :: es) =
        writeString e.1.1 ++ (e.2.serialize ++ writeEntries es) := by
      simp [writeEntries]
    rw [hbytes]
    exact hkey.bind (hvalue.bind hrest)

/-! ## One field after another -/

/-- Reading the bytes turns `item` into `item'`, and the loop goes on with what follows. -/
def Reads (env : StreamEnv) (item : StoredItem) (bytes : List UInt8) (item' : StoredItem) : Prop :=
  ∀ rest, item.unserializeAttr env (bytes ++ rest) = item'.unserializeAttr env rest

theorem reads_nil : Reads env item [] item := fun _ => rfl

theorem Reads.append {item₁ item₂ item₃ : StoredItem} {s s' : List UInt8}
    (h : Reads env item₁ s item₂) (h' : Reads env item₂ s' item₃) :
    Reads env item₁ (s ++ s') item₃ := by
  intro rest
  rw [List.append_assoc, h, h']

theorem reads_of_decodes {code : AttrCode} {s : List UInt8}
    (h : (item.readAttr env code).Decodes s (.continue, item')) :
    Reads env item (code.byte :: s) item' := by
  intro rest
  rw [List.cons_append, unserializeAttr, if_neg code.byte_ne_zero, AttrCode.ofByte_byte]
  simp only [h rest]

theorem readAttr_of_isPlain {code : AttrCode} (h : code.isPlain = true) :
    item.readAttr env code = item.itemReadAttr env code := by
  unfold readAttr
  cases item.cls with
  | item => rfl
  | _ => cases code <;> first | (cases h; done) | rfl

theorem reads_field {α : Type} {code : AttrCode} {read : Reader (Option α)}
    {set : α → StoredItem} {s : List UInt8} {value : α} (hplain : code.isPlain = true)
    (hcase : item.itemReadAttr env code = item.readField read set)
    (h : read.Decodes s (some value)) : Reads env item (code.byte :: s) (set value) := by
  apply reads_of_decodes
  rw [readAttr_of_isPlain hplain, hcase]
  exact h.map _

theorem reads_if {c : Prop} [Decidable c] {s : List UInt8} (h : c → Reads env item s item') :
    Reads env item (if c then s else []) (if c then item' else item) := by
  split
  · exact h ‹c›
  · exact reads_nil

variable (items : Items) (src) (item)

/-! ### Counts and subtypes -/

def restoreCount : StoredItem :=
  let it := items.get src.id
  if it.stackable || it.isFluidContainer || it.isSplash then
    item.setSubType items (src.getSubType items % (256 ^ 1 : Nat))
  else item

def restoreCharges : StoredItem :=
  if src.getCharges ≠ 0 then item.setSubType items (src.getCharges % (256 ^ 2 : Nat)) else item

theorem reads_writeCount :
    Reads env item (src.writeCount env.items) (item.restoreCount src env.items) :=
  reads_if fun _ => reads_field rfl rfl (decodes_readUInt 1 _)

theorem reads_writeCharges :
    Reads env item src.writeCharges (item.restoreCharges src env.items) :=
  reads_if fun _ => reads_field rfl rfl (decodes_readUInt 2 _)

/-! ### Integers -/

/-- The stream has the integer attribute. The count and the charges have functions of their
own. -/
def writesInt : AttrType → Bool
  | .actionId => (items.get src.id).moveable ∧ src.getActionId ≠ 0
  | .date => src.getDate ≠ 0
  | .decayState => src.getDecaying = 1 ∨ src.getDecaying = 2
  | .duration => src.hasAttribute .duration
  | .weight => src.hasAttribute .weight
  | .attack => src.hasAttribute .attack
  | .attackSpeed => src.hasAttribute .attackSpeed
  | .defense => src.hasAttribute .defense
  | .extraDefense => src.hasAttribute .extraDefense
  | .armor => src.hasAttribute .armor
  | .hitChance => src.hasAttribute .hitChance
  | .shootRange => src.hasAttribute .shootRange
  | .decayTo => src.hasAttribute .decayTo
  | _ => false

def storedInt : AttrType → Int
  | .actionId => max 100 (src.getActionId % (256 ^ 2 : Nat))
  | .date => (src.getDate % (256 ^ 4 : Nat)).bmod (2 ^ 32)
  | .decayState => 2
  | .duration => max 0 ((src.getIntAttr .duration).bmod (256 ^ 4))
  | .weight => src.getIntAttr .weight % (256 ^ 4 : Nat)
  | .attackSpeed => src.getIntAttr .attackSpeed % (256 ^ 4 : Nat)
  | .attack => (src.getIntAttr .attack).bmod (256 ^ 4)
  | .defense => (src.getIntAttr .defense).bmod (256 ^ 4)
  | .extraDefense => (src.getIntAttr .extraDefense).bmod (256 ^ 4)
  | .armor => (src.getIntAttr .armor).bmod (256 ^ 4)
  | .hitChance => (src.getIntAttr .hitChance).bmod (256 ^ 1)
  | .shootRange => src.getIntAttr .shootRange % (256 ^ 1 : Nat)
  | .decayTo => (src.getIntAttr .decayTo).bmod (256 ^ 4)
  | _ => 0

def restoreInt (type : AttrType) : StoredItem :=
  if src.writesInt items type then item.setIntAttr type (src.storedInt type) else item

theorem reads_writeIntAttr {src item : StoredItem} {code : AttrCode} {type : AttrType} {size : Nat}
    {read : Reader (Option Int)} {set : Int → StoredItem} {value : Int}
    (hplain : code.isPlain = true)
    (hcase : item.itemReadAttr env code = item.readField read set)
    (hread : read.Decodes (writeInt size (src.getIntAttr type)) (some value))
    (hset : set value = item.setIntAttr type (src.storedInt type))
    (hwrites : src.writesInt env.items type = src.hasAttribute type) :
    Reads env item (src.writeIntAttr code type size) (item.restoreInt src env.items type) := by
  rw [writeIntAttr, restoreInt, hwrites, ← hset]
  exact reads_if fun _ => reads_field hplain hcase hread

theorem reads_writeActionId :
    Reads env item (src.writeActionId env.items) (item.restoreInt src env.items .actionId) := by
  have hfield : Reads env item (AttrCode.actionId.byte :: writeInt 2 src.getActionId)
      (item.setIntAttr .actionId (src.storedInt .actionId)) := by
    have hset : item.setActionId (src.getActionId % (256 ^ 2 : Nat)) =
        item.setIntAttr .actionId (src.storedInt .actionId) := by
      rw [setActionId, storedInt]
      congr 1
      omega
    rw [← hset]
    exact reads_field rfl rfl (decodes_readUInt 2 _)
  simp only [writeActionId, restoreInt, writesInt, decide_eq_true_eq]
  exact reads_if fun _ => hfield

theorem reads_writeDate :
    Reads env item src.writeDate (item.restoreInt src env.items .date) := by
  have hfield : Reads env item (AttrCode.writtenDate.byte :: writeInt 4 src.getDate)
      (item.setDate (src.getDate % (256 ^ 4 : Nat))) := reads_field rfl rfl (decodes_readUInt 4 _)
  simp only [writeDate, restoreInt, writesInt, decide_eq_true_eq]
  exact reads_if fun _ => hfield

theorem reads_writeDecaying :
    Reads env item src.writeDecaying (item.restoreInt src env.items .decayState) := by
  simp only [writeDecaying, restoreInt, writesInt, decide_eq_true_eq]
  refine reads_if fun h => ?_
  have hne : src.getDecaying % (256 ^ 1 : Nat) ≠ 0 := by omega
  have hcase : item.itemReadAttr env .decayingState = item.readField (readUInt 1) fun state =>
      if state ≠ 0 then item.setIntAttr .decayState 2 else item := rfl
  have hfield : Reads env item (AttrCode.decayingState.byte :: writeInt 1 src.getDecaying)
      (if src.getDecaying % (256 ^ 1 : Nat) ≠ 0 then item.setIntAttr .decayState 2 else item) := by
    have hread := reads_field rfl hcase (decodes_readUInt 1 src.getDecaying)
    exact hread
  rwa [if_pos hne] at hfield

/-! ### Strings -/

def restoreStr (type : AttrType) : StoredItem :=
  item.setStrAttr type (storedString (src.getStrAttr type))

theorem setStrAttr_nil (type : AttrType) : item.setStrAttr type [] = item := by
  simp [setStrAttr, ItemAttributes.setStrAttr]

theorem reads_writeText {src item : StoredItem} {code : AttrCode} {type : AttrType}
    (hplain : code.isPlain = true)
    (hcase : item.itemReadAttr env code = item.readField readString (item.setStrAttr type)) :
    Reads env item (writeText code (src.getStrAttr type)) (item.restoreStr src type) := by
  unfold writeText restoreStr
  split
  · rename_i hempty
    have hnil : storedString (src.getStrAttr type) = [] := by
      rw [List.isEmpty_iff.mp hempty]
      rfl
    rw [hnil, setStrAttr_nil]
    exact reads_nil
  · exact reads_field hplain hcase (decodes_readString _)

theorem hasAttribute_iff_getStrAttr {type : AttrType} (hstr : type.isStrAttrType = true) :
    src.hasAttribute type = !(src.getStrAttr type).isEmpty := by
  have hint : type.isIntAttrType = false := by cases type <;> first | rfl | cases hstr
  simp only [hasAttribute, ItemAttributes.hasAttribute, hint, hstr, getStrAttr,
    ItemAttributes.getStrAttr]
  cases h : src.attributes.string type with
  | none => rfl
  | some s => simp [s.2]

theorem reads_writeStrAttr {src item : StoredItem} {code : AttrCode} {type : AttrType}
    (hplain : code.isPlain = true)
    (hstr : type.isStrAttrType = true)
    (hcase : item.itemReadAttr env code = item.readField readString (item.setStrAttr type)) :
    Reads env item (src.writeStrAttr code type) (item.restoreStr src type) := by
  have hwrite : src.writeStrAttr code type = writeText code (src.getStrAttr type) := by
    rw [writeStrAttr, writeText, hasAttribute_iff_getStrAttr src hstr]
    cases src.getStrAttr type <;> rfl
  rw [hwrite]
  exact reads_writeText hplain hcase

/-! ### Custom attributes -/

def restoreCustom : StoredItem :=
  match src.attributes.custom with
  | some map => item.restoreEntries map.entries
  | none => item

theorem reads_writeCustomAttributes
    (hsize : ∀ map ∈ src.attributes.custom, map.size < 2 ^ 64) :
    Reads env item src.writeCustomAttributes (item.restoreCustom src) := by
  unfold writeCustomAttributes restoreCustom
  cases hcustom : src.attributes.custom with
  | none => exact reads_nil
  | some map =>
    have hlt := hsize map hcustom
    have hlen : ((map.size : Int) % (256 ^ 8 : Nat)).toNat = map.entries.length := by
      simp only [CustomAttributeMap.size] at hlt ⊢
      omega
    have hentries := decodes_readCustomAttributes item map.entries
    rw [← hlen] at hentries
    apply reads_of_decodes
    rw [readAttr_of_isPlain rfl, itemReadAttr]
    exact (decodes_readUInt 8 map.size).bind hentries

/-! ## The whole item -/

/-- What the stream of `src` makes of `item`, field by field in the order of the stream. -/
def restore : StoredItem :=
  let item := item.restoreCount src items
  let item := item.restoreCharges src items
  let item := item.restoreInt src items .actionId
  let item := item.restoreStr src .text
  let item := item.restoreInt src items .date
  let item := item.restoreStr src .writer
  let item := item.restoreStr src .description
  let item := item.restoreInt src items .duration
  let item := item.restoreInt src items .decayState
  let item := item.restoreStr src .name
  let item := item.restoreStr src .article
  let item := item.restoreStr src .pluralName
  let item := item.restoreInt src items .weight
  let item := item.restoreInt src items .attack
  let item := item.restoreInt src items .attackSpeed
  let item := item.restoreInt src items .defense
  let item := item.restoreInt src items .extraDefense
  let item := item.restoreInt src items .armor
  let item := item.restoreInt src items .hitChance
  let item := item.restoreInt src items .shootRange
  let item := item.restoreInt src items .decayTo
  item.restoreCustom src

theorem reads_itemSerializeAttr (hsize : ∀ map ∈ src.attributes.custom, map.size < 2 ^ 64) :
    Reads env item (src.itemSerializeAttr env.items) (item.restore src env.items) := by
  unfold itemSerializeAttr restore
  refine Reads.append ?_ (reads_writeCustomAttributes _ src hsize)
  refine Reads.append ?_ (reads_writeIntAttr rfl rfl (decodes_readInt 4 _) rfl rfl)
  refine Reads.append ?_ (reads_writeIntAttr rfl rfl (decodes_readUInt 1 _) rfl rfl)
  refine Reads.append ?_ (reads_writeIntAttr rfl rfl (decodes_readInt 1 _) rfl rfl)
  refine Reads.append ?_ (reads_writeIntAttr rfl rfl (decodes_readInt 4 _) rfl rfl)
  refine Reads.append ?_ (reads_writeIntAttr rfl rfl (decodes_readInt 4 _) rfl rfl)
  refine Reads.append ?_ (reads_writeIntAttr rfl rfl (decodes_readInt 4 _) rfl rfl)
  refine Reads.append ?_ (reads_writeIntAttr rfl rfl (decodes_readUInt 4 _) rfl rfl)
  refine Reads.append ?_ (reads_writeIntAttr rfl rfl (decodes_readInt 4 _) rfl rfl)
  refine Reads.append ?_ (reads_writeIntAttr rfl rfl (decodes_readUInt 4 _) rfl rfl)
  refine Reads.append ?_ (reads_writeStrAttr rfl rfl rfl)
  refine Reads.append ?_ (reads_writeStrAttr rfl rfl rfl)
  refine Reads.append ?_ (reads_writeStrAttr rfl rfl rfl)
  refine Reads.append ?_ (reads_writeDecaying _ src)
  refine Reads.append ?_ (reads_writeIntAttr rfl rfl (decodes_readInt 4 _) rfl rfl)
  refine Reads.append ?_ (reads_writeText rfl rfl)
  refine Reads.append ?_ (reads_writeText rfl rfl)
  refine Reads.append ?_ (reads_writeDate _ src)
  refine Reads.append ?_ (reads_writeText rfl rfl)
  refine Reads.append ?_ (reads_writeActionId _ src)
  exact (reads_writeCount item src).append (reads_writeCharges _ src)

/-! ## What each field changes -/

theorem setIntAttr_integer {type : AttrType} (h : type.isIntAttrType = true) (value : Int)
    (t : AttrType) :
    (item.setIntAttr type value).attributes.integer t =
      if t = type then some (if type = .attackSpeed ∧ value < 100 then 100 else value)
      else item.attributes.integer t := by
  simp [setIntAttr, ItemAttributes.setIntAttr, h, Function.update_apply]

theorem setIntAttr_frame (type : AttrType) (value : Int) :
    (item.setIntAttr type value).id = item.id ∧
      (item.setIntAttr type value).cls = item.cls ∧
      (item.setIntAttr type value).count = item.count ∧
      (item.setIntAttr type value).attributes.string = item.attributes.string ∧
      (item.setIntAttr type value).attributes.custom = item.attributes.custom := by
  unfold setIntAttr ItemAttributes.setIntAttr
  split <;> exact ⟨rfl, rfl, rfl, rfl, rfl⟩

theorem isIntAttrType_of_writesInt {type : AttrType} (h : src.writesInt items type = true) :
    type.isIntAttrType = true := by
  cases type <;> first | rfl | cases h

@[simp] theorem restoreInt_integer (type t : AttrType) :
    (item.restoreInt src items type).attributes.integer t =
      if t = type ∧ src.writesInt items type = true then
        some (if type = .attackSpeed ∧ src.storedInt type < 100 then 100 else src.storedInt type)
      else item.attributes.integer t := by
  unfold restoreInt
  split
  · rename_i h
    rw [setIntAttr_integer item (isIntAttrType_of_writesInt src items h)]
    simp only [h, and_true]
  · rename_i h
    rw [if_neg fun hand => h hand.2]

@[simp] theorem restoreInt_frame (type : AttrType) :
    (item.restoreInt src items type).id = item.id ∧
      (item.restoreInt src items type).cls = item.cls ∧
      (item.restoreInt src items type).count = item.count ∧
      (item.restoreInt src items type).attributes.string = item.attributes.string ∧
      (item.restoreInt src items type).attributes.custom = item.attributes.custom := by
  unfold restoreInt
  split
  · exact setIntAttr_frame item type _
  · exact ⟨rfl, rfl, rfl, rfl, rfl⟩

theorem setSubType_frame (n : Int) :
    (item.setSubType items n).id = item.id ∧
      (item.setSubType items n).cls = item.cls ∧
      (item.setSubType items n).attributes.string = item.attributes.string ∧
      (item.setSubType items n).attributes.custom = item.attributes.custom ∧
      ∀ t, t ≠ .charges → t ≠ .fluidType →
        (item.setSubType items n).attributes.integer t = item.attributes.integer t := by
  have hset {type : AttrType} (h : type = .charges ∨ type = .fluidType) :
      ∀ t, t ≠ .charges → t ≠ .fluidType →
        (item.setIntAttr type n).attributes.integer t = item.attributes.integer t := by
    intro t hcharges hfluid
    have hne : t ≠ type := by
      rcases h with rfl | rfl
      · exact hcharges
      · exact hfluid
    have hint : type.isIntAttrType = true := by rcases h with rfl | rfl <;> rfl
    rw [setIntAttr_integer item hint, if_neg hne]
  have hfluid := setIntAttr_frame item .fluidType n
  have hcharges := setIntAttr_frame item .charges n
  unfold setSubType
  dsimp only
  split_ifs
  · exact ⟨hfluid.1, hfluid.2.1, hfluid.2.2.2.1, hfluid.2.2.2.2, hset (.inr rfl)⟩
  · exact ⟨rfl, rfl, rfl, rfl, fun _ _ _ => rfl⟩
  · exact ⟨hcharges.1, hcharges.2.1, hcharges.2.2.2.1, hcharges.2.2.2.2, hset (.inl rfl)⟩
  · exact ⟨rfl, rfl, rfl, rfl, fun _ _ _ => rfl⟩

theorem restoreCharges_frame :
    let item' := (item.restoreCount src items).restoreCharges src items
    item'.id = item.id ∧ item'.cls = item.cls ∧
      item'.attributes.string = item.attributes.string ∧
      item'.attributes.custom = item.attributes.custom ∧
      ∀ t, t ≠ .charges → t ≠ .fluidType →
        item'.attributes.integer t = item.attributes.integer t := by
  have hif {c : Prop} [Decidable c] (item : StoredItem) (n : Int) :
      let item' := if c then item.setSubType items n else item
      item'.id = item.id ∧ item'.cls = item.cls ∧
        item'.attributes.string = item.attributes.string ∧
        item'.attributes.custom = item.attributes.custom ∧
        ∀ t, t ≠ .charges → t ≠ .fluidType →
          item'.attributes.integer t = item.attributes.integer t := by
    dsimp only
    split
    · exact setSubType_frame item items n
    · exact ⟨rfl, rfl, rfl, rfl, fun _ _ _ => rfl⟩
  obtain ⟨hid, hcls, hstr, hcustom, hint⟩ := hif (c := src.getCharges ≠ 0)
    (item.restoreCount src items) (src.getCharges % (256 ^ 2 : Nat))
  have hcount := hif (c := ((items.get src.id).stackable || (items.get src.id).isFluidContainer ||
    (items.get src.id).isSplash) = true) item (src.getSubType items % (256 ^ 1 : Nat))
  refine ⟨hid.trans hcount.1, hcls.trans hcount.2.1, hstr.trans hcount.2.2.1,
    hcustom.trans hcount.2.2.2.1, fun t hc hf => ?_⟩
  exact (hint t hc hf).trans (hcount.2.2.2.2 t hc hf)

@[simp] theorem restoreStr_frame (type : AttrType) :
    (item.restoreStr src type).id = item.id ∧
      (item.restoreStr src type).cls = item.cls ∧
      (item.restoreStr src type).count = item.count ∧
      (item.restoreStr src type).attributes.integer = item.attributes.integer ∧
      (item.restoreStr src type).attributes.custom = item.attributes.custom := by
  unfold restoreStr setStrAttr ItemAttributes.setStrAttr
  split_ifs <;> exact ⟨rfl, rfl, rfl, rfl, rfl⟩

theorem setStrAttr_getStrAttr (type t : AttrType) (s : List UInt8) :
    (item.setStrAttr type s).getStrAttr t =
      if t = type ∧ type.isStrAttrType = true ∧ s ≠ [] then s else item.getStrAttr t := by
  by_cases hset : type.isStrAttrType = true ∧ s ≠ []
  · obtain ⟨hstr, hne⟩ := hset
    simp only [setStrAttr, ItemAttributes.setStrAttr, getStrAttr, ItemAttributes.getStrAttr, hstr,
      if_true, dif_neg hne]
    by_cases ht : t = type
    · subst ht
      simp [hstr, hne]
    · rw [Function.update_of_ne ht, if_neg fun h => ht h.1]
  · have hself : item.setStrAttr type s = item := by
      unfold setStrAttr ItemAttributes.setStrAttr
      split_ifs with hstr hnil
      · rfl
      · exact absurd ⟨hstr, hnil⟩ hset
      · rfl
    rw [hself, if_neg fun h => hset h.2]

@[simp] theorem restoreStr_getStrAttr (type t : AttrType) :
    (item.restoreStr src type).getStrAttr t =
      if t = type ∧ storedString (src.getStrAttr type) ≠ [] then storedString (src.getStrAttr type)
      else item.getStrAttr t := by
  have hiff : storedString (src.getStrAttr type) ≠ [] → type.isStrAttrType = true := by
    intro hne
    by_contra hstr
    have hnil : src.getStrAttr type = [] := by
      unfold getStrAttr ItemAttributes.getStrAttr
      split <;> simp [hstr]
    exact hne (by rw [hnil]; rfl)
  rw [restoreStr, setStrAttr_getStrAttr]
  refine if_congr ?_ rfl rfl
  exact ⟨fun h => ⟨h.1, h.2.2⟩, fun h => ⟨h.1, hiff h.2, h.2⟩⟩

@[simp] theorem restoreCustom_frame :
    (item.restoreCustom src).id = item.id ∧
      (item.restoreCustom src).cls = item.cls ∧
      (item.restoreCustom src).count = item.count ∧
      (item.restoreCustom src).attributes.integer = item.attributes.integer ∧
      (item.restoreCustom src).attributes.string = item.attributes.string := by
  have hentries : ∀ (entries : List (LowerString × CustomAttribute)) (item : StoredItem),
      (item.restoreEntries entries).id = item.id ∧
        (item.restoreEntries entries).cls = item.cls ∧
        (item.restoreEntries entries).count = item.count ∧
        (item.restoreEntries entries).attributes.integer = item.attributes.integer ∧
        (item.restoreEntries entries).attributes.string = item.attributes.string := by
    intro entries
    induction entries with
    | nil => exact fun item => ⟨rfl, rfl, rfl, rfl, rfl⟩
    | cons e es ih => exact fun item => ih (item.setCustomAttribute _ _)
  unfold restoreCustom
  split
  · exact hentries _ item
  · exact ⟨rfl, rfl, rfl, rfl, rfl⟩

/-! ## What comes back -/

theorem restore_frame :
    (item.restore src items).id = item.id ∧ (item.restore src items).cls = item.cls := by
  obtain ⟨hid, hcls, -⟩ := restoreCharges_frame item src items
  simp [restore, hid, hcls]

theorem restore_integer {t : AttrType} (hcharges : t ≠ .charges) (hfluid : t ≠ .fluidType) :
    (item.restore src items).attributes.integer t =
      if src.writesInt items t then
        some (if t = .attackSpeed ∧ src.storedInt t < 100 then 100 else src.storedInt t)
      else item.attributes.integer t := by
  have hint := (restoreCharges_frame item src items).2.2.2.2 t hcharges hfluid
  simp only [restore, restoreCustom_frame, restoreInt_integer, restoreStr_frame]
  cases t <;> simp_all [writesInt]

theorem getStrAttr_congr {item item' : StoredItem}
    (h : item'.attributes.string = item.attributes.string) (t : AttrType) :
    item'.getStrAttr t = item.getStrAttr t := by
  simp only [getStrAttr, ItemAttributes.getStrAttr, h]

theorem restore_getStrAttr {t : AttrType} (hstr : t.isStrAttrType = true) :
    (item.restore src items).getStrAttr t =
      if storedString (src.getStrAttr t) = [] then item.getStrAttr t
      else storedString (src.getStrAttr t) := by
  have hint (item : StoredItem) (type : AttrType) :
      (item.restoreInt src items type).getStrAttr t = item.getStrAttr t :=
    getStrAttr_congr (restoreInt_frame item src items type).2.2.2.1 t
  have hcustom (item : StoredItem) : (item.restoreCustom src).getStrAttr t = item.getStrAttr t :=
    getStrAttr_congr (restoreCustom_frame item src).2.2.2.2 t
  have hcount : ((item.restoreCount src items).restoreCharges src items).getStrAttr t =
      item.getStrAttr t := getStrAttr_congr (restoreCharges_frame item src items).2.2.1 t
  simp only [restore, hcustom, hint, restoreStr_getStrAttr, hcount]
  cases t <;> simp [AttrType.isStrAttrType] at hstr ⊢

theorem setCustomAttribute_getCustomAttribute (k key : List UInt8) (value : CustomAttribute) :
    (item.setCustomAttribute k value).getCustomAttribute key =
      if LowerString.of key = LowerString.of k then some value
      else item.getCustomAttribute key := by
  unfold setCustomAttribute ItemAttributes.setCustomAttribute getCustomAttribute
    ItemAttributes.getCustomAttribute
  cases item.attributes.custom with
  | some m => exact m.find_emplace_erase _ _ _
  | none => exact CustomAttributeMap.find_emplace_erase .empty _ _ _

/-- No key and no value is too long for its length field. -/
def CustomFits (m : CustomAttributeMap) : Prop :=
  ∀ e ∈ m.entries, e.1.1.length ≤ 65535 ∧ ∀ s, e.2 = .string s → s.length ≤ 65535

theorem stored_of_fits {value : CustomAttribute}
    (h : ∀ s, value = .string s → s.length ≤ 65535) : value.stored = value := by
  cases value with
  | string s => exact congrArg CustomAttribute.string (storedString_of_le (h s rfl))
  | _ => rfl

theorem restoreEntries_getCustomAttribute {entries : List (LowerString × CustomAttribute)}
    (hnodup : (entries.map Prod.fst).Nodup)
    (hfits : ∀ e ∈ entries, e.1.1.length ≤ 65535 ∧ ∀ s, e.2 = .string s → s.length ≤ 65535)
    (key : List UInt8) :
    (item.restoreEntries entries).getCustomAttribute key =
      (entries.lookup (LowerString.of key)).or (item.getCustomAttribute key) := by
  induction entries generalizing item with
  | nil => rfl
  | cons e es ih =>
    obtain ⟨hfresh, hnodup⟩ := List.nodup_cons.mp hnodup
    obtain ⟨hkey, hvalue⟩ := hfits e (by simp)
    have hset := setCustomAttribute_getCustomAttribute item e.1.1 key e.2
    have hrest := ih (item.setCustomAttribute e.1.1 e.2) hnodup
      fun e' he' => hfits e' (List.mem_cons_of_mem _ he')
    rw [LowerString.of_val] at hset
    have hstep : item.restoreEntries (e :: es) =
        (item.setCustomAttribute e.1.1 e.2).restoreEntries es := by
      rw [restoreEntries, List.foldl_cons, storedString_of_le hkey, stored_of_fits hvalue]
      rfl
    rw [hstep, hrest, hset, List.lookup_cons]
    by_cases heq : LowerString.of key = e.1
    · have hnone : es.lookup e.1 = none := by
        rw [List.lookup_eq_none_iff]
        intro e' he'
        rw [bne_iff_ne]
        intro heq
        apply hfresh
        rw [heq]
        exact List.mem_map_of_mem he'
      simp [heq, hnone]
    · simp [heq, beq_false_of_ne heq]

theorem restore_getCustomAttribute (hfresh : item.attributes.custom = none)
    (hfits : ∀ map ∈ src.attributes.custom, CustomFits map) (key : List UInt8) :
    (item.restore src items).getCustomAttribute key = src.getCustomAttribute key := by
  have hcustom : ((item.restoreCount src items).restoreCharges src items).attributes.custom =
      none := (restoreCharges_frame item src items).2.2.2.1.trans hfresh
  simp only [restore]
  generalize hlast : restoreInt _ src items .decayTo = last
  have hnone : last.attributes.custom = none := by
    rw [← hlast]
    simp [hcustom]
  unfold restoreCustom getCustomAttribute ItemAttributes.getCustomAttribute
  cases hmap : src.attributes.custom with
  | none => simp [hnone]
  | some map =>
    have hentries := restoreEntries_getCustomAttribute last map.nodup (hfits map hmap) key
    have hlast : last.getCustomAttribute key = none := by
      simp [getCustomAttribute, ItemAttributes.getCustomAttribute, hnone]
    rw [hlast, Option.or_none] at hentries
    exact hentries

/-! ### Subtypes -/

/-- The type keeps its subtype in the charges of the object. -/
def countsCharges (it : ItemType) : Bool :=
  !it.isFluidContainer && !it.isSplash && !it.stackable && it.charges ≠ 0

theorem getSubType_congr {item item' : StoredItem} (hid : item'.id = item.id)
    (hcount : item'.count = item.count)
    (hcharges : item'.attributes.integer .charges = item.attributes.integer .charges)
    (hfluid : item'.attributes.integer .fluidType = item.attributes.integer .fluidType) :
    item'.getSubType items = item.getSubType items := by
  simp only [getSubType, getFluidType, getCharges, getIntAttr, ItemAttributes.getIntAttr, hid,
    hcount, hcharges, hfluid]

theorem restore_count :
    (item.restore src items).count = ((item.restoreCount src items).restoreCharges src items).count := by
  simp [restore]

theorem restore_subType_eq :
    (item.restore src items).getSubType items =
      ((item.restoreCount src items).restoreCharges src items).getSubType items := by
  apply getSubType_congr
  · rw [(restore_frame item src items).1, (restoreCharges_frame item src items).1]
  · exact restore_count item src items
  · simp [restore]
  · simp [restore]

theorem setFluidType_getFluidType (n : Int) : (item.setFluidType n).getFluidType = n % 2 ^ 16 := by
  rw [getFluidType, getIntAttr, ItemAttributes.getIntAttr, setFluidType,
    setIntAttr_integer item rfl]
  rfl

theorem setCharges_getCharges (n : Int) : (item.setCharges n).getCharges = n % 2 ^ 16 := by
  rw [getCharges, getIntAttr, ItemAttributes.getIntAttr, setCharges, setIntAttr_integer item rfl]
  rfl

theorem setItemCount_count (n : UInt8) :
    (item.setItemCount ((n.toNat : Int) % (256 ^ 1 : Nat))).count = n := by
  have hlt := n.toNat_lt
  apply UInt8.toNat_inj.mp
  rw [setItemCount, UInt8.ofInt, UInt8.toNat_ofNat']
  omega

theorem setSubType_getSubType (hid : item.id = src.id)
    (hsub : (items.get src.id).hasSubType = true) (hfluid : src.getFluidType < 256)
    (hcharges : countsCharges (items.get src.id) = false) :
    (item.setSubType items (src.getSubType items % (256 ^ 1 : Nat))).getSubType items =
      src.getSubType items := by
  have hnonneg : 0 ≤ src.getFluidType := Int.emod_nonneg _ (by decide)
  have hframe := setSubType_frame item items (src.getSubType items % (256 ^ 1 : Nat))
  rw [getSubType, hframe.1, hid]
  unfold setSubType getSubType
  rw [hid]
  simp only [ItemType.hasSubType, countsCharges] at hsub hcharges
  dsimp only
  split_ifs with h1 h2 h3
  · rw [setFluidType_getFluidType]
    omega
  · rw [setItemCount_count]
  · simp_all
  · simp_all

theorem restore_subType (hid : item.id = src.id)
    (hsub : (items.get src.id).hasSubType = true)
    (hcharges : src.getCharges ≠ 0 ↔ countsCharges (items.get src.id) = true)
    (hfluid : src.getFluidType < 256) :
    (item.restore src items).getSubType items = src.getSubType items := by
  rw [restore_subType_eq]
  by_cases hcount : countsCharges (items.get src.id) = true
  · have hne := hcharges.mpr hcount
    have hskip : item.restoreCount src items = item := by
      simp only [countsCharges, Bool.and_eq_true, Bool.not_eq_true'] at hcount
      simp [restoreCount, hcount]
    have hrange : 0 ≤ src.getCharges ∧ src.getCharges < 2 ^ 16 := by
      unfold getCharges
      omega
    have hframe := setSubType_frame item items (src.getCharges % (256 ^ 2 : Nat))
    simp only [countsCharges, Bool.and_eq_true, Bool.not_eq_true', decide_eq_true_eq] at hcount
    rw [hskip, restoreCharges, if_pos hne, getSubType, hframe.1, getSubType, setSubType, hid]
    simp only [hcount, Bool.or_self, Bool.false_eq_true, if_false, ne_eq, not_false_eq_true, if_true]
    rw [setCharges_getCharges]
    omega
  · have hzero : ¬ src.getCharges ≠ 0 := fun hne => hcount (hcharges.mp hne)
    have hwrites : ((items.get src.id).stackable || (items.get src.id).isFluidContainer ||
        (items.get src.id).isSplash) = true := by
      simp only [ItemType.hasSubType, countsCharges] at hsub hcount
      grind
    rw [restoreCharges, if_neg hzero, restoreCount, if_pos hwrites]
    exact setSubType_getSubType item src items hid hsub hfluid (by simpa using hcount)

/-! ### Fresh objects -/

theorem construct_frame (type : Nat) (count : UInt16) (cls : StoredClass) :
    let item := construct items type count cls
    item.id = type ∧ item.cls = cls ∧
      item.attributes.string = (fun _ => none) ∧ item.attributes.custom = none ∧
      ∀ t, t ≠ .charges → t ≠ .fluidType →
        (t = .duration → (items.get type).decayTime * 1000 % 2 ^ 32 = 0) →
          item.attributes.integer t = none := by
  -- Every branch sets one of the two subtype attributes at most, and then perhaps the duration.
  have hset {type : AttrType} (hint : type.isIntAttrType = true) (item : StoredItem) (n : Int)
      {t : AttrType} (ht : t ≠ type) :
      (item.setIntAttr type n).attributes.integer t = item.attributes.integer t := by
    rw [setIntAttr_integer item hint, if_neg ht]
  unfold construct
  dsimp only
  split_ifs <;> refine ⟨rfl, rfl, rfl, rfl, fun t hcharges hfluid hduration => ?_⟩
  all_goals
    first
    | rw [setDuration, hset rfl _ _ fun ht => absurd (hduration ht) (by assumption)]
    | skip
    first
    | exact hset rfl _ _ hcharges
    | exact hset rfl _ _ hfluid
    | rfl

/-! ## The round trip -/

def savesInt (it : ItemType) : AttrType → Bool
  | .actionId => it.moveable
  | .date | .duration | .weight | .attack | .attackSpeed | .defense | .extraDefense | .armor
  | .hitChance | .shootRange | .decayTo => true
  | _ => false

def FitsInt : AttrType → Int → Prop
  | .actionId, v => v = 0 ∨ 100 ≤ v ∧ v < 2 ^ 16
  | .weight, v | .attackSpeed, v => 0 ≤ v ∧ v < 2 ^ 32
  | .duration, v => 0 ≤ v ∧ v < 2 ^ 31
  | .hitChance, v => -2 ^ 7 ≤ v ∧ v < 2 ^ 7
  | .shootRange, v => 0 ≤ v ∧ v < 2 ^ 8
  | _, v => -2 ^ 31 ≤ v ∧ v < 2 ^ 31

/-- The item read back, against the item written. -/
structure Restores (items : Items) (src dst : StoredItem) : Prop where
  id : dst.id = src.id
  /-- A type with a default duration gives it back to an object that has lost its own. -/
  integer : ∀ t, savesInt (items.get src.id) t = true → FitsInt t (src.getIntAttr t) →
    (t = .duration → src.hasAttribute .duration = true ∨ src.getDefaultDuration items = 0) →
      dst.getIntAttr t = src.getIntAttr t
  present : ∀ t, savesInt (items.get src.id) t = true → t ≠ .actionId → t ≠ .date →
    (t = .duration → src.hasAttribute .duration = true ∨ src.getDefaultDuration items = 0) →
      dst.hasAttribute t = src.hasAttribute t
  absent : ∀ t, t.isIntAttrType = true → savesInt (items.get src.id) t = false →
    t ≠ .charges → t ≠ .fluidType → t ≠ .decayState → dst.hasAttribute t = false
  decaying : dst.getDecaying = if src.getDecaying = 1 ∨ src.getDecaying = 2 then 2 else 0
  string : ∀ t, t.isStrAttrType = true → (src.getStrAttr t).length ≤ 65535 →
    dst.getStrAttr t = src.getStrAttr t
  custom : (∀ map ∈ src.attributes.custom, CustomFits map) →
    ∀ key, dst.getCustomAttribute key = src.getCustomAttribute key
  /-- The charges share their field with the subtype, so they must belong to a type that counts
  them. -/
  subType : (items.get src.id).hasSubType = true →
    (src.getCharges ≠ 0 ↔ countsCharges (items.get src.id) = true) → src.getFluidType < 256 →
      dst.getSubType items = src.getSubType items

theorem attackSpeed_ge_of_hasAttribute (h : src.hasAttribute .attackSpeed = true) :
    100 ≤ src.getIntAttr .attackSpeed := by
  change (src.attributes.integer .attackSpeed).isSome = true at h
  obtain ⟨v, hv⟩ := Option.isSome_iff_exists.mp h
  change 100 ≤ (src.attributes.integer .attackSpeed).getD 0
  rw [hv]
  exact src.attributes.attackSpeed_ge v hv

theorem storedInt_of_fits {t : AttrType} (hsaved : savesInt (items.get src.id) t = true)
    (hfits : FitsInt t (src.getIntAttr t)) (hwrites : src.writesInt items t = true) :
    (if t = .attackSpeed ∧ src.storedInt t < 100 then 100 else src.storedInt t) =
      src.getIntAttr t := by
  have hbmod {v : Int} {m : Nat} (hlo : -(m : Int) ≤ v * 2) (hhi : v * 2 < m) : v.bmod m = v :=
    Int.bmod_eq_of_le_mul_two hlo hhi
  cases t <;> simp only [savesInt, FitsInt, storedInt, writesInt, reduceCtorEq, false_and, true_and,
    if_false, Bool.false_eq_true, decide_eq_true_eq] at *
  case actionId =>
    simp only [getActionId] at *
    omega
  case date =>
    have hwidth : 256 ^ 4 = 2 ^ 32 := by norm_num
    rw [hwidth, Int.emod_bmod, getDate]
    exact hbmod (by omega) (by omega)
  case duration =>
    rw [hbmod (by omega) (by omega)]
    omega
  case attackSpeed =>
    have hge : 100 ≤ src.getIntAttr .attackSpeed := attackSpeed_ge_of_hasAttribute src hwrites
    omega
  case weight | shootRange => omega
  all_goals exact hbmod (by omega) (by omega)

theorem isIntAttrType_of_savesInt {it : ItemType} {t : AttrType} (h : savesInt it t = true) :
    t.isIntAttrType = true := by
  cases t <;> first | rfl | cases h

theorem ne_of_savesInt {it : ItemType} {t : AttrType} (h : savesInt it t = true) :
    t ≠ .charges ∧ t ≠ .fluidType := by
  constructor <;>
  · rintro rfl
    cases h

theorem getIntAttr_of_hasAttribute_eq_false {t : AttrType} (hint : t.isIntAttrType = true)
    (h : src.hasAttribute t = false) : src.getIntAttr t = 0 := by
  rw [hasAttribute, ItemAttributes.hasAttribute, if_pos hint, Option.isSome_eq_false_iff,
    Option.isNone_iff_eq_none] at h
  rw [getIntAttr, ItemAttributes.getIntAttr, if_pos hint, h]
  rfl

theorem getIntAttr_of_not_writesInt {t : AttrType} (hsaved : savesInt (items.get src.id) t = true)
    (hfits : FitsInt t (src.getIntAttr t)) (hwrites : ¬ src.writesInt items t = true) :
    src.getIntAttr t = 0 := by
  have hint := isIntAttrType_of_savesInt hsaved
  have habsent (h : ¬ src.hasAttribute t = true) : src.getIntAttr t = 0 :=
    getIntAttr_of_hasAttribute_eq_false src hint (by simpa using h)
  cases t with
  | actionId =>
    simp only [savesInt, FitsInt] at hsaved hfits
    have hzero : src.getActionId = 0 := by
      by_contra hne
      exact hwrites (decide_eq_true ⟨hsaved, hne⟩)
    rw [getActionId] at hzero
    omega
  | date =>
    by_contra hne
    exact hwrites (decide_eq_true hne)
  | _ => first | exact habsent hwrites | cases hsaved

theorem restores_restore (hid : item.id = src.id)
    (hint : ∀ t, t ≠ .charges → t ≠ .fluidType →
      (t = .duration → src.getDefaultDuration items = 0) → item.attributes.integer t = none)
    (hstring : item.attributes.string = fun _ => none) (hcustom : item.attributes.custom = none) :
    Restores items src (item.restore src items) := by
  have hread {t : AttrType} (hne : t ≠ .charges ∧ t ≠ .fluidType)
      (hduration : t = .duration →
        src.hasAttribute .duration = true ∨ src.getDefaultDuration items = 0) :
      (item.restore src items).attributes.integer t =
        if src.writesInt items t = true then
          some (if t = .attackSpeed ∧ src.storedInt t < 100 then 100 else src.storedInt t)
        else none := by
    rw [restore_integer item src items hne.1 hne.2]
    by_cases hwrites : src.writesInt items t = true
    · rw [if_pos hwrites, if_pos hwrites]
    · rw [if_neg hwrites, if_neg hwrites]
      refine hint t hne.1 hne.2 fun ht => (hduration ht).resolve_left ?_
      subst ht
      exact hwrites
  refine ⟨(restore_frame item src items).1.trans hid, ?_, ?_, ?_, ?_, ?_, ?_, ?_⟩
  · intro t hsaved hfits hduration
    have hint := isIntAttrType_of_savesInt hsaved
    rw [getIntAttr, ItemAttributes.getIntAttr, if_pos hint, hread (ne_of_savesInt hsaved) hduration]
    split
    · exact storedInt_of_fits src items hsaved hfits ‹_›
    · exact (getIntAttr_of_not_writesInt src items hsaved hfits ‹_›).symm
  · intro t hsaved haction hdate hduration
    have hint := isIntAttrType_of_savesInt hsaved
    have hwrites : src.writesInt items t = src.hasAttribute t := by
      cases t <;> first | rfl | exact absurd rfl haction | exact absurd rfl hdate | cases hsaved
    rw [hasAttribute, ItemAttributes.hasAttribute, if_pos hint,
      hread (ne_of_savesInt hsaved) hduration, hwrites]
    cases src.hasAttribute t <;> rfl
  · intro t hint hunsaved hcharges hfluid hdecay
    have hduration : t ≠ .duration := by
      rintro rfl
      cases hunsaved
    have hwrites : src.writesInt items t = false := by
      cases t <;> first | rfl | simp_all [savesInt, writesInt]
    rw [hasAttribute, ItemAttributes.hasAttribute, if_pos hint,
      hread ⟨hcharges, hfluid⟩ fun h => absurd h hduration, hwrites]
    rfl
  · have hint : AttrType.decayState.isIntAttrType = true := rfl
    rw [getDecaying, getIntAttr, ItemAttributes.getIntAttr, if_pos hint,
      hread (by simp) (by simp)]
    simp only [writesInt, decide_eq_true_eq]
    split <;> rfl
  · intro t hstr hlen
    have hnil : item.getStrAttr t = [] := by
      simp [getStrAttr, ItemAttributes.getStrAttr, hstring]
    rw [restore_getStrAttr item src items hstr, storedString_of_le hlen, hnil]
    split
    · rename_i h
      exact h.symm
    · rfl
  · exact fun hfits key => restore_getCustomAttribute item src items hcustom hfits key
  · exact fun hsub hcharges hfluid => restore_subType item src items hid hsub hcharges hfluid

/-! ### Teleports and beds -/

theorem reads_teleDest (h : ∃ x y z, item.cls = .teleport x y z) (x y : UInt16) (z : UInt8) :
    Reads env item (AttrCode.teleDest.byte ::
      (writeInt 2 x.toNat ++ writeInt 2 y.toNat ++ writeInt 1 z.toNat))
      { item with cls := .teleport x y z } := by
  obtain ⟨x₀, y₀, z₀, hcls⟩ := h
  have hword (v : UInt16) : UInt16.ofInt ((v.toNat : Int) % (256 ^ 2 : Nat)) = v := by
    have hlt := v.toNat_lt
    apply UInt16.toNat_inj.mp
    rw [UInt16.ofInt, UInt16.toNat_ofNat']
    omega
  have hbyte : UInt8.ofInt ((z.toNat : Int) % (256 ^ 1 : Nat)) = z := by
    have hlt := z.toNat_lt
    apply UInt8.toNat_inj.mp
    rw [UInt8.ofInt, UInt8.toNat_ofNat']
    omega
  apply reads_of_decodes
  have hcase : item.readAttr env .teleDest = item.readTeleDest x₀ y₀ z₀ := by
    unfold readAttr
    rw [hcls]
  let dst : StoredItem := { item with
    cls := .teleport (UInt16.ofInt ((x.toNat : Int) % (256 ^ 2 : Nat)))
      (UInt16.ofInt ((y.toNat : Int) % (256 ^ 2 : Nat)))
      (UInt8.ofInt ((z.toNat : Int) % (256 ^ 1 : Nat))) }
  have hdst : dst = { item with cls := .teleport x y z } := by
    simp only [dst, hword, hbyte]
  have hpure : (Reader.pure (AttrReadValue.continue, dst)).Decodes [] (.continue, dst) :=
    Reader.decodes_pure _
  rw [hcase, readTeleDest, ← hdst, List.append_assoc, ← List.append_nil (writeInt 1 _)]
  refine Reader.Decodes.bind (decodes_readUInt 2 x.toNat) ?_
  refine Reader.Decodes.bind (decodes_readUInt 2 y.toNat) ?_
  exact Reader.Decodes.bind (decodes_readUInt 1 z.toNat) hpure

theorem reads_sleeper {guid₀ guid : UInt32} {start : UInt64} (h : item.cls = .bed guid₀ start) :
    Reads env item (AttrCode.sleeperGuid.byte :: writeInt 4 guid.toNat)
      (item.readSleeper env start ((guid.toNat : Int) % (256 ^ 4 : Nat))) := by
  have hcase : item.readAttr env .sleeperGuid =
      item.readField (readUInt 4) (item.readSleeper env start) := by
    unfold readAttr
    rw [h]
  apply reads_of_decodes
  rw [hcase]
  exact (decodes_readUInt 4 guid.toNat).map _

theorem reads_sleepStart {guid : UInt32} {start₀ start : UInt64}
    (h : item.cls = .bed guid start₀) :
    Reads env item (AttrCode.sleepStart.byte :: writeInt 4 start.toNat)
      { item with cls := .bed guid (UInt64.ofNat (start.toNat % 2 ^ 32)) } := by
  have hcase : item.readAttr env .sleepStart = item.readField (readUInt 4) fun start =>
      { item with cls := .bed guid (UInt64.ofInt start) } := by
    unfold readAttr
    rw [h]
  have hstart : UInt64.ofInt ((start.toNat : Int) % (256 ^ 4 : Nat)) =
      UInt64.ofNat (start.toNat % 2 ^ 32) := by
    apply UInt64.toNat_inj.mp
    rw [UInt64.ofInt, UInt64.toNat_ofNat', UInt64.toNat_ofNat']
    omega
  apply reads_of_decodes
  rw [hcase, ← hstart]
  exact (decodes_readUInt 4 start.toNat).map _

/-- The sleeper is only known by the name in the database, and the start keeps its low 32
bits. -/
structure RestoresBed (env : StreamEnv) (guid : UInt32) (start : UInt64) (dst : StoredItem) :
    Prop where
  cls : dst.cls = .bed (if env.getNameByGuid guid = [] then 0 else guid)
    (UInt64.ofNat (start.toNat % 2 ^ 32))
  description : guid ≠ 0 → env.getNameByGuid guid ≠ [] →
    dst.getSpecialDescription = env.getNameByGuid guid ++ ofAscii " is sleeping there."

/-- What comes back from the stream of `src` into the new object `item`. -/
def ComesBack (env : StreamEnv) (src item dst : StoredItem) : Prop :=
  match src.cls with
  | .bed guid start => RestoresBed env guid start dst
  | .door => dst = item
  | .teleport x y z => dst.cls = .teleport x y z ∧ Restores env.items src dst
  | _ => Restores env.items src dst

theorem readSleeper_of_ne {guid : UInt32} {start : UInt64} (h : guid ≠ 0) :
    item.readSleeper env start ((guid.toNat : Int) % (256 ^ 4 : Nat)) =
      if env.getNameByGuid guid = [] then item
      else { item.setSpecialDescription (env.getNameByGuid guid ++ ofAscii " is sleeping there.") with
        cls := .bed guid start } := by
  have hself : UInt32.ofInt ((guid.toNat : Int) % (256 ^ 4 : Nat)) = guid := by
    have hlt := guid.toNat_lt
    apply UInt32.toNat_inj.mp
    rw [UInt32.ofInt, UInt32.toNat_ofNat']
    omega
  simp only [readSleeper, hself, h, ne_eq, not_false_eq_true, if_true, ite_not]

theorem reads_bedSerializeAttr (guid : UInt32) (start : UInt64) (h : item.cls = .bed 0 0) :
    ∃ dst, Reads env item (bedSerializeAttr guid start) dst ∧ RestoresBed env guid start dst := by
  -- The sleeper first: without a guid the bed keeps the guid zero it was made with.
  have hsleeper : ∃ slept, Reads env item
      (if guid ≠ 0 then AttrCode.sleeperGuid.byte :: writeInt 4 guid.toNat else []) slept ∧
      slept.cls = .bed (if env.getNameByGuid guid = [] then 0 else guid) 0 ∧
      (guid ≠ 0 → env.getNameByGuid guid ≠ [] →
        slept.getSpecialDescription = env.getNameByGuid guid ++ ofAscii " is sleeping there.") := by
    by_cases hguid : guid = 0
    · refine ⟨item, ?_, ?_, fun hne => absurd hguid hne⟩
      · rw [if_neg (not_not.mpr hguid)]
        exact reads_nil
      · rw [h, hguid, ite_self]
    · refine ⟨item.readSleeper env 0 ((guid.toNat : Int) % (256 ^ 4 : Nat)), ?_, ?_, ?_⟩
      · rw [if_pos hguid]
        exact reads_sleeper item h
      · rw [readSleeper_of_ne item hguid]
        split
        · exact h
        · rfl
      · intro _ hname
        rw [readSleeper_of_ne item hguid, if_neg hname]
        refine (setStrAttr_getStrAttr item .description .description _).trans (if_pos ?_)
        exact ⟨rfl, rfl, List.append_ne_nil_of_left_ne_nil hname _⟩
  obtain ⟨slept, hreads, hcls, hdescription⟩ := hsleeper
  refine ⟨_, hreads.append (reads_if fun _ => reads_sleepStart slept hcls), ?_, fun hne hname => ?_⟩
  · split
    · rfl
    · rename_i hzero
      rw [hcls, not_ne_iff.mp hzero]
      rfl
  · rw [← hdescription hne hname]
    split <;> rfl

theorem reads_serializeAttr (src : StoredItem) (count : UInt16)
    (hsize : ∀ map ∈ src.attributes.custom, map.size < 2 ^ 64) :
    ∃ dst, Reads env (fresh env.items src.id count src.cls) (src.serializeAttr env.items) dst ∧
      ComesBack env src (fresh env.items src.id count src.cls) dst := by
  have hplain (cls : StoredClass) : Restores env.items src
      ((construct env.items src.id count cls).restore src env.items) := by
    obtain ⟨hid, -, hstring, hcustom, hint⟩ := construct_frame env.items src.id count cls
    exact restores_restore _ _ _ hid hint hstring hcustom
  unfold serializeAttr ComesBack
  cases hcls : src.cls with
  | bed guid start =>
    refine reads_bedSerializeAttr _ guid start ?_
    exact (construct_frame env.items src.id count (.bed 0 0)).2.1
  | door => exact ⟨_, reads_nil, rfl⟩
  | teleport x y z =>
    let base := construct env.items src.id count (.teleport 0 0 0)
    have hitem := @reads_itemSerializeAttr env base src hsize
    have hcls : (base.restore src env.items).cls = .teleport 0 0 0 :=
      (restore_frame base src env.items).2.trans
        (construct_frame env.items src.id count (.teleport 0 0 0)).2.1
    have hdest := @reads_teleDest env _ ⟨0, 0, 0, hcls⟩ x y z
    refine ⟨_, hitem.append hdest, rfl, ?_⟩
    have hback := hplain (.teleport 0 0 0)
    exact { hback with }
  | item => exact ⟨_, reads_itemSerializeAttr _ src hsize, hplain _⟩
  | container n => exact ⟨_, reads_itemSerializeAttr _ src hsize, hplain _⟩
  | depotLocker n => exact ⟨_, reads_itemSerializeAttr _ src hsize, hplain _⟩

/-- Reading the stream of an item into a new object of its class and id succeeds, takes the bytes
of the stream and no other, and brings the attributes back. The stream may end there or be closed
by a zero byte. -/
theorem unserializeAttr_serializeAttr (env : StreamEnv) (src : StoredItem) (count : UInt16)
    (hsize : ∀ map ∈ src.attributes.custom, map.size < 2 ^ 64) :
    let item := fresh env.items src.id count src.cls
    let bytes := src.serializeAttr env.items
    ∃ dst, item.unserializeAttr env bytes = (true, dst, []) ∧
      (∀ rest, item.unserializeAttr env (bytes ++ 0 :: rest) = (true, dst, rest)) ∧
      ComesBack env src item dst := by
  obtain ⟨dst, hreads, hback⟩ := @reads_serializeAttr env src count hsize
  refine ⟨dst, ?_, fun rest => ?_, hback⟩
  · have hend := hreads []
    rw [List.append_nil] at hend
    rw [hend, unserializeAttr]
  · rw [hreads, unserializeAttr, if_pos rfl]

/-! ## Concrete items -/

def plainEnv : StreamEnv where
  items := .ofEntries [{ ItemType.default with id := 2400, moveable := true, pickupable := true }]
  addUniqueItem := fun _ => true
  getNameByGuid := fun _ => []

def letter : StoredItem :=
  ((construct plainEnv.items 2400 0 .item).setText (ofAscii "gold")).setActionId 150

theorem unserializeAttr_serializeAttr_letter :
    ∃ dst, (fresh plainEnv.items 2400 0 .item).unserializeAttr plainEnv
        (letter.serializeAttr plainEnv.items) = (true, dst, []) ∧
      dst.getText = ofAscii "gold" ∧ dst.getIntAttr .actionId = 150 := by
  obtain ⟨dst, hread, -, hback⟩ :=
    unserializeAttr_serializeAttr plainEnv letter 0 (fun _ h => by cases h)
  refine ⟨dst, hread, ?_, ?_⟩
  · exact hback.string .text rfl (by decide)
  · exact hback.integer .actionId (by decide) (by unfold FitsInt; decide) (by simp)

/-- Every attribute reads as before, apart from the decay state. -/
def RestoresEverything (items : Items) (src dst : StoredItem) : Prop :=
  (∀ t, t ≠ .decayState → dst.getIntAttr t = src.getIntAttr t) ∧
    (∀ t, dst.getStrAttr t = src.getStrAttr t) ∧
    (∀ key, dst.getCustomAttribute key = src.getCustomAttribute key) ∧
    dst.count = src.count ∧ dst.getSubType items = src.getSubType items

def uniqueItem : StoredItem := (construct plainEnv.items 2400 0 .item).setUniqueId plainEnv 5000

/-- The unique id belongs to the map file and has no field in the stream. -/
theorem not_restoresEverything_uniqueItem :
    ¬ ∀ (env : StreamEnv) (src : StoredItem) (count : UInt16),
      let read := (fresh env.items src.id count src.cls).unserializeAttr env
        (src.serializeAttr env.items)
      read.1 = true ∧ read.2.2 = [] ∧ RestoresEverything env.items src read.2.1 := by
  intro h
  have hunique := (h plainEnv uniqueItem 0).2.2.1 .uniqueId (by decide)
  have hempty : uniqueItem.serializeAttr plainEnv.items = [] := by decide
  rw [hempty, unserializeAttr] at hunique
  revert hunique
  decide

end StoredItem

end Eloth
