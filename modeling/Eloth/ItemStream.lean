import Eloth.Lib.ByteReader
import Eloth.ItemAttributes

/-!
# Items on a property stream

`serializeAttr` and `unserializeAttr` with the overrides of beds, teleports, doors and
containers. A stream is the list of its bytes.
-/

namespace Eloth

/-! ## Streams -/

namespace PropStream

/-- The integers of `size` bytes that `write<T>` leaves of a wider value. -/
def writeInt (size : Nat) (value : Int) : List UInt8 :=
  LittleEndian.bytes size (value % (256 ^ size : Nat)).toNat

def writeString (s : List UInt8) : List UInt8 :=
  if 65535 < s.length then writeInt 2 0 else writeInt 2 s.length ++ s

def readUInt (size : Nat) : Reader (Option Int) :=
  (Reader.take size).map fun s => s.map fun s => (LittleEndian.value s : Int)

def readInt (size : Nat) : Reader (Option Int) :=
  (readUInt size).map fun v => v.map fun v => v.bmod (256 ^ size)

def readString : Reader (Option (List UInt8)) :=
  (readUInt 2).bind fun
    | none => Reader.pure none
    | some strLen => Reader.take strLen.toNat

def skip (n : Nat) : Reader (Option Unit) := (Reader.take n).map fun s => s.map fun _ => ()

end PropStream

inductive AttrCode where
  | tileFlags | actionId | uniqueId | text | desc | teleDest | item | depotId | runeCharges
  | houseDoorId | count | duration | decayingState | writtenDate | writtenBy | sleeperGuid
  | sleepStart | charges | containerItems | name | article | pluralName | weight | attack
  | defense | extraDefense | armor | hitChance | shootRange | customAttributes | decayTo
  | attackSpeed
  deriving DecidableEq

namespace AttrCode

def byte : AttrCode → UInt8
  | tileFlags => 3 | actionId => 4 | uniqueId => 5 | text => 6 | desc => 7 | teleDest => 8
  | item => 9 | depotId => 10 | runeCharges => 12 | houseDoorId => 14 | count => 15
  | duration => 16 | decayingState => 17 | writtenDate => 18 | writtenBy => 19
  | sleeperGuid => 20 | sleepStart => 21 | charges => 22 | containerItems => 23 | name => 24
  | article => 25 | pluralName => 26 | weight => 27 | attack => 28 | defense => 29
  | extraDefense => 30 | armor => 31 | hitChance => 32 | shootRange => 33
  | customAttributes => 34 | decayTo => 35 | attackSpeed => 38

def all : List AttrCode :=
  [tileFlags, actionId, uniqueId, text, desc, teleDest, item, depotId, runeCharges, houseDoorId,
    count, duration, decayingState, writtenDate, writtenBy, sleeperGuid, sleepStart, charges,
    containerItems, name, article, pluralName, weight, attack, defense, extraDefense, armor,
    hitChance, shootRange, customAttributes, decayTo, attackSpeed]

def ofByte (b : UInt8) : Option AttrCode := all.find? fun c => c.byte = b

theorem ofByte_byte (c : AttrCode) : ofByte c.byte = some c := by cases c <;> rfl

theorem byte_ne_zero (c : AttrCode) : c.byte ≠ 0 := by cases c <;> decide

end AttrCode

/-! ## Item objects -/

/-- What the class of an object adds to its stream. -/
inductive StoredClass where
  | item
  | container (serializationCount : UInt32)
  | depotLocker (depotId : UInt16)
  | door
  | bed (sleeperGUID : UInt32) (sleepStart : UInt64)
  | teleport (x y : UInt16) (z : UInt8)
  deriving DecidableEq

structure StoredItem where
  id : Nat
  count : UInt8
  attributes : ItemAttributes
  cls : StoredClass

/-- The item table, the register of unique items and the names of the player database. -/
structure StreamEnv where
  items : Items
  addUniqueItem : Int → Bool
  getNameByGuid : UInt32 → List UInt8

def ofAscii (s : String) : List UInt8 := s.toList.map fun c => UInt8.ofNat c.toNat

inductive AttrReadValue where
  | continue
  | error
  | end
  deriving DecidableEq

namespace StoredItem

def setIntAttr (item : StoredItem) (type : AttrType) (value : Int) : StoredItem :=
  { item with attributes := item.attributes.setIntAttr type value }

def setStrAttr (item : StoredItem) (type : AttrType) (value : List UInt8) : StoredItem :=
  { item with attributes := item.attributes.setStrAttr type value }

def setCustomAttribute (item : StoredItem) (key : List UInt8) (value : CustomAttribute) :
    StoredItem :=
  { item with attributes := item.attributes.setCustomAttribute key value }

def hasAttribute (item : StoredItem) (type : AttrType) : Bool := item.attributes.hasAttribute type
def getIntAttr (item : StoredItem) (type : AttrType) : Int := item.attributes.getIntAttr type
def getStrAttr (item : StoredItem) (type : AttrType) : List UInt8 :=
  item.attributes.getStrAttr type

def getCustomAttribute (item : StoredItem) (key : List UInt8) : Option CustomAttribute :=
  item.attributes.getCustomAttribute key

def setText (item : StoredItem) (s : List UInt8) : StoredItem := item.setStrAttr .text s
def getText (item : StoredItem) : List UInt8 := item.getStrAttr .text
def setWriter (item : StoredItem) (s : List UInt8) : StoredItem := item.setStrAttr .writer s
def getWriter (item : StoredItem) : List UInt8 := item.getStrAttr .writer

def setSpecialDescription (item : StoredItem) (s : List UInt8) : StoredItem :=
  item.setStrAttr .description s

def getSpecialDescription (item : StoredItem) : List UInt8 := item.getStrAttr .description

/-- The parameter is an `int32_t`. -/
def setDate (item : StoredItem) (n : Int) : StoredItem := item.setIntAttr .date (n.bmod (2 ^ 32))
def getDate (item : StoredItem) : Int := item.getIntAttr .date

def setActionId (item : StoredItem) (n : Int) : StoredItem :=
  item.setIntAttr .actionId (if n < 100 then 100 else n)

def getActionId (item : StoredItem) : Int := item.getIntAttr .actionId % 2 ^ 16
def setCharges (item : StoredItem) (n : Int) : StoredItem := item.setIntAttr .charges n
def getCharges (item : StoredItem) : Int := item.getIntAttr .charges % 2 ^ 16
def setFluidType (item : StoredItem) (n : Int) : StoredItem := item.setIntAttr .fluidType n
def getFluidType (item : StoredItem) : Int := item.getIntAttr .fluidType % 2 ^ 16
def setItemCount (item : StoredItem) (n : Int) : StoredItem := { item with count := UInt8.ofInt n }
def setDuration (item : StoredItem) (n : Int) : StoredItem := item.setIntAttr .duration n

/-- The enumeration has one byte. -/
def getDecaying (item : StoredItem) : Int := item.getIntAttr .decayState % 2 ^ 8

def setUniqueId (env : StreamEnv) (item : StoredItem) (n : Int) : StoredItem :=
  if item.hasAttribute .uniqueId then item
  else if env.addUniqueItem n then item.setIntAttr .uniqueId n
  else item

variable (items : Items)

def getSubType (item : StoredItem) : Int :=
  let it := items.get item.id
  if it.isFluidContainer || it.isSplash then item.getFluidType
  else if it.stackable then item.count.toNat
  else if it.charges ≠ 0 then item.getCharges
  else item.count.toNat

def setSubType (item : StoredItem) (n : Int) : StoredItem :=
  let it := items.get item.id
  if it.isFluidContainer || it.isSplash then item.setFluidType n
  else if it.stackable then item.setItemCount n
  else if it.charges ≠ 0 then item.setCharges n
  else item.setItemCount n

def getDefaultDuration (item : StoredItem) : Nat :=
  (items.get item.id).decayTime * 1000 % 2 ^ 32

/-- `Item::Item(type, count)`; the count and the charges of a type are 16 bits wide. -/
def construct (type : Nat) (count : UInt16) (cls : StoredClass) : StoredItem :=
  let it := items.get type
  let base : StoredItem := { id := type, count := 1, attributes := .empty, cls := cls }
  let counted :=
    if it.isFluidContainer || it.isSplash then base.setFluidType count.toNat
    else if it.stackable then
      if count ≠ 0 then base.setItemCount count.toNat
      else if it.charges ≠ 0 then base.setItemCount it.charges
      else base
    else if it.charges ≠ 0 then
      if count ≠ 0 then base.setCharges count.toNat else base.setCharges (it.charges % 2 ^ 16 : Nat)
    else base
  if counted.getDefaultDuration items ≠ 0 then
    counted.setDuration ((counted.getDefaultDuration items : Int).bmod (2 ^ 32))
  else counted

/-- A new object of the class, with what its own constructor does. -/
def fresh (type : Nat) (count : UInt16) : StoredClass → StoredItem
  | .item => construct items type count .item
  | .container _ => construct items type count (.container 0)
  | .depotLocker _ => construct items type count (.depotLocker 0)
  | .door => construct items type count .door
  | .bed _ _ =>
    (construct items type count (.bed 0 0)).setSpecialDescription
      (ofAscii "Nobody is sleeping there.")
  | .teleport _ _ _ => construct items type count (.teleport 0 0 0)

/-- `Item::CreateItem(type, count)`. -/
def createItem (type : Nat) (count : UInt16) : Option StoredItem :=
  let it := items.get type
  if it.group = .deprecated then none
  else
    let count := if it.stackable ∧ count = 0 then 1 else count
    if it.id = 0 then none
    else if it.isDepot then some (fresh items type 0 (.depotLocker 0))
    else if it.isContainer then some (fresh items type 0 (.container 0))
    else if it.isTeleport then some (fresh items type 0 (.teleport 0 0 0))
    else if it.isMagicField then some (fresh items type 0 .item)
    else if it.isDoor then some (fresh items type 0 .door)
    else if it.isTrashHolder then some (fresh items type 0 .item)
    else if it.isMailbox then some (fresh items type 0 .item)
    else if it.isBed then some (fresh items type 0 (.bed 0 0))
    else some (fresh items (createdId type) count .item)

/-- `getContainer` is not null. -/
def isContainer (item : StoredItem) : Bool :=
  match item.cls with
  | .container _ | .depotLocker _ => true
  | _ => false

end StoredItem

/-! ## Writing -/

open PropStream

namespace CustomAttribute

def serialize : CustomAttribute → List UInt8
  | string value => writeInt 1 1 ++ writeString value
  | integer value => writeInt 1 2 ++ writeInt 8 value.toInt
  | double bits => writeInt 1 3 ++ writeInt 8 bits.toNat
  | boolean value => writeInt 1 4 ++ writeInt 1 value.toNat

def unserialize : Reader (Option CustomAttribute) :=
  (readUInt 1).bind fun
    | none => Reader.pure none
    | some pos =>
      if pos = 1 then readString.map fun v => v.map string
      else if pos = 2 then (readInt 8).map fun v => v.map fun v => integer (Int64.ofInt v)
      else if pos = 3 then (readUInt 8).map fun v => v.map fun v => double (UInt64.ofInt v)
      else if pos = 4 then (readUInt 1).map fun v => v.map fun v => boolean (v != 0)
      else Reader.pure none

end CustomAttribute

namespace StoredItem

variable (env : StreamEnv) (items : Items)

def writeIntAttr (item : StoredItem) (code : AttrCode) (type : AttrType) (size : Nat) :
    List UInt8 :=
  if item.hasAttribute type then code.byte :: writeInt size (item.getIntAttr type) else []

def writeStrAttr (item : StoredItem) (code : AttrCode) (type : AttrType) : List UInt8 :=
  if item.hasAttribute type then code.byte :: writeString (item.getStrAttr type) else []

def writeText (code : AttrCode) (s : List UInt8) : List UInt8 :=
  if s.isEmpty then [] else code.byte :: writeString s

def writeCount (item : StoredItem) : List UInt8 :=
  let it := items.get item.id
  if it.stackable || it.isFluidContainer || it.isSplash then
    AttrCode.count.byte :: writeInt 1 (item.getSubType items)
  else []

def writeCharges (item : StoredItem) : List UInt8 :=
  if item.getCharges ≠ 0 then AttrCode.charges.byte :: writeInt 2 item.getCharges else []

def writeActionId (item : StoredItem) : List UInt8 :=
  if (items.get item.id).moveable ∧ item.getActionId ≠ 0 then
    AttrCode.actionId.byte :: writeInt 2 item.getActionId
  else []

def writeDate (item : StoredItem) : List UInt8 :=
  if item.getDate ≠ 0 then AttrCode.writtenDate.byte :: writeInt 4 item.getDate else []

def writeDecaying (item : StoredItem) : List UInt8 :=
  if item.getDecaying = 1 ∨ item.getDecaying = 2 then
    AttrCode.decayingState.byte :: writeInt 1 item.getDecaying
  else []

def writeEntries (entries : List (LowerString × CustomAttribute)) : List UInt8 :=
  entries.flatMap fun e => writeString e.1.1 ++ e.2.serialize

def writeCustomAttributes (item : StoredItem) : List UInt8 :=
  match item.attributes.custom with
  | some map =>
    AttrCode.customAttributes.byte :: (writeInt 8 map.size ++ writeEntries map.entries)
  | none => []

def itemSerializeAttr (item : StoredItem) : List UInt8 :=
  item.writeCount items ++
  item.writeCharges ++
  item.writeActionId items ++
  writeText .text item.getText ++
  item.writeDate ++
  writeText .writtenBy item.getWriter ++
  writeText .desc item.getSpecialDescription ++
  item.writeIntAttr .duration .duration 4 ++
  item.writeDecaying ++
  item.writeStrAttr .name .name ++
  item.writeStrAttr .article .article ++
  item.writeStrAttr .pluralName .pluralName ++
  item.writeIntAttr .weight .weight 4 ++
  item.writeIntAttr .attack .attack 4 ++
  item.writeIntAttr .attackSpeed .attackSpeed 4 ++
  item.writeIntAttr .defense .defense 4 ++
  item.writeIntAttr .extraDefense .extraDefense 4 ++
  item.writeIntAttr .armor .armor 4 ++
  item.writeIntAttr .hitChance .hitChance 1 ++
  item.writeIntAttr .shootRange .shootRange 1 ++
  item.writeIntAttr .decayTo .decayTo 4 ++
  item.writeCustomAttributes

def bedSerializeAttr (sleeperGUID : UInt32) (sleepStart : UInt64) : List UInt8 :=
  (if sleeperGUID ≠ 0 then AttrCode.sleeperGuid.byte :: writeInt 4 sleeperGUID.toNat else []) ++
  (if sleepStart ≠ 0 then AttrCode.sleepStart.byte :: writeInt 4 sleepStart.toNat else [])

def serializeAttr (item : StoredItem) : List UInt8 :=
  match item.cls with
  | .bed sleeperGUID sleepStart => bedSerializeAttr sleeperGUID sleepStart
  | .door => []
  | .teleport x y z =>
    item.itemSerializeAttr items ++ AttrCode.teleDest.byte ::
      (writeInt 2 x.toNat ++ writeInt 2 y.toNat ++ writeInt 1 z.toNat)
  | _ => item.itemSerializeAttr items

/-! ## Reading -/

def readField {α : Type} (item : StoredItem) (read : Reader (Option α)) (set : α → StoredItem) :
    Reader (AttrReadValue × StoredItem) :=
  read.map fun
    | some value => (.continue, set value)
    | none => (.error, item)

def readCustomAttributes : StoredItem → Nat → Reader (AttrReadValue × StoredItem)
  | item, 0 => Reader.pure (.continue, item)
  | item, size + 1 =>
    readString.bind fun
      | none => Reader.pure (.error, item)
      | some key => CustomAttribute.unserialize.bind fun
        | none => Reader.pure (.error, item)
        | some val => readCustomAttributes (item.setCustomAttribute key val) size

def itemReadAttr (item : StoredItem) : AttrCode → Reader (AttrReadValue × StoredItem)
  | .count | .runeCharges => item.readField (readUInt 1) fun n => item.setSubType env.items n
  | .actionId => item.readField (readUInt 2) item.setActionId
  | .uniqueId => item.readField (readUInt 2) (item.setUniqueId env)
  | .text => item.readField readString item.setText
  | .writtenDate => item.readField (readUInt 4) item.setDate
  | .writtenBy => item.readField readString item.setWriter
  | .desc => item.readField readString item.setSpecialDescription
  | .charges => item.readField (readUInt 2) fun n => item.setSubType env.items n
  | .duration => item.readField (readInt 4) fun n => item.setDuration (max 0 n)
  | .decayingState =>
    item.readField (readUInt 1) fun state => if state ≠ 0 then item.setIntAttr .decayState 2 else item
  | .name => item.readField readString (item.setStrAttr .name)
  | .article => item.readField readString (item.setStrAttr .article)
  | .pluralName => item.readField readString (item.setStrAttr .pluralName)
  | .weight => item.readField (readUInt 4) (item.setIntAttr .weight)
  | .attack => item.readField (readInt 4) (item.setIntAttr .attack)
  | .attackSpeed => item.readField (readUInt 4) (item.setIntAttr .attackSpeed)
  | .defense => item.readField (readInt 4) (item.setIntAttr .defense)
  | .extraDefense => item.readField (readInt 4) (item.setIntAttr .extraDefense)
  | .armor => item.readField (readInt 4) (item.setIntAttr .armor)
  | .hitChance => item.readField (readInt 1) (item.setIntAttr .hitChance)
  | .shootRange => item.readField (readUInt 1) (item.setIntAttr .shootRange)
  | .decayTo => item.readField (readInt 4) (item.setIntAttr .decayTo)
  | .depotId => item.readField (skip 2) fun _ => item
  | .houseDoorId => item.readField (skip 1) fun _ => item
  | .sleeperGuid => item.readField (skip 4) fun _ => item
  | .sleepStart => item.readField (skip 4) fun _ => item
  | .teleDest => item.readField (skip 5) fun _ => item
  | .containerItems => Reader.pure (.error, item)
  | .customAttributes =>
    (readUInt 8).bind fun
      | none => Reader.pure (.error, item)
      | some size => item.readCustomAttributes size.toNat
  | .tileFlags | .item => Reader.pure (.error, item)

def readSleeper (item : StoredItem) (sleepStart : UInt64) (guid : Int) : StoredItem :=
  let guid := UInt32.ofInt guid
  if guid ≠ 0 then
    let name := env.getNameByGuid guid
    if name ≠ [] then
      { item.setSpecialDescription (name ++ ofAscii " is sleeping there.") with
        cls := .bed guid sleepStart }
    else item
  else item

/-- The coordinates are read into `destPos` one after another. -/
def readTeleDest (item : StoredItem) (x y : UInt16) (z : UInt8) :
    Reader (AttrReadValue × StoredItem) :=
  let at_ (x y : UInt16) (z : UInt8) : StoredItem := { item with cls := .teleport x y z }
  (readUInt 2).bind fun
    | none => Reader.pure (.error, at_ x y z)
    | some x => (readUInt 2).bind fun
      | none => Reader.pure (.error, at_ (UInt16.ofInt x) y z)
      | some y => (readUInt 1).bind fun
        | none => Reader.pure (.error, at_ (UInt16.ofInt x) (UInt16.ofInt y) z)
        | some z =>
          Reader.pure (.continue, at_ (UInt16.ofInt x) (UInt16.ofInt y) (UInt8.ofInt z))

def readAttr (item : StoredItem) (attr : AttrCode) : Reader (AttrReadValue × StoredItem) :=
  match item.cls, attr with
  | .bed _ sleepStart, .sleeperGuid =>
    item.readField (readUInt 4) (item.readSleeper env sleepStart)
  | .bed sleeperGUID _, .sleepStart =>
    item.readField (readUInt 4) fun start =>
      { item with cls := .bed sleeperGUID (UInt64.ofInt start) }
  | .teleport x y z, .teleDest => item.readTeleDest x y z
  | .door, .houseDoorId => item.readField (readUInt 1) (item.setIntAttr .doorId)
  | .depotLocker _, .depotId =>
    item.readField (readUInt 2) fun n => { item with cls := .depotLocker (UInt16.ofInt n) }
  | .container _, .containerItems =>
    (readUInt 4).map fun
      | some n => (.end, { item with cls := .container (UInt32.ofInt n) })
      | none => (.error, item)
  | _, attr => item.itemReadAttr env attr

/-- The verdict, the item and what is left of the stream. -/
def unserializeAttr (item : StoredItem) (stream : List UInt8) :
    Bool × StoredItem × List UInt8 :=
  match stream with
  | [] => (true, item, [])
  | type :: rest =>
    if type = 0 then (true, item, rest)
    else
      match AttrCode.ofByte type with
      | none => (false, item, rest)
      | some attr =>
        let read := (item.readAttr env attr).run rest
        match read.1.1 with
        | .continue => unserializeAttr read.1.2 read.2
        | .error => (false, read.1.2, read.2)
        | .end => (true, read.1.2, read.2)
termination_by stream.length
decreasing_by exact Nat.lt_succ_of_le (Reader.length_le ..)

end StoredItem

end Eloth
