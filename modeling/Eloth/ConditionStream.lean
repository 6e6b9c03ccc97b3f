import Eloth.Condition
import Eloth.ItemStream

/-!
# Conditions on a property stream

`serialize` and `unserialize` with the overrides of the classes, and the loops of `savePlayer` and
`loadPlayer` over the conditions of a player.
-/

namespace Eloth

open PropStream

inductive ConditionAttr where
  | type | id | ticks | healthTicks | healthGain | manaTicks | manaGain | delayed | owner
  | intervalData | speedDelta | formulaMina | formulaMinb | formulaMaxa | formulaMaxb | lightColor
  | lightLevel | lightTicks | lightInterval | soulTicks | soulGain | skills | stats | outfit
  | periodDamage | isBuff | subId | isAggressive | disableDefense | specialSkills
  deriving DecidableEq

namespace ConditionAttr

def byte : ConditionAttr → UInt8
  | type => 1 | id => 2 | ticks => 3 | healthTicks => 4 | healthGain => 5 | manaTicks => 6
  | manaGain => 7 | delayed => 8 | owner => 9 | intervalData => 10 | speedDelta => 11
  | formulaMina => 12 | formulaMinb => 13 | formulaMaxa => 14 | formulaMaxb => 15
  | lightColor => 16 | lightLevel => 17 | lightTicks => 18 | lightInterval => 19
  | soulTicks => 20 | soulGain => 21 | skills => 22 | stats => 23 | outfit => 24
  | periodDamage => 25 | isBuff => 26 | subId => 27 | isAggressive => 28 | disableDefense => 29
  | specialSkills => 30

def all : List ConditionAttr :=
  [type, id, ticks, healthTicks, healthGain, manaTicks, manaGain, delayed, owner, intervalData,
    speedDelta, formulaMina, formulaMinb, formulaMaxa, formulaMaxb, lightColor, lightLevel,
    lightTicks, lightInterval, soulTicks, soulGain, skills, stats, outfit, periodDamage, isBuff,
    subId, isAggressive, disableDefense, specialSkills]

def ofByte (b : UInt8) : Option ConditionAttr := all.find? fun attr => attr.byte = b

theorem ofByte_byte (attr : ConditionAttr) : ofByte attr.byte = some attr := by cases attr <;> rfl

end ConditionAttr

def CONDITIONATTR_END : UInt8 := 254

theorem ConditionAttr.byte_ne_end (attr : ConditionAttr) : attr.byte ≠ CONDITIONATTR_END := by
  cases attr <;> decide

namespace PropStream

def readUInt8 : Reader (Option UInt8) := (readUInt 1).map fun v => v.map UInt8.ofInt
def readUInt16 : Reader (Option UInt16) := (readUInt 2).map fun v => v.map UInt16.ofInt
def readUInt32 : Reader (Option UInt32) := (readUInt 4).map fun v => v.map UInt32.ofInt
def readInt32 : Reader (Option Int32) := (readInt 4).map fun v => v.map Int32.ofInt

/-- Both of two fields. -/
def both {α β : Type} (read : Reader (Option α)) (read' : Reader (Option β)) :
    Reader (Option (α × β)) :=
  read.bind fun
    | none => Reader.pure none
    | some a => read'.map fun b => b.map fun b => (a, b)

/-- `read<T>` for a structure takes all its bytes or none. -/
def readStruct {α : Type} (size : Nat) (read : Reader (Option α)) : Reader (Option α) where
  run := fun s => if s.length < size then (none, s) else read.run s
  length_le := fun s => by
    split
    · exact le_rfl
    · exact read.length_le s

end PropStream

/-! ## Writing -/

def ConditionAttr.write (attr : ConditionAttr) (size : Nat) (value : Int) : List UInt8 :=
  attr.byte :: writeInt size value

namespace Condition

/-- `Condition::serialize`. -/
def baseSerialize (c : Condition) : List UInt8 :=
  ConditionAttr.type.write 4 c.conditionType.value.toNat ++
  ConditionAttr.id.write 4 c.id.toInt ++
  ConditionAttr.ticks.write 4 c.ticks.toInt ++
  ConditionAttr.isBuff.write 1 c.isBuff.toNat ++
  ConditionAttr.subId.write 4 c.subId.toNat ++
  ConditionAttr.isAggressive.write 1 c.aggressive.toNat

def writeIntervalInfo (info : IntervalInfo) : List UInt8 :=
  writeInt 4 info.timeLeft.toInt ++ (writeInt 4 info.value.toInt ++ writeInt 4 info.interval.toInt)

def writeOutfit (outfit : Outfit) : List UInt8 :=
  writeInt 2 outfit.lookType.toNat ++ (writeInt 2 outfit.lookTypeEx.toNat ++
  (writeInt 1 outfit.lookHead.toNat ++ (writeInt 1 outfit.lookBody.toNat ++
  (writeInt 1 outfit.lookLegs.toNat ++ (writeInt 1 outfit.lookFeet.toNat ++
  (writeInt 1 outfit.lookAddons.toNat ++ writeInt 1 outfit.padding.toNat))))))

def writeArray {n : Nat} (attr : ConditionAttr) (values : Fin n → Int32) : List UInt8 :=
  (List.finRange n).flatMap fun i => attr.write 4 (values i).toInt

/-- What the class of the condition writes behind `Condition::serialize`. -/
def serializeData : ConditionData → List UInt8
  | .damage data =>
    ConditionAttr.delayed.write 1 data.delayed.toNat ++
    (ConditionAttr.periodDamage.write 4 data.periodDamage.toInt ++
    data.damageList.flatMap fun info => ConditionAttr.intervalData.byte :: writeIntervalInfo info)
  | .speed data =>
    ConditionAttr.speedDelta.write 4 data.speedDelta.toInt ++
    (ConditionAttr.formulaMina.write 4 data.mina.toNat ++
    (ConditionAttr.formulaMinb.write 4 data.minb.toNat ++
    (ConditionAttr.formulaMaxa.write 4 data.maxa.toNat ++
    ConditionAttr.formulaMaxb.write 4 data.maxb.toNat)))
  | .outfit outfit => ConditionAttr.outfit.byte :: writeOutfit outfit
  | .light data =>
    ConditionAttr.lightColor.write 4 data.lightInfo.color.toNat ++
    (ConditionAttr.lightLevel.write 4 data.lightInfo.level.toNat ++
    (ConditionAttr.lightTicks.write 4 data.internalLightTicks.toNat ++
    ConditionAttr.lightInterval.write 4 data.lightChangeInterval.toNat))
  | .regeneration data =>
    ConditionAttr.healthTicks.write 4 data.healthTicks.toNat ++
    (ConditionAttr.healthGain.write 4 data.healthGain.toNat ++
    (ConditionAttr.manaTicks.write 4 data.manaTicks.toNat ++
    ConditionAttr.manaGain.write 4 data.manaGain.toNat))
  | .soul data =>
    ConditionAttr.soulGain.write 4 data.soulGain.toNat ++
    ConditionAttr.soulTicks.write 4 data.soulTicks.toNat
  | .attributes data =>
    writeArray .skills data.skills ++ (writeArray .stats data.stats ++
    (ConditionAttr.disableDefense.write 1 data.disableDefense.toNat ++
    writeArray .specialSkills data.specialSkills))
  | .invisible | .drunk _ | .generic => []

def serialize (c : Condition) : List UInt8 := c.baseSerialize ++ serializeData c.data

/-! ## Reading -/

/-- A field that is read, or nothing when the stream is too short. -/
def readField {α : Type} (read : Reader (Option α)) (set : α → Condition) :
    Reader (Option Condition) :=
  read.map fun value => value.map set

def readIntervalInfo : Reader (Option IntervalInfo) :=
  readStruct 12 ((both readInt32 (both readInt32 readInt32)).map fun v =>
    v.map fun v => { timeLeft := v.1, value := v.2.1, interval := v.2.2 })

def readOutfit : Reader (Option Outfit) :=
  readStruct 10 ((both readUInt16 (both readUInt16 (both readUInt8 (both readUInt8
    (both readUInt8 (both readUInt8 (both readUInt8 readUInt8))))))).map fun v =>
    v.map fun (lookType, lookTypeEx, lookHead, lookBody, lookLegs, lookFeet, lookAddons, padding) =>
      { lookType := lookType, lookTypeEx := lookTypeEx, lookHead := lookHead, lookBody := lookBody
        lookLegs := lookLegs, lookFeet := lookFeet, lookAddons := lookAddons, padding := padding })

/-- `Condition::unserializeProp`. -/
def baseUnserializeProp (c : Condition) : ConditionAttr → Reader (Option Condition)
  | .type =>
    readField readUInt32 fun value => { c with conditionType := .ofValue value }
  | .id => readField readInt32 fun value => { c with id := value.toInt8 }
  | .ticks => readField readInt32 fun value => { c with ticks := value }
  | .isBuff => readField readUInt8 fun value => { c with isBuff := value ≠ 0 }
  | .subId => readField readUInt32 fun value => { c with subId := value }
  | .isAggressive => readField readUInt8 fun value => { c with aggressive := value ≠ 0 }
  | _ => Reader.pure none

/-- The array with a value at the index. -/
def setAt {n : Nat} (values : Fin n → Int32) (index : Nat) (value : Int32) : Fin n → Int32 :=
  fun i => if i.val = index then value else values i

/-- `unserializeProp`, or nothing when it fails. -/
def unserializeProp (now : Int) (c : Condition) (attr : ConditionAttr) :
    Reader (Option Condition) :=
  match c.data, attr with
  | .damage data, .delayed =>
    readField readUInt8 fun value => { c with data := .damage { data with delayed := value ≠ 0 } }
  | .damage data, .periodDamage =>
    readField readInt32 fun value => { c with data := .damage { data with periodDamage := value } }
  | .damage _, .owner => readField (skip 4) fun _ => c
  | .damage data, .intervalData =>
    readField readIntervalInfo fun damageInfo =>
      let c := { c with data := .damage { data with damageList := data.damageList ++ [damageInfo] } }
      if c.ticks ≠ -1 then c.setTicks now (c.ticks + damageInfo.interval) else c
  | .speed data, .speedDelta =>
    readField readInt32 fun value => { c with data := .speed { data with speedDelta := value } }
  | .speed data, .formulaMina =>
    readField readUInt32 fun value => { c with data := .speed { data with mina := value } }
  | .speed data, .formulaMinb =>
    readField readUInt32 fun value => { c with data := .speed { data with minb := value } }
  | .speed data, .formulaMaxa =>
    readField readUInt32 fun value => { c with data := .speed { data with maxa := value } }
  | .speed data, .formulaMaxb =>
    readField readUInt32 fun value => { c with data := .speed { data with maxb := value } }
  | .outfit _, .outfit => readField readOutfit fun outfit => { c with data := .outfit outfit }
  | .light data, .lightColor =>
    readField readUInt32 fun value =>
      { c with data := .light { data with lightInfo.color := value.toUInt8 } }
  | .light data, .lightLevel =>
    readField readUInt32 fun value =>
      { c with data := .light { data with lightInfo.level := value.toUInt8 } }
  | .light data, .lightTicks =>
    readField readUInt32 fun value =>
      { c with data := .light { data with internalLightTicks := value } }
  | .light data, .lightInterval =>
    readField readUInt32 fun value =>
      { c with data := .light { data with lightChangeInterval := value } }
  | .regeneration data, .healthTicks =>
    readField readUInt32 fun value =>
      { c with data := .regeneration { data with healthTicks := value } }
  | .regeneration data, .healthGain =>
    readField readUInt32 fun value =>
      { c with data := .regeneration { data with healthGain := value } }
  | .regeneration data, .manaTicks =>
    readField readUInt32 fun value =>
      { c with data := .regeneration { data with manaTicks := value } }
  | .regeneration data, .manaGain =>
    readField readUInt32 fun value =>
      { c with data := .regeneration { data with manaGain := value } }
  | .soul data, .soulGain =>
    readField readUInt32 fun value => { c with data := .soul { data with soulGain := value } }
  | .soul data, .soulTicks =>
    readField readUInt32 fun value => { c with data := .soul { data with soulTicks := value } }
  | .attributes data, .skills =>
    readField readInt32 fun value =>
      let skills := setAt data.skills data.currentSkill value
      let data := { data with skills := skills, currentSkill := data.currentSkill + 1 }
      { c with data := .attributes data }
  | .attributes data, .specialSkills =>
    readField readInt32 fun value =>
      let specialSkills := setAt data.specialSkills data.currentSpecialSkill value
      let data := { data with
        specialSkills := specialSkills, currentSpecialSkill := data.currentSpecialSkill + 1 }
      { c with data := .attributes data }
  | .attributes data, .stats =>
    readField readInt32 fun value =>
      let stats := setAt data.stats data.currentStat value
      let data := { data with stats := stats, currentStat := data.currentStat + 1 }
      { c with data := .attributes data }
  | .attributes data, .disableDefense =>
    readField readUInt8 fun value =>
      { c with data := .attributes { data with disableDefense := value ≠ 0 } }
  | _, attr => c.baseUnserializeProp attr

/-- `Condition::unserialize`, or nothing when it fails, and what is left of the stream. -/
def unserialize (now : Int) (c : Condition) (stream : List UInt8) :
    Option Condition × List UInt8 :=
  match stream with
  | [] => (some c, [])
  | attr_type :: rest =>
    if attr_type = CONDITIONATTR_END then (some c, rest)
    else
      match ConditionAttr.ofByte attr_type with
      | none => (none, rest)
      | some attr =>
        let read := (c.unserializeProp now attr).run rest
        match read.1 with
        | some c => unserialize now c read.2
        | none => (none, read.2)
termination_by stream.length
decreasing_by exact Nat.lt_succ_of_le (Reader.length_le ..)

/-- A field of the header must have the attribute in front. -/
def readHeader {α : Type} (attr : ConditionAttr) (read : Reader (Option α)) : Reader (Option α) :=
  readUInt8.bind fun
    | some b => if b = attr.byte then read else Reader.pure none
    | none => Reader.pure none

/-- `Condition::createCondition(PropStream&)`. -/
def readCondition : Reader (Option Condition) :=
  (both (readHeader .type readUInt32) (both (readHeader .id readInt32)
    (both (readHeader .ticks readInt32) (both (readHeader .isBuff readUInt8)
    (both (readHeader .subId readUInt32) (readHeader .isAggressive readUInt8)))))).map fun header =>
    header.bind fun (type, id, ticks, buff, subId, aggressive) =>
      createCondition id.toInt8 (.ofValue type) ticks 0 (buff ≠ 0) subId (aggressive ≠ 0)

/-! ## What reading takes -/

theorem length_unserialize_le (now : Int) (c : Condition) (stream : List UInt8) :
    (c.unserialize now stream).2.length ≤ stream.length := by
  fun_induction unserialize with
  | case1 => exact le_rfl
  | case2 c rest => exact Nat.le_succ _
  | case3 c attr_type rest => exact Nat.le_succ _
  | case4 c attr_type rest hend attr hattr read c' hread ih =>
    exact (ih.trans (Reader.length_le ..)).trans (Nat.le_succ _)
  | case5 c attr_type rest hend attr hattr read hread =>
    exact (Reader.length_le ..).trans (Nat.le_succ _)

theorem length_bind_le {α β : Type} (read : Reader α) (f : α → Reader β) (stream : List UInt8) :
    ((read.bind f).run stream).2.length ≤ (read.run stream).2.length := (f _).length_le _

/-- The first attribute of the header alone takes a byte. -/
theorem length_readCondition_lt {c : Condition} {stream : List UInt8}
    (h : (readCondition.run stream).1 = some c) :
    (readCondition.run stream).2.length < stream.length := by
  cases stream with
  | nil => cases h
  | cons b rest =>
    have hbyte : (readUInt8.run (b :: rest)).2.length = rest.length := by
      simp [readUInt8, readUInt, Reader.map, Reader.bind, Reader.take, Reader.pure]
    rw [List.length_cons, Nat.lt_succ_iff, ← hbyte, readCondition, Reader.map]
    refine (length_bind_le _ _ _).trans ?_
    rw [both]
    refine (length_bind_le _ _ _).trans ?_
    rw [readHeader]
    exact length_bind_le _ _ _

/-! ## The conditions of a player -/

/-- What `savePlayer` writes. -/
def saveConditions (conditions : List Condition) : List UInt8 :=
  (conditions.filter isPersistent).flatMap fun condition =>
    condition.serialize ++ [CONDITIONATTR_END]

/-- The loop of `loadPlayer` over the conditions, each of which goes to the front. -/
def loadConditions (now : Int) (storedConditionList : List Condition) (stream : List UInt8) :
    List Condition :=
  match _h : (readCondition.run stream).1 with
  | none => storedConditionList
  | some condition =>
    let read := condition.unserialize now (readCondition.run stream).2
    match read.1 with
    | some condition => loadConditions now (condition :: storedConditionList) read.2
    | none => loadConditions now storedConditionList read.2
termination_by stream.length
decreasing_by
  all_goals exact (length_unserialize_le ..).trans_lt (length_readCondition_lt _h)

end Condition

end Eloth
