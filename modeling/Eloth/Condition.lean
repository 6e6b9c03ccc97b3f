import Mathlib.Algebra.Group.Int.Defs
import Mathlib.Data.Fintype.Basic
import Mathlib.Logic.Function.Basic

/-!
# Conditions

The objects of `condition.cpp`. What a function asks of the creature, of the clock and of the random
numbers is an argument. Floats are kept as their bits.
-/

namespace Eloth

/-! ## Types -/

inductive ConditionType where
  | none | poison | fire | energy | bleeding | haste | paralyze | outfit | invisible | light
  | manaShield | infight | drunk | exhaustWeapon | regeneration | soul | drown | muted
  | channelMutedTicks | yellTicks | attributes | freezing | dazzled | cursed | exhaustCombat
  | exhaustHeal | pacified
  /-- A number without an enumerator. -/
  | other (value : UInt32)
  deriving DecidableEq

/-- The classes derived from `Condition`. -/
inductive ConditionKind where
  | damage | speed | invisible | outfit | light | regeneration | soul | attributes | drunk | generic
  deriving DecidableEq

namespace ConditionType

def value : ConditionType → UInt32
  | none => 0 | poison => 1 | fire => 2 | energy => 4 | bleeding => 8 | haste => 16
  | paralyze => 32 | outfit => 64 | invisible => 128 | light => 256 | manaShield => 512
  | infight => 1024 | drunk => 2048 | exhaustWeapon => 4096 | regeneration => 8192
  | soul => 16384 | drown => 32768 | muted => 65536 | channelMutedTicks => 131072
  | yellTicks => 262144 | attributes => 524288 | freezing => 1048576 | dazzled => 2097152
  | cursed => 4194304 | exhaustCombat => 8388608 | exhaustHeal => 16777216
  | pacified => 33554432
  | other value => value

def all : List ConditionType :=
  [none, poison, fire, energy, bleeding, haste, paralyze, outfit, invisible, light, manaShield,
    infight, drunk, exhaustWeapon, regeneration, soul, drown, muted, channelMutedTicks, yellTicks,
    attributes, freezing, dazzled, cursed, exhaustCombat, exhaustHeal, pacified]

def ofValue (value : UInt32) : ConditionType :=
  (all.find? fun type => type.value = value).getD (.other value)

/-- The class that `createCondition` chooses. -/
def kind : ConditionType → Option ConditionKind
  | poison | fire | energy | drown | freezing | dazzled | cursed | bleeding => some .damage
  | haste | paralyze => some .speed
  | invisible => some .invisible
  | outfit => some .outfit
  | light => some .light
  | regeneration => some .regeneration
  | soul => some .soul
  | attributes => some .attributes
  | drunk => some .drunk
  | infight | exhaustWeapon | exhaustCombat | exhaustHeal | muted | channelMutedTicks | yellTicks
  | pacified | manaShield => some .generic
  | none | other _ => Option.none

end ConditionType

inductive ConditionParam where
  | owner | ticks | healthGain | healthTicks | manaGain | manaTicks | delayed | speed | lightLevel
  | lightColor | soulGain | soulTicks | minValue | maxValue | startValue | tickInterval
  | forceUpdate | skillMelee | skillFist | skillClub | skillSword | skillAxe | skillDistance
  | skillShield | skillFishing | statMaxHitPoints | statMaxManaPoints | statMagicPoints
  | statMaxHitPointsPercent | statMaxManaPointsPercent | statMagicPointsPercent | periodicDamage
  | skillMeleePercent | skillFistPercent | skillClubPercent | skillSwordPercent | skillAxePercent
  | skillDistancePercent | skillShieldPercent | skillFishingPercent | buffSpell | subId | field
  | disableDefense | specialSkillCriticalHitChance | specialSkillCriticalHitAmount
  | specialSkillLifeLeechChance | specialSkillLifeLeechAmount | specialSkillManaLeechChance
  | specialSkillManaLeechAmount | aggressive | drunkenness
  deriving DecidableEq

def CONDITIONID_DEFAULT : Int8 := -1
def CONDITIONID_COMBAT : Int8 := 0
def EVENT_CREATURE_THINK_INTERVAL : Int32 := 1000

def SKILL_FIST : Fin 7 := 0
def SKILL_CLUB : Fin 7 := 1
def SKILL_SWORD : Fin 7 := 2
def SKILL_AXE : Fin 7 := 3
def SKILL_DISTANCE : Fin 7 := 4
def SKILL_SHIELD : Fin 7 := 5
def SKILL_FISHING : Fin 7 := 6
def STAT_MAXHITPOINTS : Fin 4 := 0
def STAT_MAXMANAPOINTS : Fin 4 := 1
def STAT_MAGICPOINTS : Fin 4 := 3
def SPECIALSKILL_CRITICALHITCHANCE : Fin 6 := 0
def SPECIALSKILL_CRITICALHITAMOUNT : Fin 6 := 1
def SPECIALSKILL_LIFELEECHCHANCE : Fin 6 := 2
def SPECIALSKILL_LIFELEECHAMOUNT : Fin 6 := 3
def SPECIALSKILL_MANALEECHCHANCE : Fin 6 := 4
def SPECIALSKILL_MANALEECHAMOUNT : Fin 6 := 5

/-! ## The fields of the classes -/

structure IntervalInfo where
  timeLeft : Int32
  value : Int32
  interval : Int32
  deriving DecidableEq

structure ConditionDamage where
  maxDamage : Int32 := 0
  minDamage : Int32 := 0
  startDamage : Int32 := 0
  periodDamage : Int32 := 0
  periodDamageTick : Int32 := 0
  tickInterval : Int32 := 2000
  initDamage : Int32 := 0
  forceUpdate : Bool := false
  delayed : Bool := false
  field : Bool := false
  owner : UInt32 := 0
  damageList : List IntervalInfo := []
  deriving DecidableEq

structure ConditionSpeed where
  speedDelta : Int32
  mina : UInt32 := 0
  minb : UInt32 := 0
  maxa : UInt32 := 0
  maxb : UInt32 := 0
  deriving DecidableEq

/-- The structure has an even number of bytes, so there is one behind its fields. -/
structure Outfit where
  lookType : UInt16 := 0
  lookTypeEx : UInt16 := 0
  lookHead : UInt8 := 0
  lookBody : UInt8 := 0
  lookLegs : UInt8 := 0
  lookFeet : UInt8 := 0
  lookAddons : UInt8 := 0
  padding : UInt8 := 0
  deriving DecidableEq

structure LightInfo where
  level : UInt8
  color : UInt8
  deriving DecidableEq

structure ConditionLight where
  lightInfo : LightInfo
  internalLightTicks : UInt32 := 0
  lightChangeInterval : UInt32 := 0
  deriving DecidableEq

structure ConditionRegeneration where
  internalHealthTicks : UInt32 := 0
  internalManaTicks : UInt32 := 0
  healthTicks : UInt32 := 1000
  manaTicks : UInt32 := 1000
  healthGain : UInt32 := 0
  manaGain : UInt32 := 0
  deriving DecidableEq

structure ConditionSoul where
  internalSoulTicks : UInt32 := 0
  soulTicks : UInt32 := 0
  soulGain : UInt32 := 0
  deriving DecidableEq

structure ConditionAttributes where
  skills : Fin 7 → Int32 := fun _ => 0
  skillsPercent : Fin 7 → Int32 := fun _ => 0
  specialSkills : Fin 6 → Int32 := fun _ => 0
  stats : Fin 4 → Int32 := fun _ => 0
  statsPercent : Fin 4 → Int32 := fun _ => 0
  currentSkill : Nat := 0
  currentSpecialSkill : Nat := 0
  currentStat : Nat := 0
  disableDefense : Bool := false
  deriving DecidableEq

inductive ConditionData where
  | damage (data : ConditionDamage)
  | speed (data : ConditionSpeed)
  | invisible
  | outfit (outfit : Outfit)
  | light (data : ConditionLight)
  | regeneration (data : ConditionRegeneration)
  | soul (data : ConditionSoul)
  | attributes (data : ConditionAttributes)
  | drunk (drunkenness : UInt8)
  | generic
  deriving DecidableEq

def ConditionData.kind : ConditionData → ConditionKind
  | damage _ => .damage
  | speed _ => .speed
  | invisible => .invisible
  | outfit _ => .outfit
  | light _ => .light
  | regeneration _ => .regeneration
  | soul _ => .soul
  | attributes _ => .attributes
  | drunk _ => .drunk
  | generic => .generic

structure Condition where
  id : Int8
  conditionType : ConditionType
  ticks : Int32
  endTime : Int
  subId : UInt32
  isBuff : Bool
  aggressive : Bool
  data : ConditionData
  deriving DecidableEq

/-- What the functions learn of the creature, the clock and the random numbers. -/
structure Surroundings where
  /-- `OTSYS_TIME()`. -/
  now : Int
  isPlayer : Bool
  protectionZone : Bool
  /-- `doDamage` with the initial damage succeeds. -/
  initDamage : Bool
  /-- What `onTickCondition` leaves of `bRemove`. -/
  bRemove : Bool
  /-- The damage that `init` draws, and the list that `generateDamageList` makes of it. -/
  amount : Int32
  damages : List Int32
  /-- The speed drawn from the formula. -/
  speedDelta : Int32
  /-- The percentages of the player's own skills and stats. -/
  skills : Fin 7 → Int32
  stats : Fin 4 → Int32

namespace Condition

/-! ## Creation -/

def setTicks (now : Int) (newTicks : Int32) (c : Condition) : Condition :=
  { c with ticks := newTicks, endTime := newTicks.toInt + now }

/-- The object of a class that `createCondition` builds. -/
def newData (param : Int32) : ConditionKind → ConditionData
  | .damage => .damage {}
  | .speed => .speed { speedDelta := param }
  | .invisible => .invisible
  | .outfit => .outfit {}
  | .light =>
    .light { lightInfo := ⟨(param &&& 0xFF).toInt8.toUInt8, ((param &&& 0xFF00) >>> 8).toInt8.toUInt8⟩ }
  | .regeneration => .regeneration {}
  | .soul => .soul {}
  | .attributes => .attributes {}
  | .drunk => .drunk (if param.toInt8.toUInt8 ≠ 0 then param.toInt8.toUInt8 else 25)
  | .generic => .generic

/-- `Condition::createCondition`. The constructor of damage conditions takes no ticks. -/
def createCondition (id : Int8) (type : ConditionType) (ticks param : Int32) (buff : Bool)
    (subId : UInt32) (aggressive : Bool) : Option Condition :=
  type.kind.map fun kind =>
    let ticks := if kind = .damage then 0 else ticks
    { id := id, conditionType := type, ticks := ticks,
      endTime := if ticks = -1 then 2 ^ 63 - 1 else 0,
      subId := subId, isBuff := buff, aggressive := aggressive, data := newData param kind }

/-! ## Parameters -/

def abs (value : Int32) : Int32 := if value < 0 then -value else value

/-- `Condition::setParam`. -/
def baseSetParam (param : ConditionParam) (value : Int32) (c : Condition) : Bool × Condition :=
  match param with
  | .ticks => (true, { c with ticks := value })
  | .buffSpell => (true, { c with isBuff := value ≠ 0 })
  | .subId => (true, { c with subId := value.toUInt32 })
  | .aggressive => (true, { c with aggressive := value ≠ 0 })
  | _ => (false, c)

end Condition

/-- The array with a value at some indices. -/
def setAll {n : Nat} (values : Fin n → Int32) (indices : List (Fin n)) (value : Int32) :
    Fin n → Int32 :=
  fun i => if i ∈ indices then value else values i

namespace ConditionAttributes

def setParam (param : ConditionParam) (value : Int32) (data : ConditionAttributes) :
    Option ConditionAttributes :=
  let skill (i : Fin 7) := some { data with skills := setAll data.skills [i] value }
  let skillPercent (i : Fin 7) :=
    some { data with skillsPercent := setAll data.skillsPercent [i] value }
  let specialSkill (i : Fin 6) :=
    some { data with specialSkills := setAll data.specialSkills [i] value }
  let stat (i : Fin 4) := some { data with stats := setAll data.stats [i] value }
  let statPercent (i : Fin 4) :=
    some { data with statsPercent := setAll data.statsPercent [i] (max 0 value) }
  let melee := [SKILL_CLUB, SKILL_AXE, SKILL_SWORD]
  match param with
  | .skillMelee => some { data with skills := setAll data.skills melee value }
  | .skillMeleePercent =>
    some { data with skillsPercent := setAll data.skillsPercent melee value }
  | .skillFist => skill SKILL_FIST
  | .skillFistPercent => skillPercent SKILL_FIST
  | .skillClub => skill SKILL_CLUB
  | .skillClubPercent => skillPercent SKILL_CLUB
  | .skillSword => skill SKILL_SWORD
  | .skillSwordPercent => skillPercent SKILL_SWORD
  | .skillAxe => skill SKILL_AXE
  | .skillAxePercent => skillPercent SKILL_AXE
  | .skillDistance => skill SKILL_DISTANCE
  | .skillDistancePercent => skillPercent SKILL_DISTANCE
  | .skillShield => skill SKILL_SHIELD
  | .skillShieldPercent => skillPercent SKILL_SHIELD
  | .skillFishing => skill SKILL_FISHING
  | .skillFishingPercent => skillPercent SKILL_FISHING
  | .specialSkillCriticalHitChance => specialSkill SPECIALSKILL_CRITICALHITCHANCE
  | .specialSkillCriticalHitAmount => specialSkill SPECIALSKILL_CRITICALHITAMOUNT
  | .specialSkillLifeLeechChance => specialSkill SPECIALSKILL_LIFELEECHCHANCE
  | .specialSkillLifeLeechAmount => specialSkill SPECIALSKILL_LIFELEECHAMOUNT
  | .specialSkillManaLeechChance => specialSkill SPECIALSKILL_MANALEECHCHANCE
  | .specialSkillManaLeechAmount => specialSkill SPECIALSKILL_MANALEECHAMOUNT
  | .statMaxHitPoints => stat STAT_MAXHITPOINTS
  | .statMaxManaPoints => stat STAT_MAXMANAPOINTS
  | .statMagicPoints => stat STAT_MAGICPOINTS
  | .statMaxHitPointsPercent => statPercent STAT_MAXHITPOINTS
  | .statMaxManaPointsPercent => statPercent STAT_MAXMANAPOINTS
  | .statMagicPointsPercent => statPercent STAT_MAGICPOINTS
  | .disableDefense => some { data with disableDefense := value ≠ 0 }
  | _ => none

end ConditionAttributes

def ConditionRegeneration.setParam (param : ConditionParam) (value : Int32)
    (data : ConditionRegeneration) : Option ConditionRegeneration :=
  match param with
  | .healthGain => some { data with healthGain := value.toUInt32 }
  | .healthTicks => some { data with healthTicks := value.toUInt32 }
  | .manaGain => some { data with manaGain := value.toUInt32 }
  | .manaTicks => some { data with manaTicks := value.toUInt32 }
  | _ => none

def ConditionSoul.setParam (param : ConditionParam) (value : Int32) (data : ConditionSoul) :
    Option ConditionSoul :=
  match param with
  | .soulGain => some { data with soulGain := value.toUInt32 }
  | .soulTicks => some { data with soulTicks := value.toUInt32 }
  | _ => none

def ConditionLight.setParam (param : ConditionParam) (value : Int32) (data : ConditionLight) :
    Option ConditionLight :=
  match param with
  | .lightLevel => some { data with lightInfo := { data.lightInfo with level := value.toInt8.toUInt8 } }
  | .lightColor => some { data with lightInfo := { data.lightInfo with color := value.toInt8.toUInt8 } }
  | _ => none

namespace Condition

/-- `ConditionDamage::setParam`, which reports success for three parameters only. -/
def damageSetParam (param : ConditionParam) (value : Int32) (c : Condition)
    (data : ConditionDamage) : Bool × Condition :=
  let c := (c.baseSetParam param value).2
  let set (data : ConditionDamage) : Condition := { c with data := .damage data }
  match param with
  | .owner => (true, set { data with owner := value.toUInt32 })
  | .forceUpdate => (true, set { data with forceUpdate := value ≠ 0 })
  | .delayed => (true, set { data with delayed := value ≠ 0 })
  | .maxValue => (false, set { data with maxDamage := abs value })
  | .minValue => (false, set { data with minDamage := abs value })
  | .startValue => (false, set { data with startDamage := abs value })
  | .tickInterval => (false, set { data with tickInterval := abs value })
  | .periodicDamage => (false, set { data with periodDamage := value })
  | .field => (false, set { data with field := value ≠ 0 })
  | _ => (false, c)

/-- What a class sets itself, or else what `Condition::setParam` does. -/
def setOwn (own : Option ConditionData) (base : Bool × Condition) : Bool × Condition :=
  match own with
  | some data => (true, { base.2 with data := data })
  | none => base

def setParam (param : ConditionParam) (value : Int32) (c : Condition) : Bool × Condition :=
  let base := c.baseSetParam param value
  match c.data with
  | .damage data => c.damageSetParam param value data
  | .speed data =>
    if param = .speed then
      (true, { base.2 with
        conditionType := if 0 < value then .haste else .paralyze
        data := .speed { data with speedDelta := value } })
    else (false, base.2)
  | .light data =>
    if base.1 then (false, base.2) else setOwn ((data.setParam param value).map .light) base
  | .regeneration data => setOwn ((data.setParam param value).map .regeneration) base
  | .soul data => setOwn ((data.setParam param value).map .soul) base
  | .attributes data => setOwn ((data.setParam param value).map .attributes) base
  | .drunk _ =>
    setOwn (if param = .drunkenness then some (.drunk value.toInt8.toUInt8) else none) base
  | .invisible | .outfit _ | .generic => base

/-- `ConditionOutfit::setOutfit`. -/
def setOutfit (outfit : Outfit) (c : Condition) : Condition :=
  match c.data with
  | .outfit _ => { c with data := .outfit outfit }
  | _ => c

/-- `ConditionSpeed::setFormulaVars`. -/
def setFormulaVars (mina minb maxa maxb : UInt32) (c : Condition) : Condition :=
  match c.data with
  | .speed data =>
    { c with data := .speed { data with mina := mina, minb := minb, maxa := maxa, maxb := maxb } }
  | _ => c

/-- `ConditionDamage::setInitDamage`. -/
def setInitDamage (initDamage : Int32) (c : Condition) : Condition :=
  match c.data with
  | .damage data => { c with data := .damage { data with initDamage := initDamage } }
  | _ => c

/-! ## Damage -/

/-- One round of damage behind the others. -/
def pushRound (now : Int) (time value : Int32) (c : Condition) (data : ConditionDamage) :
    Condition :=
  let damageInfo : IntervalInfo := { timeLeft := time, value := value, interval := time }
  let c := { c with data := .damage { data with damageList := data.damageList ++ [damageInfo] } }
  if c.ticks ≠ -1 then c.setTicks now (c.ticks + damageInfo.interval) else c

/-- The loop of `addDamage` over its rounds. -/
def pushRounds (now : Int) (time value : Int32) : Nat → Condition → Condition
  | 0, c => c
  | rounds + 1, c =>
    match c.data with
    | .damage data => pushRounds now time value rounds (c.pushRound now time value data)
    | _ => c

/-- `ConditionDamage::addDamage`. -/
def addDamage (now : Int) (rounds time value : Int32) (c : Condition) : Condition :=
  match c.data with
  | .damage data =>
    let time := max time EVENT_CREATURE_THINK_INTERVAL
    if rounds = -1 then
      { c with ticks := -1
               data := .damage { data with periodDamage := value, tickInterval := abs time } }
    else if 0 < data.periodDamage then c
    else c.pushRounds now time value rounds.toInt.toNat
  | _ => c

/-- `ConditionDamage::init`. -/
def init (env : Surroundings) (c : Condition) : Bool × Condition :=
  match c.data with
  | .damage data =>
    if data.periodDamage ≠ 0 ∨ data.damageList ≠ [] then (true, c)
    else
      let c := c.setTicks env.now 0
      if env.amount = 0 then (false, c)
      else
        let least : Int32 := max 1 (Int32.ofInt (-(-env.amount.toInt / 20)))
        let startDamage :=
          if data.maxDamage < data.startDamage then data.maxDamage
          else if data.startDamage = 0 then least
          else data.startDamage
        let c := { c with data := .damage { data with startDamage := startDamage } }
        let c := env.damages.foldl (fun c value => c.addDamage env.now 1 data.tickInterval (-value)) c
        (match c.data with
          | .damage data => !data.damageList.isEmpty
          | _ => false, c)
  | _ => (false, c)

/-- `ConditionDamage::getTotalDamage`. -/
def getTotalDamage (data : ConditionDamage) : Int32 :=
  abs (if data.damageList.isEmpty then data.minDamage + (data.maxDamage - data.minDamage) / 2
    else (data.damageList.map IntervalInfo.value).foldl (· + ·) 0)

/-! ## Start -/

def baseStartCondition (now : Int) (c : Condition) : Condition :=
  if 0 < c.ticks then { c with endTime := c.ticks.toInt + now } else c

/-- `updatePercentSkills` and `updatePercentStats`, which only look at players. -/
def updatePercent (env : Surroundings) (data : ConditionAttributes) : ConditionAttributes :=
  if env.isPlayer then
    { data with
      skills := fun i => if data.skillsPercent i = 0 then data.skills i else env.skills i
      stats := fun i =>
        if data.statsPercent i = 0 ∨ i = 2 then data.stats i else env.stats i }
  else data

/-- `startCondition`, or nothing when it fails. -/
def startCondition (env : Surroundings) (c : Condition) : Option Condition :=
  let c := c.baseStartCondition env.now
  match c.data with
  | .damage data =>
    if !data.delayed && !env.initDamage then none
    else
      let (ok, c) := c.init env
      if ok then some c else none
  | .speed data =>
    let speedDelta := if data.speedDelta = 0 then env.speedDelta else data.speedDelta
    some { c with data := .speed { data with speedDelta := speedDelta } }
  | .light data =>
    let interval := (c.ticks / data.lightInfo.level.toUInt32.toInt32).toUInt32
    let data := { data with internalLightTicks := 0, lightChangeInterval := interval }
    some { c with data := .light data }
  | .attributes data => some { c with data := .attributes (updatePercent env data) }
  | .invisible | .outfit _ | .regeneration _ | .soul _ | .drunk _ | .generic => some c

/-! ## Execution -/

/-- `Condition::executeCondition`. -/
def baseExecuteCondition (now : Int) (interval : Int32) (c : Condition) : Bool × Condition :=
  if c.ticks = -1 then (true, c)
  else
    let c := { c with ticks := max 0 (c.ticks - interval) }
    (now ≤ c.endTime, c)

def damageExecuteCondition (env : Surroundings) (interval : Int32) (c : Condition)
    (data : ConditionDamage) : Bool × Condition :=
  if data.periodDamage ≠ 0 then
    let tick := data.periodDamageTick + interval
    let tick := if data.tickInterval ≤ tick then 0 else tick
    { c with data := .damage { data with periodDamageTick := tick } }.baseExecuteCondition env.now
      interval
  else
    match data.damageList with
    | [] => c.baseExecuteCondition env.now interval
    | damageInfo :: rounds =>
      let damageInfo := { damageInfo with timeLeft := damageInfo.timeLeft - interval }
      let rounds :=
        if damageInfo.timeLeft ≤ 0 then
          if env.bRemove then rounds
          else { damageInfo with timeLeft := damageInfo.interval } :: rounds
        else damageInfo :: rounds
      let c : Condition := { c with data := .damage { data with damageList := rounds } }
      if env.bRemove then c.baseExecuteCondition env.now interval
      else
        let endTime := if 0 < c.ticks then c.endTime + interval.toInt else c.endTime
        { c with endTime := endTime }.baseExecuteCondition env.now 0

/-- `executeCondition`: whether the condition goes on, and its new state. -/
def executeCondition (env : Surroundings) (interval : Int32) (c : Condition) : Bool × Condition :=
  let restart (ticks limit : UInt32) : UInt32 := if limit ≤ ticks then 0 else ticks
  match c.data with
  | .damage data => c.damageExecuteCondition env interval data
  | .light data =>
    let ticks := data.internalLightTicks + interval.toUInt32
    let data := { data with internalLightTicks := restart ticks data.lightChangeInterval }
    { c with data := .light data }.baseExecuteCondition env.now interval
  | .regeneration data =>
    let health := data.internalHealthTicks + interval.toUInt32
    let mana := data.internalManaTicks + interval.toUInt32
    let data :=
      if env.protectionZone then
        { data with internalHealthTicks := health, internalManaTicks := mana }
      else
        { data with internalHealthTicks := restart health data.healthTicks
                    internalManaTicks := restart mana data.manaTicks }
    { c with data := .regeneration data }.baseExecuteCondition env.now interval
  | .soul data =>
    let ticks := data.internalSoulTicks + interval.toUInt32
    let ticks :=
      if env.isPlayer && !env.protectionZone then restart ticks data.soulTicks else ticks
    { c with data := .soul { data with internalSoulTicks := ticks } }.baseExecuteCondition env.now
      interval
  | .speed _ | .invisible | .outfit _ | .attributes _ | .drunk _ | .generic =>
    c.baseExecuteCondition env.now interval

/-! ## Addition to a condition that is there -/

/-- `Condition::updateCondition`. -/
def updateCondition (now : Int) (c addCondition : Condition) : Bool :=
  if c.conditionType ≠ addCondition.conditionType then false
  else if c.ticks = -1 ∧ 0 < addCondition.ticks then false
  else if 0 ≤ addCondition.ticks ∧ now + addCondition.ticks.toInt < c.endTime then false
  else true

/-- `ConditionDamage::updateCondition`. -/
def damageUpdateCondition (c addCondition : Condition) (data other : ConditionDamage) : Bool :=
  if other.forceUpdate then true
  else if c.ticks = -1 ∧ 0 < addCondition.ticks then false
  else getTotalDamage data < getTotalDamage other

/-- `ConditionDamage::addCondition` after `updateCondition`. -/
def takeDamage (env : Surroundings) (c condition : Condition) (data other : ConditionDamage) :
    Condition :=
  let c := c.setTicks env.now condition.ticks
  let taken : ConditionDamage :=
    { data with
      owner := other.owner, maxDamage := other.maxDamage, minDamage := other.minDamage
      startDamage := other.startDamage, tickInterval := other.tickInterval
      periodDamage := other.periodDamage, damageList := other.damageList }
  let nextTimeLeft := match data.damageList with
    | [] => taken.tickInterval
    | damageInfo :: _ => damageInfo.timeLeft
  let (ok, c) := { c with data := .damage taken }.init env
  if !ok then c
  else
    match c.data with
    | .damage data =>
      match data.damageList with
      | [] => c
      | damageInfo :: rounds =>
        -- the first round is dealt at once, if the condition is not delayed
        let rounds :=
          if !data.delayed && data.periodDamage = 0 && c.ticks ≠ -1 then rounds
          else { damageInfo with timeLeft := nextTimeLeft } :: rounds
        { c with data := .damage { data with damageList := rounds } }
    | _ => c

/-- `addCondition`: the condition that is there takes over what the new one brings. -/
def addCondition (env : Surroundings) (c condition : Condition) : Condition :=
  let updated (data : ConditionData) : Condition :=
    if c.updateCondition env.now condition then
      { c.setTicks env.now condition.ticks with data := data }
    else c
  match c.data, condition.data with
  | .damage data, .damage other =>
    if condition.conditionType ≠ c.conditionType then c
    else if c.damageUpdateCondition condition data other then c.takeDamage env condition data other
    else c
  | .speed _, .speed other =>
    if c.conditionType ≠ condition.conditionType then c
    else if c.ticks = -1 ∧ 0 < condition.ticks then c
    else
      let speedDelta := if other.speedDelta = 0 then env.speedDelta else other.speedDelta
      { c.setTicks env.now condition.ticks with
        data := .speed { other with speedDelta := speedDelta } }
  | .outfit _, .outfit outfit => updated (.outfit outfit)
  | .light _, .light other =>
    let interval := (condition.ticks / other.lightInfo.level.toUInt32.toInt32).toUInt32
    updated (.light { lightInfo := other.lightInfo, lightChangeInterval := interval })
  | .regeneration data, .regeneration other =>
    updated (.regeneration
      { data with
        healthTicks := other.healthTicks, manaTicks := other.manaTicks
        healthGain := other.healthGain, manaGain := other.manaGain })
  | .soul data, .soul other =>
    updated (.soul { data with soulTicks := other.soulTicks, soulGain := other.soulGain })
  | .attributes data, .attributes other =>
    let taken : ConditionAttributes :=
      { data with
        skills := other.skills, specialSkills := other.specialSkills
        skillsPercent := other.skillsPercent, stats := other.stats
        statsPercent := other.statsPercent, disableDefense := other.disableDefense }
    updated (.attributes (updatePercent env taken))
  | .drunk drunkenness, .drunk other =>
    -- the creature gets the new drunkenness, the condition keeps its own
    if drunkenness < other then c.setTicks env.now condition.ticks else c
  | .invisible, .invisible => updated .invisible
  | .generic, .generic => updated .generic
  | _, _ => c

/-! ## The states that conditions reach -/

def isPersistent (c : Condition) : Bool :=
  c.ticks ≠ -1 ∧
    (c.id = CONDITIONID_DEFAULT ∨ c.id = CONDITIONID_COMBAT ∨ c.conditionType = .muted)

/-- A condition that is created, given its parameters, started, executed and added to. -/
inductive Reachable : Condition → Prop
  | create {id : Int8} {type : ConditionType} {ticks param : Int32} {buff : Bool} {subId : UInt32}
      {aggressive : Bool} {c : Condition}
      (h : createCondition id type ticks param buff subId aggressive = some c) : Reachable c
  | setParam {c : Condition} (h : Reachable c) (param : ConditionParam) (value : Int32) :
      Reachable (c.setParam param value).2
  | setOutfit {c : Condition} (h : Reachable c) (outfit : Outfit) : Reachable (c.setOutfit outfit)
  | setFormulaVars {c : Condition} (h : Reachable c) (mina minb maxa maxb : UInt32) :
      Reachable (c.setFormulaVars mina minb maxa maxb)
  | setInitDamage {c : Condition} (h : Reachable c) (initDamage : Int32) :
      Reachable (c.setInitDamage initDamage)
  | addDamage {c : Condition} (h : Reachable c) (now : Int) (rounds time value : Int32) :
      Reachable (c.addDamage now rounds time value)
  | start {c c' : Condition} (h : Reachable c) (env : Surroundings)
      (hstart : c.startCondition env = some c') : Reachable c'
  | execute {c : Condition} (h : Reachable c) (env : Surroundings) (interval : Int32) :
      Reachable (c.executeCondition env interval).2
  | add {c condition : Condition} (h : Reachable c) (h' : Reachable condition)
      (env : Surroundings) : Reachable (c.addCondition env condition)

end Condition

end Eloth
