import Mathlib.Data.Nat.Choose.Basic
import Mathlib.Tactic.Linarith
import Mathlib.Tactic.NormNum
import Mathlib.Tactic.Ring
import Eloth.Lib.Run

/-!
# Experience and levels

The level of a player follows the experience: gains and losses cross levels one by one, and each
level crossed changes the maxima by the gains of the vocation.
-/

namespace Eloth

/-- The last level: the experience of the next one does not fit in 64 bits. -/
abbrev MAX_LEVEL : Nat := 1034406

def getExpForLevel (lv : UInt64) : UInt64 := (((lv - 6) * lv + 17) * lv - 12) / 6 * 100

def getPercentLevel (count nextLevelCount : UInt64) : UInt8 :=
  if nextLevelCount = 0 then 0
  else
    let result := (count * 100 / nextLevelCount).toUInt8
    if 100 < result then 0 else result

structure VocationGains where
  isNone : Bool
  gainHP : UInt32
  gainMana : UInt32
  gainCap : UInt32
  deriving DecidableEq

/-- What a row of `players` says about the level. -/
structure LevelRow where
  vocation : VocationGains
  level : UInt32
  experience : UInt64
  health : Int32
  healthMax : Int32
  mana : UInt32
  manaMax : UInt32
  cap : UInt32
  deriving DecidableEq

/-- A player's level with what depends on it. The modifiers of the maxima come from elsewhere. -/
structure PlayerLevel where
  vocation : VocationGains
  level : UInt32
  experience : UInt64
  levelPercent : UInt8
  health : Int32
  healthMax : Int32
  mana : UInt32
  manaMax : UInt32
  capacity : UInt32
  varMaxHealth : Int32
  varMaxMana : Int32
  deriving DecidableEq

namespace PlayerLevel

variable (p : PlayerLevel)

def getMaxHealth : Int32 := max 1 (p.healthMax + p.varMaxHealth)

def getMaxMana : UInt32 := (max 0 (p.manaMax.toInt32 + p.varMaxMana)).toUInt32

/-- The experience of the player's level and of the one after it. -/
def currLevelExp : UInt64 := getExpForLevel p.level.toUInt64

def nextLevelExp : UInt64 := getExpForLevel (p.level + 1).toUInt64

def updateLevelPercent (currLevelExp nextLevelExp : UInt64) : PlayerLevel :=
  { p with
    levelPercent :=
      if currLevelExp < nextLevelExp then
        getPercentLevel (p.experience - currLevelExp) (nextLevelExp - currLevelExp)
      else 0 }

/-- The gains of one level. -/
def advance : PlayerLevel :=
  { p with
    level := p.level + 1
    healthMax := p.healthMax + p.vocation.gainHP.toInt32
    health := p.health + p.vocation.gainHP.toInt32
    manaMax := p.manaMax + p.vocation.gainMana
    mana := p.mana + p.vocation.gainMana
    capacity := p.capacity + p.vocation.gainCap }

/-- The loop of `addExperience`, with the bounds of the level that it has reached. -/
def gainLevels (p : PlayerLevel) (currLevelExp nextLevelExp : UInt64) :
    PlayerLevel × UInt64 × UInt64 :=
  if nextLevelExp ≤ p.experience then
    if p.advance.nextLevelExp ≤ nextLevelExp then
      -- the player has reached the last level
      (p.advance, nextLevelExp, p.advance.nextLevelExp)
    else gainLevels p.advance nextLevelExp p.advance.nextLevelExp
  else (p, currLevelExp, nextLevelExp)
termination_by 2 ^ 64 - nextLevelExp.toNat
decreasing_by
  rename_i hnext
  have hlt := UInt64.lt_iff_toNat_lt.mp (UInt64.not_le.mp hnext)
  have hbound := p.advance.nextLevelExp.toNat_lt
  omega

/-- `addExperience`, with the experience that the event for gains leaves. -/
def addExperience (exp : UInt64) : PlayerLevel :=
  if p.nextLevelExp ≤ p.currLevelExp then { p with levelPercent := 0 }
  else if exp = 0 then p
  else
    let (gained, currLevelExp, nextLevelExp) :=
      { p with experience := p.experience + exp }.gainLevels p.currLevelExp p.nextLevelExp
    let gained :=
      if gained.level ≠ p.level then
        { gained with health := gained.getMaxHealth, mana := gained.getMaxMana }
      else gained
    gained.updateLevelPercent currLevelExp nextLevelExp

/-- `std::max<int32_t>(0, value - gain)` for a signed and for an unsigned value. -/
def lowerSigned (gain : UInt32) (value : Int32) : Int32 := max 0 (value - gain.toInt32)

def lowerUnsigned (gain value : UInt32) : UInt32 := (max 0 (value - gain).toInt32).toUInt32

def downgrade : PlayerLevel :=
  { p with
    level := p.level - 1
    healthMax := lowerSigned p.vocation.gainHP p.healthMax
    manaMax := lowerUnsigned p.vocation.gainMana p.manaMax
    capacity := lowerUnsigned p.vocation.gainCap p.capacity }

/-- The loop of `removeExperience` and of `death`. -/
def loseLevels (p : PlayerLevel) : PlayerLevel :=
  if 1 < p.level ∧ p.experience < p.currLevelExp then p.downgrade.loseLevels else p
termination_by p.level.toNat
decreasing_by
  rename_i h
  have hone := UInt32.lt_iff_toNat_lt.mp h.1
  have hsub : (p.level - 1).toNat = p.level.toNat - 1 := by
    rw [UInt32.toNat_sub_of_le _ _ (UInt32.le_of_lt h.1)]
    rfl
  change (p.level - 1).toNat < p.level.toNat
  rw [hsub]
  have : (1 : UInt32).toNat = 1 := rfl
  omega

/-- `removeExperience`, with the experience that the event for losses leaves of the argument. -/
def removeExperience (exp lost : UInt64) : PlayerLevel :=
  if p.experience = 0 ∨ exp = 0 then p
  else if lost = 0 then p
  else
    let reduced := { p with experience := (max 0 (p.experience - lost).toInt64).toUInt64 }
    let lower := reduced.loseLevels
    let lower :=
      if lower.level ≠ p.level then
        { lower with health := lower.getMaxHealth, mana := lower.getMaxMana }
      else lower
    lower.updateLevelPercent lower.currLevelExp lower.nextLevelExp

/-- The level loss of `death`, with the experience that its event leaves. Players of the low levels
lose nothing once they have a vocation. -/
def deathLoss (expLoss : UInt64) : PlayerLevel :=
  if expLoss ≠ 0 then
    let reduced :=
      if p.vocation.isNone = true ∨ 7 < p.level then
        { p with experience := p.experience - expLoss }
      else p
    let lower := reduced.loseLevels
    lower.updateLevelPercent lower.currLevelExp lower.nextLevelExp
  else p

def death (skillLoss blackSkull : Bool) (expLoss : UInt64) : PlayerLevel :=
  if skillLoss then
    let p := p.deathLoss expLoss
    if blackSkull then { p with health := 40, mana := 0 }
    else { p with health := p.healthMax, mana := p.manaMax }
  else { p with health := p.healthMax }

/-- What `loadPlayer` takes from the row as it is. -/
def readRow (row : LevelRow) : PlayerLevel :=
  { p with
    vocation := row.vocation
    level := max 1 row.level
    health := row.health
    healthMax := row.healthMax
    mana := row.mana
    manaMax := row.manaMax
    capacity := row.cap * 100 }

/-- The experience of the row, if it is one of the level, or else the least one of the level. -/
def clampExperience (experience : UInt64) : PlayerLevel :=
  { p with
    experience :=
      if experience < p.currLevelExp ∨ p.nextLevelExp < experience then p.currLevelExp
      else experience }

/-- The part of `loadPlayer` about the level. -/
def loadPlayer (row : LevelRow) : PlayerLevel :=
  let loaded := (p.readRow row).clampExperience row.experience
  loaded.updateLevelPercent loaded.currLevelExp loaded.nextLevelExp

/-! ## Runs -/

inductive Event where
  | loadPlayer (row : LevelRow)
  | addExperience (exp : UInt64)
  | removeExperience (exp lost : UInt64)
  | death (skillLoss blackSkull : Bool) (expLoss : UInt64)
  | setVocation (vocation : VocationGains)

def apply : Event → PlayerLevel
  | .loadPlayer row => p.loadPlayer row
  | .addExperience exp => p.addExperience exp
  | .removeExperience exp lost => p.removeExperience exp lost
  | .death skillLoss blackSkull expLoss => p.death skillLoss blackSkull expLoss
  | .setVocation vocation => { p with vocation := vocation }

/-- A new player object. -/
def system : Run.System PlayerLevel Event where
  init p := p.level = 1 ∧ p.experience = 0 ∧ p.levelPercent = 0
  step p e p' := p' = p.apply e

/-! ## The experience of a level as a number -/

/-- The experience of level `m + 1`. -/
def expTotal (m : Nat) : Nat := 100 * (m.choose 3 + m)

theorem two_mul_choose_two (m : Nat) : 2 * m.choose 2 + m = m ^ 2 := by
  induction m with
  | zero => rfl
  | succ m ih =>
    rw [Nat.choose_succ_succ' m 1, Nat.choose_one_right]
    nlinarith

theorem six_mul_choose_three (m : Nat) : 6 * (m.choose 3 + m) + 3 * m ^ 2 = m ^ 3 + 8 * m := by
  induction m with
  | zero => rfl
  | succ m ih =>
    have htwo := two_mul_choose_two m
    rw [Nat.choose_succ_succ' m 2]
    nlinarith

theorem expTotal_succ (m : Nat) : expTotal (m + 1) = expTotal m + 100 * (m.choose 2 + 1) := by
  rw [expTotal, expTotal, Nat.choose_succ_succ' m 2]
  ring

theorem expTotal_mono : Monotone expTotal :=
  monotone_nat_of_le_succ fun m => by rw [expTotal_succ]; omega

theorem expTotal_lt_succ (m : Nat) : expTotal m < expTotal (m + 1) := by
  rw [expTotal_succ]
  omega

theorem expTotal_of_cubic {m total : Nat} (h : 6 * total + 300 * m ^ 2 = 100 * (m ^ 3 + 8 * m)) :
    expTotal m = total := by
  have hsix := six_mul_choose_three m
  rw [expTotal]
  generalize m ^ 2 = square at *
  generalize m ^ 3 = cube at *
  omega

/-- The experience of the last level fits in 64 bits. -/
theorem expTotal_last : expTotal (MAX_LEVEL - 1) = 18446727123985721500 :=
  expTotal_of_cubic (by norm_num)

theorem expTotal_beyond : expTotal MAX_LEVEL = 2 ^ 64 + 36549909650984 :=
  expTotal_of_cubic (by norm_num)

theorem expTotal_lt {m : Nat} (h : m < MAX_LEVEL) : expTotal m < 2 ^ 64 := by
  have hle := expTotal_mono (show m ≤ MAX_LEVEL - 1 by omega)
  rw [expTotal_last] at hle
  omega

theorem getExpForLevel_toNat {lv : UInt64} (hpos : 1 ≤ lv.toNat) (hle : lv.toNat ≤ MAX_LEVEL + 1) :
    (getExpForLevel lv).toNat = expTotal (lv.toNat - 1) % 2 ^ 64 := by
  obtain ⟨m, hm⟩ : ∃ m, lv.toNat = m + 1 := ⟨lv.toNat - 1, by omega⟩
  have hlv : lv = UInt64.ofNat m + 1 := by
    rw [← UInt64.ofNat_toNat (x := lv), hm, UInt64.ofNat_add]
    rfl
  -- the product wraps below level 6, but the polynomial does not
  have hinner : ((lv - 6) * lv + 17) * lv - 12 = UInt64.ofNat (6 * (m.choose 3 + m)) := by
    have hsix : 6 * (m.choose 3 + m) + 3 * (m * m) = m * m * m + 8 * m := by
      have h := six_mul_choose_three m
      nlinarith
    have hcast := congrArg UInt64.ofNat hsix
    rw [UInt64.ofNat_add, UInt64.ofNat_add, UInt64.ofNat_mul 3, UInt64.ofNat_mul 8,
      UInt64.ofNat_mul (m * m), UInt64.ofNat_mul m] at hcast
    rw [hlv]
    generalize UInt64.ofNat m = n at *
    generalize UInt64.ofNat (6 * (m.choose 3 + m)) = q at *
    change q + 3 * (n * n) = n * n * n + 8 * n at hcast
    grind -lia
  have hsmall : 6 * (m.choose 3 + m) < 2 ^ 64 := by
    have hle' := expTotal_mono (show m ≤ MAX_LEVEL by omega)
    rw [expTotal_beyond, expTotal] at hle'
    omega
  rw [getExpForLevel, hinner, UInt64.toNat_mul, UInt64.toNat_div, UInt64.toNat_ofNat',
    Nat.mod_eq_of_lt hsmall, hm, Nat.add_sub_cancel, expTotal]
  change 6 * (m.choose 3 + m) / 6 * 100 % 2 ^ 64 = _
  rw [Nat.mul_div_cancel_left _ (by omega), Nat.mul_comm]

/-! ## The levels of a player -/

section Bounds

variable {p : PlayerLevel}

theorem currLevelExp_toNat (hpos : 1 ≤ p.level.toNat) (hle : p.level.toNat ≤ MAX_LEVEL) :
    p.currLevelExp.toNat = expTotal (p.level.toNat - 1) := by
  have hlevel : p.level.toUInt64.toNat = p.level.toNat := UInt32.toNat_toUInt64 _
  rw [currLevelExp, getExpForLevel_toNat (by omega) (by omega), hlevel,
    Nat.mod_eq_of_lt (expTotal_lt (by omega))]

theorem level_add_one (hle : p.level.toNat ≤ MAX_LEVEL) :
    (p.level + 1).toNat = p.level.toNat + 1 := by
  rw [UInt32.toNat_add]
  exact Nat.mod_eq_of_lt (by change p.level.toNat + 1 < 2 ^ 32; unfold MAX_LEVEL at hle; omega)

theorem nextLevelExp_toNat (hlt : p.level.toNat < MAX_LEVEL) :
    p.nextLevelExp.toNat = expTotal p.level.toNat := by
  have hlevel : (p.level + 1).toUInt64.toNat = p.level.toNat + 1 :=
    (UInt32.toNat_toUInt64 _).trans (level_add_one (by omega))
  rw [nextLevelExp, getExpForLevel_toNat (by omega) (by omega), hlevel, Nat.add_sub_cancel,
    Nat.mod_eq_of_lt (expTotal_lt hlt)]

/-- The experience after the last level wraps to less than that of the level itself. -/
theorem nextLevelExp_le_iff (hpos : 1 ≤ p.level.toNat) (hle : p.level.toNat ≤ MAX_LEVEL) :
    p.nextLevelExp ≤ p.currLevelExp ↔ p.level.toNat = MAX_LEVEL := by
  rw [UInt64.le_iff_toNat_le, currLevelExp_toNat hpos hle]
  constructor
  · intro hnext
    by_contra hne
    have hlt := expTotal_lt_succ (p.level.toNat - 1)
    rw [Nat.sub_add_cancel hpos] at hlt
    rw [nextLevelExp_toNat (by omega)] at hnext
    omega
  · intro hmax
    have hlevel : (p.level + 1).toUInt64.toNat = MAX_LEVEL + 1 := by
      rw [UInt32.toNat_toUInt64, level_add_one hle, hmax]
    rw [nextLevelExp, getExpForLevel_toNat (by omega) (by omega), hlevel, Nat.add_sub_cancel,
      expTotal_beyond, hmax, expTotal_last]
    norm_num

/-- The experience lies between that of the level and that of the next one, if there is one. -/
structure Bounded (p : PlayerLevel) : Prop where
  pos : 1 ≤ p.level.toNat
  le : p.level.toNat ≤ MAX_LEVEL
  lower : expTotal (p.level.toNat - 1) ≤ p.experience.toNat
  upper : p.level.toNat < MAX_LEVEL → p.experience.toNat < expTotal p.level.toNat

/-- The part of the level that is gained, rounded down. -/
def percentOf (p : PlayerLevel) : Nat :=
  if p.level.toNat < MAX_LEVEL then
    (p.experience.toNat - expTotal (p.level.toNat - 1)) * 100 /
      (expTotal p.level.toNat - expTotal (p.level.toNat - 1))
  else 0

structure Levelled (p : PlayerLevel) : Prop where
  bounded : p.Bounded
  percent : p.levelPercent.toNat = p.percentOf

theorem getPercentLevel_toNat {count nextLevelCount : UInt64} (hlt : count < nextLevelCount)
    (hsmall : count.toNat * 100 < 2 ^ 64) :
    (getPercentLevel count nextLevelCount).toNat = count.toNat * 100 / nextLevelCount.toNat := by
  have hlt' := UInt64.lt_iff_toNat_lt.mp hlt
  have hne : nextLevelCount ≠ 0 := fun hzero => by
    rw [hzero] at hlt'
    exact Nat.not_lt_zero _ hlt'
  have hquotient : (count * 100 / nextLevelCount).toNat = count.toNat * 100 / nextLevelCount.toNat := by
    rw [UInt64.toNat_div, UInt64.toNat_mul]
    exact congrArg (· / nextLevelCount.toNat) (Nat.mod_eq_of_lt hsmall)
  have hhundred : count.toNat * 100 / nextLevelCount.toNat < 100 := by
    rw [Nat.div_lt_iff_lt_mul (by omega)]
    omega
  have hresult : (count * 100 / nextLevelCount).toUInt8.toNat =
      count.toNat * 100 / nextLevelCount.toNat := by
    rw [UInt64.toNat_toUInt8, hquotient]
    omega
  rw [getPercentLevel, if_neg hne]
  dsimp only
  rw [if_neg, hresult]
  rw [UInt8.lt_iff_toNat_lt, hresult]
  change ¬ 100 < _
  omega

theorem Bounded.updateLevelPercent (h : p.Bounded) :
    (p.updateLevelPercent p.currLevelExp p.nextLevelExp).Levelled := by
  refine ⟨⟨h.pos, h.le, h.lower, h.upper⟩, ?_⟩
  have hiff := nextLevelExp_le_iff h.pos h.le
  change (if p.currLevelExp < p.nextLevelExp then
    getPercentLevel (p.experience - p.currLevelExp) (p.nextLevelExp - p.currLevelExp)
    else 0).toNat = p.percentOf
  rw [percentOf]
  by_cases hlast : p.level.toNat < MAX_LEVEL
  · have hopen : p.currLevelExp < p.nextLevelExp := by
      rw [← UInt64.not_le, hiff]
      omega
    have hcurr := currLevelExp_toNat h.pos h.le
    have hnext := nextLevelExp_toNat hlast
    have hupper := h.upper hlast
    have hlower := h.lower
    have hstep : expTotal p.level.toNat - expTotal (p.level.toNat - 1) < 2 ^ 57 := by
      have hsucc := expTotal_succ (p.level.toNat - 1)
      have htwo := two_mul_choose_two (p.level.toNat - 1)
      have hsquare : (p.level.toNat - 1) ^ 2 ≤ MAX_LEVEL ^ 2 := Nat.pow_le_pow_left (by omega) 2
      rw [Nat.sub_add_cancel h.pos] at hsucc
      norm_num at hsquare
      omega
    have hcount : (p.experience - p.currLevelExp).toNat =
        p.experience.toNat - expTotal (p.level.toNat - 1) := by
      rw [UInt64.toNat_sub_of_le _ _ (UInt64.le_iff_toNat_le.mpr (by omega)), hcurr]
    have hdiff : (p.nextLevelExp - p.currLevelExp).toNat =
        expTotal p.level.toNat - expTotal (p.level.toNat - 1) := by
      rw [UInt64.toNat_sub_of_le _ _ (UInt64.le_of_lt hopen), hcurr, hnext]
    rw [if_pos hopen, if_pos hlast, getPercentLevel_toNat, hcount, hdiff]
    · rw [UInt64.lt_iff_toNat_lt, hcount, hdiff]
      omega
    · rw [hcount]
      omega
  · have hclosed : ¬ p.currLevelExp < p.nextLevelExp := by
      rw [UInt64.not_lt, hiff]
      have hle := h.le
      omega
    rw [if_neg hclosed, if_neg hlast]
    rfl

/-! ## The levels that are crossed -/

/-- Each level crossed upwards adds the gains of the vocation to the maxima, and each one crossed
downwards takes them off, but not below zero. -/
structure Crossed (vocation : VocationGains) (p p' : PlayerLevel) : Prop where
  healthMax : p'.healthMax = (· + vocation.gainHP.toInt32)^[p'.level.toNat - p.level.toNat]
    ((lowerSigned vocation.gainHP)^[p.level.toNat - p'.level.toNat] p.healthMax)
  manaMax : p'.manaMax = (· + vocation.gainMana)^[p'.level.toNat - p.level.toNat]
    ((lowerUnsigned vocation.gainMana)^[p.level.toNat - p'.level.toNat] p.manaMax)
  capacity : p'.capacity = (· + vocation.gainCap)^[p'.level.toNat - p.level.toNat]
    ((lowerUnsigned vocation.gainCap)^[p.level.toNat - p'.level.toNat] p.capacity)

theorem Crossed.refl {vocation : VocationGains} {p' : PlayerLevel} (hlevel : p'.level = p.level)
    (hhealth : p'.healthMax = p.healthMax) (hmana : p'.manaMax = p.manaMax)
    (hcapacity : p'.capacity = p.capacity) : Crossed vocation p p' := by
  refine ⟨?_, ?_, ?_⟩
  · simp [hlevel, hhealth]
  · simp [hlevel, hmana]
  · simp [hlevel, hcapacity]

theorem Crossed.advance {p' : PlayerLevel} (hle : p.level.toNat < MAX_LEVEL)
    (hup : p.level.toNat + 1 ≤ p'.level.toNat) (h : Crossed p.vocation p.advance p') :
    Crossed p.vocation p p' := by
  have hlevel : p.advance.level.toNat = p.level.toNat + 1 := level_add_one (by omega)
  obtain ⟨hhealth, hmana, hcapacity⟩ := h
  have hzero : p.advance.level.toNat - p'.level.toNat = 0 := by omega
  have hzero' : p.level.toNat - p'.level.toNat = 0 := by omega
  have hsucc : p'.level.toNat - p.level.toNat = (p'.level.toNat - p.advance.level.toNat) + 1 := by
    omega
  refine ⟨?_, ?_, ?_⟩
  · rw [hhealth, hzero, hzero', hsucc, Function.iterate_succ_apply]
    rfl
  · rw [hmana, hzero, hzero', hsucc, Function.iterate_succ_apply]
    rfl
  · rw [hcapacity, hzero, hzero', hsucc, Function.iterate_succ_apply]
    rfl

theorem level_sub_one (hpos : 1 ≤ p.level.toNat) : (p.level - 1).toNat = p.level.toNat - 1 :=
  UInt32.toNat_sub_of_le _ _ (UInt32.le_iff_toNat_le.mpr hpos)

theorem Crossed.downgrade {p' : PlayerLevel} (hpos : 1 ≤ p.level.toNat)
    (hdown : p'.level.toNat + 1 ≤ p.level.toNat) (h : Crossed p.vocation p.downgrade p') :
    Crossed p.vocation p p' := by
  have hlevel : p.downgrade.level.toNat = p.level.toNat - 1 := level_sub_one hpos
  obtain ⟨hhealth, hmana, hcapacity⟩ := h
  have hzero : p'.level.toNat - p.downgrade.level.toNat = 0 := by omega
  have hzero' : p'.level.toNat - p.level.toNat = 0 := by omega
  have hsucc : p.level.toNat - p'.level.toNat = (p.downgrade.level.toNat - p'.level.toNat) + 1 := by
    omega
  refine ⟨?_, ?_, ?_⟩
  · rw [hhealth, hzero, hzero', hsucc, Function.iterate_succ_apply]
    rfl
  · rw [hmana, hzero, hzero', hsucc, Function.iterate_succ_apply]
    rfl
  · rw [hcapacity, hzero, hzero', hsucc, Function.iterate_succ_apply]
    rfl

theorem currLevelExp_advance (p : PlayerLevel) : p.advance.currLevelExp = p.nextLevelExp := by
  unfold currLevelExp nextLevelExp advance
  rfl

/-- The loop of the gains stops within the bounds of the level that it returns. -/
theorem gainLevels_spec (p : PlayerLevel) (curr next : UInt64) (hpos : 1 ≤ p.level.toNat)
    (hlast : p.level.toNat < MAX_LEVEL) (hcurr : curr = p.currLevelExp)
    (hnext : next = p.nextLevelExp)
    (hlower : expTotal (p.level.toNat - 1) ≤ p.experience.toNat) :
    (p.gainLevels curr next).1.Bounded ∧ Crossed p.vocation p (p.gainLevels curr next).1 ∧
    (p.gainLevels curr next).2 = ((p.gainLevels curr next).1.currLevelExp,
      (p.gainLevels curr next).1.nextLevelExp) ∧
    p.level.toNat ≤ (p.gainLevels curr next).1.level.toNat := by
  induction p, curr, next using gainLevels.induct with
  | case1 p curr next hgain hmax =>
    have hlevel : p.advance.level.toNat = p.level.toNat + 1 := level_add_one (by omega)
    have hgain' := UInt64.le_iff_toNat_le.mp hgain
    rw [hnext, nextLevelExp_toNat hlast] at hgain'
    have hmax' : p.advance.level.toNat = MAX_LEVEL :=
      (nextLevelExp_le_iff (by omega) (by omega)).mp (by rwa [currLevelExp_advance, ← hnext])
    rw [gainLevels, if_pos hgain, if_pos hmax]
    dsimp only
    refine ⟨⟨by omega, by omega, ?_, fun hlt => by omega⟩, ?_, ?_, by omega⟩
    · rw [hlevel, Nat.add_sub_cancel]
      exact hgain'
    · exact Crossed.advance hlast (by omega) (Crossed.refl rfl rfl rfl rfl)
    · rw [currLevelExp_advance, hnext]
  | case2 p curr next hgain hmore ih =>
    have hlevel : p.advance.level.toNat = p.level.toNat + 1 := level_add_one (by omega)
    have hgain' := UInt64.le_iff_toNat_le.mp hgain
    rw [hnext, nextLevelExp_toNat hlast] at hgain'
    have hopen : p.advance.level.toNat ≠ MAX_LEVEL := fun hmax => by
      have hclosed := (nextLevelExp_le_iff (p := p.advance) (by omega) (by omega)).mpr hmax
      rw [currLevelExp_advance, ← hnext] at hclosed
      exact hmore hclosed
    have hcurr' : next = p.advance.currLevelExp := hnext.trans (currLevelExp_advance p).symm
    obtain ⟨hbounded, hcrossed, hbounds, hup⟩ := ih (by omega) (by omega) hcurr' rfl (by
      rw [hlevel, Nat.add_sub_cancel]
      exact hgain')
    rw [gainLevels, if_pos hgain, if_neg hmore]
    exact ⟨hbounded, hcrossed.advance hlast (by omega), hbounds, by omega⟩
  | case3 p curr next hstay =>
    rw [gainLevels, if_neg hstay]
    dsimp only
    refine ⟨⟨hpos, by omega, hlower, fun _ => ?_⟩, Crossed.refl rfl rfl rfl rfl, ?_, Nat.le_refl _⟩
    · rw [hnext, UInt64.not_le, UInt64.lt_iff_toNat_lt, nextLevelExp_toNat hlast] at hstay
      exact hstay
    · rw [hcurr, hnext]

/-- The loop of the losses stops at a level whose experience the player has. -/
theorem loseLevels_spec (p : PlayerLevel) (hpos : 1 ≤ p.level.toNat) (hle : p.level.toNat ≤ MAX_LEVEL)
    (hupper : p.level.toNat < MAX_LEVEL → p.experience.toNat < expTotal p.level.toNat) :
    p.loseLevels.Bounded ∧ Crossed p.vocation p p.loseLevels ∧
    p.loseLevels.level.toNat ≤ p.level.toNat := by
  induction p using loseLevels.induct with
  | case1 p hlose ih =>
    have hone : 1 < p.level.toNat := UInt32.lt_iff_toNat_lt.mp hlose.1
    have hlevel : p.downgrade.level.toNat = p.level.toNat - 1 := level_sub_one hpos
    have hless := UInt64.lt_iff_toNat_lt.mp hlose.2
    rw [currLevelExp_toNat hpos hle] at hless
    obtain ⟨hbounded, hcrossed, hdown⟩ := ih (by omega) (by omega) fun _ => by
      rw [hlevel]
      exact hless
    rw [loseLevels, if_pos hlose]
    exact ⟨hbounded, hcrossed.downgrade hpos (by omega), by omega⟩
  | case2 p hkeep =>
    rw [loseLevels, if_neg hkeep]
    refine ⟨⟨hpos, hle, ?_, hupper⟩, Crossed.refl rfl rfl rfl rfl, Nat.le_refl _⟩
    rcases not_and_or.mp hkeep with hone | henough
    · have hlevel : p.level.toNat = 1 := by
        have hone' := UInt32.le_iff_toNat_le.mp (UInt32.not_lt.mp hone)
        change p.level.toNat ≤ 1 at hone'
        omega
      rw [hlevel]
      exact Nat.zero_le _
    · rw [UInt64.not_lt, UInt64.le_iff_toNat_le, currLevelExp_toNat hpos hle] at henough
      exact henough

end Bounds

/-! ## The operations -/

/-- The counters do not wrap, and a row is of a level of the table and not at the very end of it. -/
def Allowed (p : PlayerLevel) : Event → Prop
  | .loadPlayer row => row.level.toNat ≤ MAX_LEVEL ∧
    (row.level.toNat < MAX_LEVEL → row.experience ≠ getExpForLevel (max 1 row.level + 1).toUInt64)
  | .addExperience exp => p.level.toNat < MAX_LEVEL → p.experience.toNat + exp.toNat < 2 ^ 64
  | .removeExperience _ lost => lost.toNat ≤ p.experience.toNat + 2 ^ 63
  | .death _ _ expLoss => expLoss ≤ p.experience
  | .setVocation _ => True

variable {p}

theorem Levelled.of_same {p' : PlayerLevel} (h : p.Levelled) (hlevel : p'.level = p.level)
    (hexperience : p'.experience = p.experience) (hpercent : p'.levelPercent = p.levelPercent) :
    p'.Levelled := by
  obtain ⟨⟨hpos, hle, hlower, hupper⟩, hrounded⟩ := h
  refine ⟨⟨?_, ?_, ?_, ?_⟩, ?_⟩
  · rwa [hlevel]
  · rwa [hlevel]
  · rwa [hlevel, hexperience]
  · rwa [hlevel, hexperience]
  · rw [hpercent, hrounded, percentOf, percentOf, hlevel, hexperience]

theorem Bounded.restore (h : p.Bounded) (health : Int32) (mana : UInt32) :
    { p with health := health, mana := mana }.Bounded := ⟨h.pos, h.le, h.lower, h.upper⟩

theorem Levelled.addExperience (h : p.Levelled) {exp : UInt64}
    (hfits : p.level.toNat < MAX_LEVEL → p.experience.toNat + exp.toNat < 2 ^ 64) :
    (p.addExperience exp).Levelled ∧ Crossed p.vocation p (p.addExperience exp) := by
  obtain ⟨⟨hpos, hle, hlower, hupper⟩, hrounded⟩ := h
  have hiff := nextLevelExp_le_iff hpos hle
  unfold PlayerLevel.addExperience
  by_cases hlast : p.level.toNat < MAX_LEVEL
  · rw [if_neg fun hclosed => by have hmax := hiff.mp hclosed; omega]
    split_ifs with hzero
    · exact ⟨⟨⟨hpos, hle, hlower, hupper⟩, hrounded⟩, Crossed.refl rfl rfl rfl rfl⟩
    · have hsum : (p.experience + exp).toNat = p.experience.toNat + exp.toNat := by
        rw [UInt64.toNat_add, Nat.mod_eq_of_lt (hfits hlast)]
      obtain ⟨hbounded, hcrossed, hbounds, -⟩ :=
        gainLevels_spec { p with experience := p.experience + exp } p.currLevelExp p.nextLevelExp
          hpos hlast rfl rfl (by
            change expTotal (p.level.toNat - 1) ≤ (p.experience + exp).toNat
            omega)
      rcases hloop : gainLevels { p with experience := p.experience + exp } p.currLevelExp
        p.nextLevelExp with ⟨gained, curr, next⟩
      rw [hloop] at hbounded hcrossed hbounds
      obtain ⟨rfl, rfl⟩ : curr = gained.currLevelExp ∧ next = gained.nextLevelExp := by
        simpa using hbounds
      dsimp only at hbounded hcrossed ⊢
      split_ifs
      · exact ⟨(hbounded.restore _ _).updateLevelPercent, hcrossed.1, hcrossed.2, hcrossed.3⟩
      · exact ⟨hbounded.updateLevelPercent, hcrossed.1, hcrossed.2, hcrossed.3⟩
  · have hmax : p.level.toNat = MAX_LEVEL := by omega
    rw [if_pos (hiff.mpr hmax)]
    refine ⟨⟨⟨hpos, hle, hlower, hupper⟩, ?_⟩, Crossed.refl rfl rfl rfl rfl⟩
    rw [percentOf, if_neg hlast]
    rfl

/-- The losses of a player whose experience has been reduced. -/
theorem Levelled.loseLevels {reduced : PlayerLevel} (h : p.Levelled)
    (hlevel : reduced.level = p.level) (hless : reduced.experience.toNat ≤ p.experience.toNat) :
    reduced.loseLevels.Bounded ∧ Crossed reduced.vocation reduced reduced.loseLevels := by
  obtain ⟨hpos, hle, -, hupper⟩ := h.bounded
  obtain ⟨hbounded, hcrossed, -⟩ := loseLevels_spec reduced (by rwa [hlevel]) (by rwa [hlevel])
    fun hlt => by
      rw [hlevel] at hlt ⊢
      exact Nat.lt_of_le_of_lt hless (hupper hlt)
  exact ⟨hbounded, hcrossed⟩

theorem toInt_toInt64 (d : UInt64) : d.toInt64.toInt =
    if d.toNat < 2 ^ 63 then (d.toNat : Int) else d.toNat - 2 ^ 64 := by
  change d.toBitVec.toInt = _
  rw [BitVec.toInt_eq_toNat_cond]
  change (if 2 * d.toNat < 2 ^ 64 then (d.toNat : Int) else d.toNat - (2 ^ 64 : Nat)) = _
  split_ifs with h1 h2 h2 <;> omega
/-- The signed maximum of `removeExperience`. -/
theorem max_sub_toNat_le {experience lost : UInt64}
    (hlost : lost.toNat ≤ experience.toNat + 2 ^ 63) :
    (max 0 (experience - lost).toInt64).toUInt64.toNat ≤ experience.toNat := by
  have hmax : max 0 (experience - lost).toInt64 =
      if 0 ≤ (experience - lost).toInt64 then (experience - lost).toInt64 else 0 := rfl
  rw [hmax]
  split_ifs with hnonneg
  · have hint := Int64.le_iff_toInt_le.mp hnonneg
    rw [toInt_toInt64] at hint
    have hsmall : (experience - lost).toNat < 2 ^ 63 := by
      by_contra hbig
      rw [if_neg hbig] at hint
      have hlt := (experience - lost).toNat_lt
      change (0 : Int) ≤ _ at hint
      omega
    change (experience - lost).toNat ≤ _
    have hsub := UInt64.toNat_sub experience lost
    have hlt := experience.toNat_lt
    have hlt' := lost.toNat_lt
    omega
  · exact Nat.zero_le _

theorem Levelled.removeExperience (h : p.Levelled) {exp lost : UInt64}
    (hlost : lost.toNat ≤ p.experience.toNat + 2 ^ 63) :
    (p.removeExperience exp lost).Levelled ∧ Crossed p.vocation p (p.removeExperience exp lost) := by
  unfold PlayerLevel.removeExperience
  split_ifs with hnone hzero
  · exact ⟨h, Crossed.refl rfl rfl rfl rfl⟩
  · exact ⟨h, Crossed.refl rfl rfl rfl rfl⟩
  · obtain ⟨hbounded, hcrossed⟩ := @Levelled.loseLevels p { p with
      experience := (max 0 (p.experience - lost).toInt64).toUInt64 } h rfl (max_sub_toNat_le hlost)
    dsimp only
    split_ifs
    · exact ⟨(hbounded.restore _ _).updateLevelPercent, hcrossed.1, hcrossed.2, hcrossed.3⟩
    · exact ⟨hbounded.updateLevelPercent, hcrossed.1, hcrossed.2, hcrossed.3⟩

theorem Levelled.deathLoss (h : p.Levelled) {expLoss : UInt64} (hloss : expLoss ≤ p.experience) :
    (p.deathLoss expLoss).Levelled ∧ Crossed p.vocation p (p.deathLoss expLoss) := by
  have hless : (p.experience - expLoss).toNat ≤ p.experience.toNat := by
    rw [UInt64.toNat_sub_of_le _ _ hloss]
    omega
  unfold PlayerLevel.deathLoss
  dsimp only
  split_ifs with hzero hvocation
  · obtain ⟨hbounded, hcrossed⟩ :=
      @Levelled.loseLevels p { p with experience := p.experience - expLoss } h rfl hless
    exact ⟨hbounded.updateLevelPercent, hcrossed.1, hcrossed.2, hcrossed.3⟩
  · obtain ⟨hbounded, hcrossed⟩ := h.loseLevels rfl (Nat.le_refl _)
    exact ⟨hbounded.updateLevelPercent, hcrossed.1, hcrossed.2, hcrossed.3⟩
  · exact ⟨h, Crossed.refl rfl rfl rfl rfl⟩

theorem Levelled.death (h : p.Levelled) {skillLoss blackSkull : Bool} {expLoss : UInt64}
    (hloss : expLoss ≤ p.experience) :
    (p.death skillLoss blackSkull expLoss).Levelled ∧
    Crossed p.vocation p (p.death skillLoss blackSkull expLoss) := by
  obtain ⟨hlevelled, hcrossed⟩ := h.deathLoss hloss
  unfold PlayerLevel.death
  dsimp only
  split_ifs
  · exact ⟨hlevelled.of_same rfl rfl rfl, hcrossed.1, hcrossed.2, hcrossed.3⟩
  · exact ⟨hlevelled.of_same rfl rfl rfl, hcrossed.1, hcrossed.2, hcrossed.3⟩
  · exact ⟨h.of_same rfl rfl rfl, Crossed.refl rfl rfl rfl rfl⟩

theorem max_one_toNat (level : UInt32) : (max 1 level).toNat = max 1 level.toNat := by
  have hmax : max 1 level = if 1 ≤ level then level else 1 := rfl
  rw [hmax]
  split_ifs with hle
  · have hle' : 1 ≤ level.toNat := UInt32.le_iff_toNat_le.mp hle
    omega
  · have hlt : level.toNat < 1 := UInt32.lt_iff_toNat_lt.mp (UInt32.not_le.mp hle)
    change 1 = _
    omega

theorem bounded_clampExperience {experience : UInt64} (hpos : 1 ≤ p.level.toNat)
    (hle : p.level.toNat ≤ MAX_LEVEL)
    (hend : p.level.toNat < MAX_LEVEL → experience ≠ p.nextLevelExp) :
    (p.clampExperience experience).Bounded := by
  have hcurr := currLevelExp_toNat hpos hle
  unfold clampExperience
  split_ifs with hclamp
  · refine ⟨hpos, hle, Nat.le_of_eq hcurr.symm, fun hlt => ?_⟩
    have hstep := expTotal_lt_succ (p.level.toNat - 1)
    rw [Nat.sub_add_cancel hpos] at hstep
    change p.currLevelExp.toNat < _
    rw [hcurr]
    exact hstep
  · obtain ⟨hlower, hupper⟩ := not_or.mp hclamp
    rw [UInt64.not_lt, UInt64.le_iff_toNat_le] at hlower hupper
    refine ⟨hpos, hle, by rw [← hcurr]; exact hlower, fun hlt => ?_⟩
    have hne : experience.toNat ≠ p.nextLevelExp.toNat :=
      fun heq => hend hlt (UInt64.toNat_inj.mp heq)
    change experience.toNat < _
    rw [← nextLevelExp_toNat hlt]
    exact Nat.lt_of_le_of_ne hupper hne

theorem levelled_loadPlayer {row : LevelRow} (hle : row.level.toNat ≤ MAX_LEVEL)
    (hend : row.level.toNat < MAX_LEVEL →
      row.experience ≠ getExpForLevel (max 1 row.level + 1).toUInt64) :
    (p.loadPlayer row).Levelled := by
  have hlevel : (p.readRow row).level.toNat = max 1 row.level.toNat := max_one_toNat row.level
  have hone : 1 < MAX_LEVEL := by norm_num
  have hbounded : ((p.readRow row).clampExperience row.experience).Bounded :=
    bounded_clampExperience (by omega) (by omega) fun hlt => hend (by omega)
  exact hbounded.updateLevelPercent

/-- What one event changes in the maxima; a loaded player has those of the row. -/
def Adjusted (p : PlayerLevel) : Event → PlayerLevel → Prop
  | .loadPlayer row, p' => p'.healthMax = row.healthMax ∧ p'.manaMax = row.manaMax ∧
    p'.capacity = row.cap * 100
  | _, p' => Crossed p.vocation p p'

theorem Levelled.apply (h : p.Levelled) {e : Event} (hallowed : Allowed p e) :
    (p.apply e).Levelled ∧ Adjusted p e (p.apply e) := by
  cases e with
  | loadPlayer row => exact ⟨levelled_loadPlayer hallowed.1 hallowed.2, rfl, rfl, rfl⟩
  | addExperience exp => exact h.addExperience hallowed
  | removeExperience exp lost => exact h.removeExperience hallowed
  | death skillLoss blackSkull expLoss => exact h.death hallowed
  | setVocation vocation =>
    exact ⟨h.of_same rfl rfl rfl, Crossed.refl rfl rfl rfl rfl⟩

theorem levelled_of_reachable (h : Run.ReachableBy system Allowed p) : p.Levelled := by
  refine h.invariant (I := Levelled) ?_ fun p e p' hp hallowed hstep => ?_
  · rintro p ⟨hlevel, hexperience, hpercent⟩
    have hone : 1 < MAX_LEVEL := by norm_num
    have hlevel' : p.level.toNat = 1 := by rw [hlevel]; rfl
    have hexperience' : p.experience.toNat = 0 := by rw [hexperience]; rfl
    refine ⟨⟨by omega, by omega, ?_, fun _ => ?_⟩, ?_⟩
    · rw [hlevel']
      exact Nat.zero_le _
    · rw [hlevel', hexperience']
      exact expTotal_lt_succ 0
    · rw [percentOf, hpercent, hexperience', hlevel', if_pos hone, Nat.zero_sub, Nat.zero_mul,
        Nat.zero_div]
      rfl
  · rw [hstep]
    exact (hp.apply hallowed).1

/-- The level fits the experience, the percentage is that of the level rounded down, and each level
crossed changes the maxima by the gains of the vocation, downwards to no less than zero. The last
level has no next one. -/
theorem level_fits_experience (h : Run.ReachableBy system Allowed p) :
    1 ≤ p.level ∧ getExpForLevel p.level.toUInt64 ≤ p.experience ∧
    (p.experience < getExpForLevel (p.level + 1).toUInt64 ∨ p.level.toNat = MAX_LEVEL) ∧
    p.levelPercent.toNat =
      (if p.level.toNat < MAX_LEVEL then
        (p.experience.toNat - (getExpForLevel p.level.toUInt64).toNat) * 100 /
          ((getExpForLevel (p.level + 1).toUInt64).toNat -
            (getExpForLevel p.level.toUInt64).toNat)
      else 0) ∧
    ∀ e, Allowed p e → Adjusted p e (p.apply e) := by
  have hlevelled := levelled_of_reachable h
  obtain ⟨⟨hpos, hle, hlower, hupper⟩, hpercent⟩ := levelled_of_reachable h
  have hcurr : (getExpForLevel p.level.toUInt64).toNat = expTotal (p.level.toNat - 1) :=
    currLevelExp_toNat hpos hle
  have hnext (hlt : p.level.toNat < MAX_LEVEL) :
      (getExpForLevel (p.level + 1).toUInt64).toNat = expTotal p.level.toNat :=
    nextLevelExp_toNat hlt
  refine ⟨UInt32.le_iff_toNat_le.mpr hpos, ?_, ?_, ?_, fun e he => (hlevelled.apply he).2⟩
  · rw [UInt64.le_iff_toNat_le, hcurr]
    exact hlower
  · by_cases hlt : p.level.toNat < MAX_LEVEL
    · left
      rw [UInt64.lt_iff_toNat_lt, hnext hlt]
      exact hupper hlt
    · right
      omega
  · rw [hpercent, percentOf, hcurr]
    split_ifs with hlt
    · rw [hnext hlt]
    · rfl

def sorcerer : VocationGains := { isNone := false, gainHP := 5, gainMana := 30, gainCap := 1000 }

def newPlayer : PlayerLevel :=
  { vocation := sorcerer, level := 1, experience := 0, levelPercent := 0, health := 150
    healthMax := 150, mana := 5, manaMax := 5, capacity := 40000, varMaxHealth := 0, varMaxMana := 0 }

theorem level_fits_newPlayer :
    Adjusted newPlayer (.addExperience 4200) (newPlayer.apply (.addExperience 4200)) ∧
    newPlayer.experience < getExpForLevel 2 := by
  have hinit : Run.ReachableBy system Allowed newPlayer := .init ⟨rfl, rfl, rfl⟩
  refine ⟨(level_fits_experience hinit).2.2.2.2 _ fun _ => by decide, by decide⟩

def rowOf (level : UInt32) (experience : UInt64) : LevelRow :=
  { vocation := sorcerer, level := level, experience := experience, health := 150, healthMax := 150
    mana := 5, manaMax := 5, cap := 400 }

/-- A player of level 2 whose experience has fallen to that of level 1. -/
def fallen : PlayerLevel := { newPlayer.loadPlayer (rowOf 2 150) with experience := 50 }

theorem loseLevels_fallen : fallen.loseLevels = fallen.downgrade := by
  rw [loseLevels, if_pos (by decide), loseLevels, if_neg (by decide)]

/-- The mana of one level cannot be taken off when there is less of it, and the last level has no
next one. -/
theorem maxima_and_last_level :
    (¬ ∀ p exp, Run.Reachable system p →
      (p.removeExperience exp exp).manaMax.toNat +
        (p.level.toNat - (p.removeExperience exp exp).level.toNat) * p.vocation.gainMana.toNat =
        p.manaMax.toNat) ∧
    ¬ ∀ p, Run.Reachable system p → p.experience < getExpForLevel (p.level + 1).toUInt64 := by
  have hinit : Run.Reachable system newPlayer := .init ⟨rfl, rfl, rfl⟩
  constructor
  · intro hexact
    have hloaded : Run.Reachable system (newPlayer.loadPlayer (rowOf 2 150)) :=
      hinit.step' (i := .loadPlayer (rowOf 2 150)) rfl
    have hmana := hexact _ 100 hloaded
    have hremoved : (newPlayer.loadPlayer (rowOf 2 150)).removeExperience 100 100 =
        let lower := { fallen.downgrade with
          health := fallen.downgrade.getMaxHealth, mana := fallen.downgrade.getMaxMana }
        lower.updateLevelPercent lower.currLevelExp lower.nextLevelExp := by
      have hreduced : { newPlayer.loadPlayer (rowOf 2 150) with
          experience := (max 0 ((newPlayer.loadPlayer (rowOf 2 150)).experience -
            100).toInt64).toUInt64 } = fallen := by decide
      rw [removeExperience, if_neg (by decide), if_neg (by decide), hreduced]
      dsimp only
      rw [loseLevels_fallen, if_pos (by decide)]
    rw [hremoved] at hmana
    revert hmana
    decide
  · intro hbelow
    have hloaded : Run.Reachable system
        (newPlayer.loadPlayer (rowOf 1034406 18446727123985721500)) :=
      hinit.step' (i := .loadPlayer (rowOf 1034406 18446727123985721500)) rfl
    have hlast := hbelow _ hloaded
    revert hlast
    decide

end PlayerLevel

end Eloth
