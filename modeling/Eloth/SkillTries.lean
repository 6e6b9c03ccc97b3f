import Eloth.Experience
import Eloth.Item
import Eloth.Lib.Levels

/-!
# Skills and the magic level

A skill grows by tries, and the magic level by mana that is spent. Gains and losses cross levels one
by one. The numbers are those of the server, with the conversions that wrap; the requirements of the
vocation are a table by level.
-/

namespace Eloth

def MINIMUM_SKILL_LEVEL : Nat := 10

/-- Where the loop of the gains stops, with the requirements of that level and of the next one. -/
structure GainedLevels where
  level : Nat
  units : Nat
  count : Nat
  curr : Nat
  next : Nat
  last : Bool

/-- The level after this one, where there are `levels` numbers for the level. -/
def nextLevel (levels level : Nat) : Nat := (level + 1) % levels

/-- What is left of a gain, in numbers of 64 bits. -/
def leftOf (units count next : Nat) : Nat := (count + units + (2 ^ 64 - next)) % 2 ^ 64

/-- The loop of `addSkillAdvance` and of `addManaSpent`. -/
def gainLevels (req : Nat → Nat) (levels level units count curr next : Nat) : GainedLevels :=
  if next ≤ (units + count) % 2 ^ 64 then
    if req (nextLevel levels (nextLevel levels level)) ≤ next then
      ⟨nextLevel levels level, 0, leftOf units count next, next,
        req (nextLevel levels (nextLevel levels level)), true⟩
    else
      gainLevels req levels (nextLevel levels level) 0 (leftOf units count next) next
        (req (nextLevel levels (nextLevel levels level)))
  else ⟨level, units, count, curr, next, false⟩
termination_by 2 ^ 64 - next
decreasing_by
  rename_i hnext hmore
  have hlt := Nat.lt_of_le_of_lt hnext (Nat.mod_lt _ (Nat.two_pow_pos 64))
  omega

/-- The loops of `removeSkillTries` and of `removeManaSpent`, down to the lowest level. -/
def loseLevels (req : Nat → Nat) (lowest : Nat) : Nat → Nat → Nat → Nat × Nat × Nat
  | 0, units, count => (0, units, count)
  | level + 1, units, count =>
    if units < count ∧ lowest < level + 1 then
      loseLevels req lowest level (req (level + 1)) (count - units)
    else (level + 1, units, count)

/-- The percentage of the requirement, in numbers of 64 bits. -/
def percentOf (units required : Nat) : UInt8 :=
  getPercentLevel (UInt64.ofNat units) (UInt64.ofNat required)

/-! ## Skills -/

structure Skill where
  level : Nat
  tries : Nat
  percent : UInt8

namespace Skill

variable (req : Nat → Nat) (s : Skill)

/-- The requirement that the server reads for the level after this one. -/
def nextReqTries : Nat := req (nextLevel (2 ^ 16) s.level)

/-- `Player::addSkillAdvance`, with the count that the event leaves. -/
def addSkillAdvance (count : Nat) : Skill :=
  if s.nextReqTries req ≤ req s.level ∨ count = 0 then s
  else
    let gained := gainLevels req (2 ^ 16) s.level s.tries count (req s.level) (s.nextReqTries req)
    let tries := (gained.units + if gained.last then 0 else gained.count) % 2 ^ 64
    { level := gained.level
      tries := tries
      percent := if gained.curr < gained.next then percentOf tries gained.next else 0 }

/-- `Player::removeSkillTries`. The tries that are left go through a signed number of 32 bits, and
the percentage is that of the requirement of the level itself. -/
def removeSkillTries (count : Nat) : Skill :=
  let (level, tries, count) := loseLevels req MINIMUM_SKILL_LEVEL s.level s.tries count
  let (level, tries, count) :=
    if tries < count then (MINIMUM_SKILL_LEVEL, 0, 0) else (level, tries, count)
  let tries := (max 0 (toInt32 (tries - count))).toNat
  { level := level, tries := tries, percent := percentOf tries (req level) }

end Skill

/-! ## Magic level -/

structure MagicLevel where
  notGainMana : Bool
  magLevel : Nat
  manaSpent : Nat
  magLevelPercent : UInt8

namespace MagicLevel

variable (req : Nat → Nat) (m : MagicLevel)

def nextReqMana : Nat := req (nextLevel (2 ^ 32) m.magLevel)

def updatePercent (curr next : Nat) : MagicLevel :=
  { m with magLevelPercent := if curr < next then percentOf m.manaSpent next else 0 }

/-- `Player::addManaSpent`, with the amount that the event leaves. -/
def addManaSpent (amount : Nat) : MagicLevel :=
  if m.notGainMana ∨ m.nextReqMana req ≤ req m.magLevel ∨ amount = 0 then m
  else
    let gained :=
      gainLevels req (2 ^ 32) m.magLevel m.manaSpent amount (req m.magLevel) (m.nextReqMana req)
    if gained.last then { m with magLevel := gained.level, manaSpent := gained.units }
    else
      { m with
        magLevel := gained.level
        manaSpent := (gained.units + gained.count) % 2 ^ 64 }.updatePercent gained.curr gained.next

/-- `Player::removeManaSpent`. -/
def removeManaSpent (amount : Nat) : MagicLevel :=
  if amount = 0 then m
  else
    let (magLevel, manaSpent, amount) := loseLevels req 0 m.magLevel m.manaSpent amount
    let m := { m with magLevel, manaSpent := (manaSpent + 2 ^ 64 - amount) % 2 ^ 64 }
    m.updatePercent (req m.magLevel) (m.nextReqMana req)

end MagicLevel

/-! ## Gains -/

/-- The requirements grow with the level, and are numbers of 64 bits. -/
structure Table (req : Nat → Nat) (levels : Nat) : Prop where
  lt : ∀ a b, a < b → b < levels → req a < req b
  bound : ∀ a, a < levels → req a < 2 ^ 64

section Gains

open Levels

variable {req : Nat → Nat} {levels base : Nat}

/-- What the loop of the gains has reached. -/
structure Gained (req : Nat → Nat) (levels base level sum : Nat) (g : GainedLevels) : Prop where
  total_eq : total req base g.level (g.units + g.count) = total req base level sum
  base_le : base ≤ g.level
  curr_eq : g.curr = req g.level
  units_eq : g.last = true → g.units = 0
  last_iff : g.last = true ↔ g.level + 1 = levels
  open_spec : g.last = false → g.level + 1 < levels ∧ g.next = req (g.level + 1) ∧
    g.units + g.count < g.next
  next_le : g.last = true → g.next ≤ g.curr

theorem leftOf_spec (htable : Table req levels) {level units count next : Nat}
    (hlevel : level + 1 < levels) (hnext : next = req (level + 1))
    (hsum : units + count < 2 ^ 64) (hgain : next ≤ (units + count) % 2 ^ 64) :
    next + leftOf units count next = units + count := by
  have hbound := htable.bound (level + 1) hlevel
  rw [Nat.mod_eq_of_lt hsum] at hgain
  rw [leftOf, show count + units + (2 ^ 64 - next) = units + count - next + 2 ^ 64 by omega,
    Nat.add_mod_right, Nat.mod_eq_of_lt (by omega)]
  omega

theorem gainLevels_spec (htable : Table req levels) (level units count curr next : Nat)
    (hbase : base ≤ level) (hlevel : level + 1 < levels) (hunits : units < req (level + 1))
    (hsum : units + count < 2 ^ 64) (hcurr : curr = req level) (hnext : next = req (level + 1)) :
    Gained req levels base level (units + count)
      (gainLevels req levels level units count curr next) := by
  induction level, units, count, curr, next using gainLevels.induct req levels with
  | case1 level units count curr next hgain hmax =>
    have hleft := leftOf_spec htable hlevel hnext hsum hgain
    have hadvance : nextLevel levels level = level + 1 := Nat.mod_eq_of_lt hlevel
    rw [gainLevels, if_pos hgain, if_pos hmax]
    rw [hadvance] at hmax ⊢
    have hlast : level + 1 + 1 = levels := by
      by_contra hne
      have hmore : nextLevel levels (level + 1) = level + 1 + 1 := Nat.mod_eq_of_lt (by omega)
      rw [hmore, hnext] at hmax
      exact absurd (htable.lt (level + 1) (level + 1 + 1) (by omega) (by omega)) (by omega)
    refine ⟨?_, by dsimp only; omega, hnext, fun _ => rfl, by simp [hlast], by simp,
      fun _ => hmax⟩
    dsimp only
    rw [Levels.total_succ hbase, ← hleft, hnext, Nat.zero_add]
  | case2 level units count curr next hgain hmore ih =>
    have hleft := leftOf_spec htable hlevel hnext hsum hgain
    have hadvance : nextLevel levels level = level + 1 := Nat.mod_eq_of_lt hlevel
    rw [gainLevels, if_pos hgain, if_neg hmore]
    rw [hadvance] at hmore ih ⊢
    have hlevel' : level + 1 + 1 < levels := by
      by_contra hlast
      have hwraps : nextLevel levels (level + 1) = 0 := by
        rw [nextLevel, show level + 1 + 1 = levels by omega, Nat.mod_self]
      rw [hwraps, hnext] at hmore
      exact absurd (htable.lt 0 (level + 1) (by omega) hlevel) (by omega)
    have hnext' : nextLevel levels (level + 1) = level + 1 + 1 := Nat.mod_eq_of_lt hlevel'
    rw [hnext'] at hmore ih ⊢
    have hih := ih (by omega) hlevel' (by omega) (by omega) hnext rfl
    refine ⟨?_, hih.base_le, hih.curr_eq, hih.units_eq, hih.last_iff, hih.open_spec,
      hih.next_le⟩
    rw [hih.total_eq, Levels.total_succ hbase, ← hleft, hnext, Nat.zero_add]
  | case3 level units count curr next hstay =>
    rw [gainLevels, if_neg hstay]
    rw [Nat.mod_eq_of_lt hsum] at hstay
    refine ⟨rfl, hbase, hcurr, by simp, ?_, fun _ => ⟨hlevel, hnext, by dsimp only; omega⟩,
      by simp⟩
    dsimp only
    exact ⟨(fun h => nomatch h), fun h => absurd h (by omega)⟩

/-! ## Losses -/

/-- The loop of the losses takes what it can: the rest of the count is no more than the units of the
level that it reaches, unless the total is less than the count. -/
structure Lost (req : Nat → Nat) (lowest level sum count : Nat) (lost : Nat × Nat × Nat) :
    Prop where
  lowest_le : lowest ≤ lost.1
  le_level : lost.1 ≤ level
  enough : count ≤ sum → lost.2.2 ≤ lost.2.1 ∧
    total req lowest lost.1 (lost.2.1 - lost.2.2) = sum - count ∧
    lost.2.1 - lost.2.2 < req (lost.1 + 1)
  short : sum < count → lost.1 = lowest ∧ lost.2.1 + (count - sum) = lost.2.2

theorem loseLevels_spec (req : Nat → Nat) (lowest level units count : Nat)
    (hlowest : lowest ≤ level)
    (hunits : units < req (level + 1) + count) :
    Lost req lowest level (total req lowest level units) count
      (loseLevels req lowest level units count) := by
  induction level generalizing units count with
  | zero =>
    obtain rfl : lowest = 0 := Nat.le_zero.mp hlowest
    rw [loseLevels, total, required_base, Nat.zero_add]
    refine ⟨le_rfl, le_rfl, fun hle => ⟨hle, ?_, by dsimp only; omega⟩,
      fun hlt => ⟨rfl, ?_⟩⟩
    · rw [total, required_base, Nat.zero_add]
    · dsimp only
      omega
  | succ level ih =>
    rw [loseLevels]
    by_cases hmore : units < count ∧ lowest < level + 1
    · rw [if_pos hmore]
      have hle : lowest ≤ level := Nat.lt_succ_iff.mp hmore.2
      have htotal : total req lowest (level + 1) units =
          total req lowest level (req (level + 1)) + units := by
        rw [total_succ hle, total_add]
      obtain ⟨hlow, hlevel, henough, hshort⟩ :=
        ih (req (level + 1)) (count - units) hle (by omega)
      rw [htotal]
      refine ⟨hlow, Nat.le_succ_of_le hlevel, fun hcount => ?_, fun hcount => ?_⟩
      · obtain ⟨hrest, hsum, hopen⟩ := henough (by omega)
        exact ⟨hrest, hsum.trans (by omega), hopen⟩
      · obtain ⟨hlast, hrest⟩ := hshort (by omega)
        exact ⟨hlast, by omega⟩
    · rw [if_neg hmore]
      refine ⟨hlowest, le_rfl, fun hcount => ?_, fun hcount => ?_⟩
      · have hle : count ≤ units := by
          by_contra hlt
          have hlevel : level + 1 = lowest := by omega
          rw [total, hlevel, required_base] at hcount
          omega
        refine ⟨hle, ?_, by dsimp only; omega⟩
        dsimp only
        rw [total, total]
        omega
      · have hlt : units < count := by
          rw [total] at hcount
          omega
        have hlevel : level + 1 = lowest := by omega
        refine ⟨hlevel, ?_⟩
        dsimp only
        rw [total, hlevel, required_base]
        omega

end Gains

/-! ## The account of a skill -/

namespace Skill

variable {req : Nat → Nat} {s : Skill} {amount : Nat}

/-- What all the levels of the skill have required, and the tries. -/
def total (req : Nat → Nat) (s : Skill) : Nat :=
  Levels.total req MINIMUM_SKILL_LEVEL s.level s.tries

/-- The tries are below the requirement of the next level. -/
structure Open (req : Nat → Nat) (s : Skill) : Prop where
  minimum_le : MINIMUM_SKILL_LEVEL ≤ s.level
  level_lt : s.level + 1 < 2 ^ 16
  tries_lt : s.tries < req (s.level + 1)

/-- Moreover the percentage is that of the next level. -/
def Settled (req : Nat → Nat) (s : Skill) : Prop :=
  s.Open req ∧ s.percent = percentOf s.tries (req (s.level + 1))

/-- The gain fits into 64 bits and stays below the last level. -/
def GainFits (req : Nat → Nat) (s : Skill) (amount : Nat) : Prop :=
  (amount = 0 → s.percent = percentOf s.tries (req (s.level + 1))) ∧
  (amount ≠ 0 → s.tries + amount < 2 ^ 64 ∧
    s.total req + amount < Levels.required req MINIMUM_SKILL_LEVEL (2 ^ 16 - 1))

/-- The tries that are left fit into 31 bits, and are the same percentage of the requirements of
their level and of the next one. -/
def LossFits (req : Nat → Nat) (s : Skill) (amount : Nat) : Prop :=
  ∀ level tries, MINIMUM_SKILL_LEVEL ≤ level → level ≤ s.level → tries < req (level + 1) →
    Levels.total req MINIMUM_SKILL_LEVEL level tries = s.total req - amount →
    tries < 2 ^ 31 ∧ percentOf tries (req level) = percentOf tries (req (level + 1))

theorem nextReqTries_eq (h : s.Open req) : s.nextReqTries req = req (s.level + 1) := by
  rw [nextReqTries, nextLevel, Nat.mod_eq_of_lt h.level_lt]

theorem addSkillAdvance_spec (htable : Table req (2 ^ 16)) (h : s.Open req)
    (hamount : amount < 2 ^ 64) :
    ((s.addSkillAdvance req amount).total req = s.total req + amount ∧
      (s.addSkillAdvance req amount).Settled req) ↔ s.GainFits req amount := by
  have hless : req s.level < req (s.level + 1) :=
    htable.lt s.level (s.level + 1) (Nat.lt_succ_self _) h.level_lt
  have hbound := htable.bound (s.level + 1) h.level_lt
  have htries := h.tries_lt
  rw [addSkillAdvance, nextReqTries_eq h, GainFits]
  by_cases hzero : amount = 0
  · subst hzero
    rw [if_pos (.inr rfl)]
    exact ⟨fun hs => ⟨fun _ => hs.2.2, fun hne => absurd rfl hne⟩,
      fun hs => ⟨rfl, h, hs.1 rfl⟩⟩
  rw [if_neg (by omega)]
  dsimp only
  by_cases hsum : s.tries + amount < 2 ^ 64
  · have hg := gainLevels_spec htable s.level s.tries amount
      (req s.level) (req (s.level + 1)) h.minimum_le h.level_lt htries hsum rfl rfl
    generalize gainLevels req (2 ^ 16) s.level s.tries amount (req s.level) (req (s.level + 1)) = g
      at hg
    have htotal : s.total req + amount = Levels.total req MINIMUM_SKILL_LEVEL g.level
        (g.units + g.count) := by
      rw [hg.total_eq, Levels.total_add]
      rfl
    cases hlast : g.last with
    | true =>
      refine ⟨fun hs => ?_, fun hs => ?_⟩
      · have hlevel := hs.2.1.level_lt
        have hend := hg.last_iff.mp hlast
        dsimp only at hlevel
        omega
      · have hlt := (hs.2 hzero).2
        have hend : g.level = 2 ^ 16 - 1 := by
          have := hg.last_iff.mp hlast
          omega
        rw [htotal, Levels.total, hend] at hlt
        omega
    | false =>
      obtain ⟨hlevel, hnext, hopen⟩ := hg.open_spec hlast
      have hnextBound := htable.bound (g.level + 1) hlevel
      have hgrows := htable.lt g.level (g.level + 1) (Nat.lt_succ_self _) hlevel
      have hkeep : (g.units + g.count) % 2 ^ 64 = g.units + g.count :=
        Nat.mod_eq_of_lt (by omega)
      rw [if_neg (by decide), hkeep, hg.curr_eq, hnext, if_pos hgrows]
      refine ⟨fun _ => ⟨fun h0 => absurd h0 hzero, fun _ => ⟨hsum, ?_⟩⟩,
        fun _ => ⟨htotal.symm, ⟨hg.base_le, hlevel, hnext ▸ hopen⟩, rfl⟩⟩
      rw [htotal]
      exact Levels.total_lt hg.base_le (hnext ▸ hopen) (by omega)
  · -- The sum wraps, and what is left of it does not reach the next level.
    have hwrapped : (s.tries + amount) % 2 ^ 64 = s.tries + amount - 2 ^ 64 := by
      rw [Nat.mod_eq_sub_mod (by omega), Nat.mod_eq_of_lt (by omega)]
    rw [gainLevels, if_neg (by omega)]
    dsimp only
    rw [if_neg (by decide), hwrapped]
    refine ⟨fun hs => ?_, fun hs => absurd (hs.2 hzero).1 hsum⟩
    have htotal := hs.1
    have hbefore : s.total req = Levels.required req MINIMUM_SKILL_LEVEL s.level + s.tries := rfl
    rw [hbefore, total, Levels.total] at htotal
    dsimp only at htotal
    omega

/-- The conversion of the tries that are left. -/
def kept (tries : Nat) : Nat := (max 0 (toInt32 tries)).toNat

theorem kept_eq_iff {tries : Nat} : kept tries = tries ↔ tries < 2 ^ 31 := by
  rw [kept, toInt32]
  split_ifs <;> omega

/-- What is left after a loss, before the conversion. -/
theorem removeSkillTries_eq (amount : Nat) (htable : Table req (2 ^ 16)) (h : s.Open req) :
    ∃ level tries, MINIMUM_SKILL_LEVEL ≤ level ∧ level ≤ s.level ∧ tries < req (level + 1) ∧
    Levels.total req MINIMUM_SKILL_LEVEL level tries = s.total req - amount ∧
    s.removeSkillTries req amount = ⟨level, kept tries, percentOf (kept tries) (req level)⟩ := by
  obtain ⟨hlow, hlevel, henough, hshort⟩ := loseLevels_spec req MINIMUM_SKILL_LEVEL
    s.level s.tries amount h.minimum_le (Nat.lt_add_right amount h.tries_lt)
  rw [removeSkillTries]
  generalize loseLevels req MINIMUM_SKILL_LEVEL s.level s.tries amount = lost
    at hlow hlevel henough hshort
  obtain ⟨level, tries, count⟩ := lost
  dsimp only at hlow hlevel henough hshort ⊢
  by_cases hle : amount ≤ s.total req
  · obtain ⟨hrest, htotal, hopen⟩ := henough hle
    rw [if_neg (Nat.not_lt.mpr hrest)]
    exact ⟨level, tries - count, hlow, hlevel, hopen, htotal, rfl⟩
  · have hlt : s.total req < amount := Nat.lt_of_not_le hle
    obtain ⟨rfl, hrest⟩ := hshort hlt
    have hover : tries < count := by
      change tries + (amount - s.total req) = count at hrest
      omega
    have hpositive := htable.lt MINIMUM_SKILL_LEVEL (MINIMUM_SKILL_LEVEL + 1) (by decide)
      (by decide)
    rw [if_pos hover]
    refine ⟨MINIMUM_SKILL_LEVEL, 0, le_rfl, h.minimum_le, by omega, ?_, rfl⟩
    rw [Levels.total, Levels.required_base]
    omega

theorem removeSkillTries_spec (htable : Table req (2 ^ 16)) (h : s.Open req) :
    ((s.removeSkillTries req amount).total req = s.total req - min amount (s.total req) ∧
      (s.removeSkillTries req amount).Settled req) ↔ s.LossFits req amount := by
  obtain ⟨level, tries, hlow, hlevel, hopen, htotal, heq⟩ :=
    removeSkillTries_eq amount htable h
  have hmin : s.total req - min amount (s.total req) = s.total req - amount := by omega
  rw [heq, hmin]
  constructor
  · rintro ⟨hsum, -, hpercent⟩ level' tries' hlow' hlevel' hopen' htotal'
    obtain ⟨rfl, rfl⟩ := Levels.total_inj hlow' hlow hopen' hopen (htotal'.trans htotal.symm)
    have hkept : kept tries' = tries' := Nat.add_left_cancel (hsum.trans htotal'.symm)
    dsimp only at hpercent
    rw [hkept] at hpercent
    exact ⟨kept_eq_iff.mp hkept, hpercent⟩
  · intro hfits
    obtain ⟨hlt, hpercent⟩ := hfits level tries hlow hlevel hopen htotal
    have hkept := kept_eq_iff.mpr hlt
    rw [hkept]
    exact ⟨htotal, ⟨hlow, Nat.lt_of_le_of_lt (Nat.succ_le_succ hlevel) h.level_lt, hopen⟩,
      hpercent⟩

/-- A gain that is taken off again. -/
theorem removeSkillTries_addSkillAdvance (htable : Table req (2 ^ 16))
    (htotal : (s.addSkillAdvance req amount).total req = s.total req + amount)
    (hsettled : (s.addSkillAdvance req amount).Settled req) (h : s.Open req) :
    (s.addSkillAdvance req amount).removeSkillTries req amount = s ↔
      s.tries < 2 ^ 31 ∧ s.percent = percentOf s.tries (req s.level) := by
  obtain ⟨level, tries, hlow, -, hopen, hrest, heq⟩ :=
    removeSkillTries_eq amount htable hsettled.1
  have hsame : Levels.total req MINIMUM_SKILL_LEVEL level tries =
      Levels.total req MINIMUM_SKILL_LEVEL s.level s.tries := by
    rw [hrest, htotal, Nat.add_sub_cancel]
    rfl
  obtain ⟨rfl, rfl⟩ := Levels.total_inj hlow h.minimum_le hopen h.tries_lt hsame
  rw [heq]
  constructor
  · intro hs
    have htries : kept s.tries = s.tries := congrArg Skill.tries hs
    have hpercent : percentOf (kept s.tries) (req s.level) = s.percent := congrArg Skill.percent hs
    rw [htries] at hpercent
    exact ⟨kept_eq_iff.mp htries, hpercent.symm⟩
  · rintro ⟨hlt, hpercent⟩
    rw [kept_eq_iff.mpr hlt, ← hpercent]

/-- Gains and losses balance, and undo each other, exactly under the three conditions. -/
theorem tries_balance (req : Nat → Nat) (s : Skill) (amount : Nat) (htable : Table req (2 ^ 16))
    (h : s.Open req) (hamount : amount < 2 ^ 64) :
    (((s.addSkillAdvance req amount).total req = s.total req + amount ∧
        (s.addSkillAdvance req amount).Settled req) ∧
      ((s.removeSkillTries req amount).total req = s.total req - min amount (s.total req) ∧
        (s.removeSkillTries req amount).Settled req) ∧
      (s.addSkillAdvance req amount).removeSkillTries req amount = s) ↔
    s.GainFits req amount ∧ s.LossFits req amount ∧
      s.tries < 2 ^ 31 ∧ s.percent = percentOf s.tries (req s.level) := by
  rw [removeSkillTries_spec htable h, addSkillAdvance_spec htable h hamount]
  refine and_congr_right fun hgain => and_congr_right fun _ => ?_
  obtain ⟨htotal, hsettled⟩ := (addSkillAdvance_spec htable h hamount).mpr hgain
  exact removeSkillTries_addSkillAdvance htable htotal hsettled h

/-- Requirements of 100 tries for each level. -/
def hundreds (level : Nat) : Nat := 100 * level

theorem table_hundreds : Table hundreds (2 ^ 16) where
  lt a b hab _ := by
    rw [hundreds, hundreds]
    omega
  bound a ha := by
    rw [hundreds]
    omega

theorem tries_balance_hundreds :
    ((⟨10, 0, 0⟩ : Skill).addSkillAdvance hundreds 5).removeSkillTries hundreds 5 = ⟨10, 0, 0⟩ := by
  have hopen : (⟨10, 0, 0⟩ : Skill).Open hundreds := ⟨le_rfl, by decide, by decide⟩
  refine ((tries_balance hundreds ⟨10, 0, 0⟩ 5 table_hundreds hopen (by decide)).mpr
    ⟨⟨(fun h => nomatch h), fun _ => ⟨by decide, ?_⟩⟩, ?_, by decide, by decide⟩).2.2
  · have hfirst : Levels.required hundreds 10 (10 + 1) = 0 + 1100 := by
      rw [Levels.required_succ le_rfl, Levels.required_base]
      rfl
    have hle : Levels.required hundreds 10 (10 + 1) ≤ Levels.required hundreds 10 (2 ^ 16 - 1) :=
      Levels.required_mono (by decide)
    have htotal : (⟨10, 0, 0⟩ : Skill).total hundreds = 0 + 0 :=
      congrArg (· + 0) Levels.required_base
    rw [htotal]
    change _ < Levels.required hundreds 10 _
    omega
  · intro level tries hlow hlevel _ htotal
    obtain rfl : level = 10 := le_antisymm hlevel hlow
    have hbefore : (⟨10, 0, 0⟩ : Skill).total hundreds = 0 + 0 :=
      congrArg (· + 0) Levels.required_base
    rw [hbefore, Levels.total] at htotal
    obtain rfl : tries = 0 := by omega
    exact ⟨by decide, by decide⟩

/-- After a loss of 50 tries, 600 of 1300 are half of what the level itself has required. -/
theorem removeSkillTries_not_settled : Table hundreds (2 ^ 16) ∧
    (⟨12, 650, 50⟩ : Skill).Settled hundreds ∧
    (⟨12, 650, 50⟩ : Skill).removeSkillTries hundreds 50 = ⟨12, 600, 50⟩ ∧
    ¬(⟨12, 600, 50⟩ : Skill).Settled hundreds :=
  ⟨table_hundreds, ⟨⟨by decide, by decide, by decide⟩, by decide⟩, rfl,
    fun h => absurd h.2 (by decide)⟩

end Skill

/-! ## The account of the magic level -/

namespace MagicLevel

variable {req : Nat → Nat} {m : MagicLevel} {amount : Nat}

/-- What all the magic levels have required, and the mana that is spent. -/
def total (req : Nat → Nat) (m : MagicLevel) : Nat := Levels.total req 0 m.magLevel m.manaSpent

/-- The mana that is spent is below the requirement of the next level. -/
structure Open (req : Nat → Nat) (m : MagicLevel) : Prop where
  magLevel_lt : m.magLevel + 1 < 2 ^ 32
  manaSpent_lt : m.manaSpent < req (m.magLevel + 1)

/-- The gain is allowed, fits into 64 bits and stays below the last level. -/
def GainFits (req : Nat → Nat) (m : MagicLevel) (amount : Nat) : Prop :=
  amount ≠ 0 → m.notGainMana = false ∧ m.manaSpent + amount < 2 ^ 64 ∧
    m.total req + amount < Levels.required req 0 (2 ^ 32 - 1)

theorem nextReqMana_eq (h : m.Open req) : m.nextReqMana req = req (m.magLevel + 1) := by
  rw [nextReqMana, nextLevel, Nat.mod_eq_of_lt h.magLevel_lt]

theorem addManaSpent_spec (htable : Table req (2 ^ 32)) (h : m.Open req)
    (hamount : amount < 2 ^ 64) :
    ((m.addManaSpent req amount).total req = m.total req + amount ∧
      (m.addManaSpent req amount).Open req) ↔ m.GainFits req amount := by
  have hless : req m.magLevel < req (m.magLevel + 1) :=
    htable.lt m.magLevel (m.magLevel + 1) (Nat.lt_succ_self _) h.magLevel_lt
  have hbound := htable.bound (m.magLevel + 1) h.magLevel_lt
  have hspent := h.manaSpent_lt
  have hbefore : m.total req = Levels.required req 0 m.magLevel + m.manaSpent := rfl
  rw [addManaSpent, nextReqMana_eq h, GainFits]
  by_cases hzero : amount = 0
  · subst hzero
    rw [if_pos (.inr (.inr rfl))]
    exact ⟨fun _ hne => absurd rfl hne, fun _ => ⟨rfl, h⟩⟩
  by_cases hflag : m.notGainMana = true
  · rw [if_pos (.inl hflag)]
    refine ⟨fun hs => ?_, fun hs => ?_⟩
    · have htotal := hs.1
      omega
    · rw [hflag] at hs
      exact nomatch (hs hzero).1
  have hallowed : ¬(m.notGainMana = true ∨ req (m.magLevel + 1) ≤ req m.magLevel ∨ amount = 0) := by
    rintro (hf | hle | h0)
    · exact hflag hf
    · omega
    · exact hzero h0
  rw [if_neg hallowed]
  dsimp only
  by_cases hsum : m.manaSpent + amount < 2 ^ 64
  · have hg := gainLevels_spec htable m.magLevel m.manaSpent amount
      (req m.magLevel) (req (m.magLevel + 1)) (Nat.zero_le _) h.magLevel_lt hspent hsum rfl rfl
    generalize gainLevels req (2 ^ 32) m.magLevel m.manaSpent amount (req m.magLevel)
      (req (m.magLevel + 1)) = g at hg
    have htotal : m.total req + amount = Levels.total req 0 g.level (g.units + g.count) := by
      rw [hg.total_eq, Levels.total_add]
      rfl
    cases hlast : g.last with
    | true =>
      have hend := hg.last_iff.mp hlast
      rw [if_pos rfl]
      refine ⟨fun hs => ?_, fun hs => ?_⟩
      · have hlevel := hs.2.magLevel_lt
        dsimp only at hlevel
        omega
      · obtain ⟨-, -, hlt⟩ := hs hzero
        have hlevel : g.level = 2 ^ 32 - 1 := by omega
        rw [htotal, Levels.total, hlevel] at hlt
        omega
    | false =>
      obtain ⟨hlevel, hnext, hopen⟩ := hg.open_spec hlast
      have hnextBound := htable.bound (g.level + 1) hlevel
      have hkeep : (g.units + g.count) % 2 ^ 64 = g.units + g.count :=
        Nat.mod_eq_of_lt (by omega)
      rw [if_neg (by decide), hkeep, updatePercent]
      refine ⟨fun _ _ => ⟨Bool.eq_false_iff.mpr hflag, hsum, ?_⟩,
        fun _ => ⟨htotal.symm, hlevel, hnext ▸ hopen⟩⟩
      rw [htotal]
      exact Levels.total_lt hg.base_le (hnext ▸ hopen) (by omega)
  · -- The sum wraps, and what is left of it does not reach the next level.
    have hwrapped : (m.manaSpent + amount) % 2 ^ 64 = m.manaSpent + amount - 2 ^ 64 := by
      rw [Nat.mod_eq_sub_mod (by omega), Nat.mod_eq_of_lt (by omega)]
    have hstay : gainLevels req (2 ^ 32) m.magLevel m.manaSpent amount (req m.magLevel)
        (req (m.magLevel + 1)) = ⟨m.magLevel, m.manaSpent, amount, req m.magLevel,
          req (m.magLevel + 1), false⟩ := by
      rw [gainLevels, if_neg (by omega)]
    rw [hstay, if_neg Bool.false_ne_true, hwrapped, updatePercent]
    refine ⟨fun hs => ?_, fun hs => absurd (hs hzero).2.1 hsum⟩
    have htotal := hs.1
    rw [hbefore, total, Levels.total] at htotal
    dsimp only at htotal
    omega

theorem removeManaSpent_spec (htable : Table req (2 ^ 32)) (h : m.Open req)
    (hamount : amount < 2 ^ 64) :
    ((m.removeManaSpent req amount).total req = m.total req - min amount (m.total req) ∧
      (m.removeManaSpent req amount).Open req) ↔ amount ≤ m.total req := by
  by_cases hzero : amount = 0
  · subst hzero
    rw [removeManaSpent, if_pos rfl, Nat.zero_min]
    exact ⟨fun _ => Nat.zero_le _, fun _ => ⟨rfl, h⟩⟩
  obtain ⟨-, hlevel, henough, hshort⟩ := loseLevels_spec req 0 m.magLevel m.manaSpent
    amount (Nat.zero_le _) (Nat.lt_add_right amount h.manaSpent_lt)
  rw [removeManaSpent, if_neg hzero]
  generalize loseLevels req 0 m.magLevel m.manaSpent amount = lost at hlevel henough hshort
  obtain ⟨magLevel, manaSpent, rest⟩ := lost
  dsimp only at hlevel henough hshort ⊢
  rw [updatePercent]
  by_cases hle : amount ≤ m.total req
  · obtain ⟨hrest, htotal, hopen⟩ := henough hle
    have hbound := htable.bound (magLevel + 1)
      (Nat.lt_of_le_of_lt (Nat.succ_le_succ hlevel) h.magLevel_lt)
    have hspent : (manaSpent + 2 ^ 64 - rest) % 2 ^ 64 = manaSpent - rest := by
      rw [show manaSpent + 2 ^ 64 - rest = manaSpent - rest + 2 ^ 64 by omega,
        Nat.add_mod_right, Nat.mod_eq_of_lt (by omega)]
    rw [hspent, Nat.min_eq_left hle]
    exact ⟨fun _ => hle, fun _ =>
      ⟨htotal, Nat.lt_of_le_of_lt (Nat.succ_le_succ hlevel) h.magLevel_lt, hopen⟩⟩
  · -- The difference wraps on the lowest level.
    have hlt : m.total req < amount := Nat.lt_of_not_le hle
    obtain ⟨rfl, hrest⟩ := hshort hlt
    have hmissing : manaSpent + (amount - m.total req) = rest := hrest
    have hspent : (manaSpent + 2 ^ 64 - rest) % 2 ^ 64 = 2 ^ 64 - (amount - m.total req) := by
      rw [show manaSpent + 2 ^ 64 - rest = 2 ^ 64 - (amount - m.total req) by omega,
        Nat.mod_eq_of_lt (by omega)]
    rw [hspent, Nat.min_eq_right hlt.le, Nat.sub_self]
    refine ⟨fun hs => ?_, fun hs => absurd hs hle⟩
    have htotal := hs.1
    rw [total, Levels.total] at htotal
    dsimp only at htotal
    omega

/-- Gains and losses of mana balance exactly under the two conditions. -/
theorem mana_balance (req : Nat → Nat) (m : MagicLevel) (amount : Nat)
    (htable : Table req (2 ^ 32)) (h : m.Open req) (hamount : amount < 2 ^ 64) :
    (((m.addManaSpent req amount).total req = m.total req + amount ∧
        (m.addManaSpent req amount).Open req) ∧
      (m.removeManaSpent req amount).total req = m.total req - min amount (m.total req) ∧
        (m.removeManaSpent req amount).Open req) ↔
    m.GainFits req amount ∧ amount ≤ m.total req := by
  rw [addManaSpent_spec htable h hamount, removeManaSpent_spec htable h hamount]

/-- Requirements of 1600 for the first magic level and of one more for each further one. -/
def rising (magLevel : Nat) : Nat := 1600 + magLevel

theorem table_rising : Table rising (2 ^ 32) where
  lt a b hab _ := by
    rw [rising, rising]
    omega
  bound a ha := by
    rw [rising]
    omega

theorem mana_balance_rising :
    ((⟨false, 0, 7, 0⟩ : MagicLevel).removeManaSpent rising 5).total rising = 2 := by
  have hbefore : (⟨false, 0, 7, 0⟩ : MagicLevel).total rising = 0 + 7 :=
    congrArg (· + 7) Levels.required_base
  have hfirst : Levels.required rising 0 (0 + 1) = 0 + 1601 := by
    rw [Levels.required_succ le_rfl, Levels.required_base]
    rfl
  have hle : Levels.required rising 0 (0 + 1) ≤ Levels.required rising 0 (2 ^ 32 - 1) :=
    Levels.required_mono (by decide)
  have hbalance := (mana_balance rising ⟨false, 0, 7, 0⟩ 5 table_rising
    ⟨by decide, by decide⟩ (by decide)).mpr ⟨fun _ => ⟨rfl, by decide, by omega⟩, by omega⟩
  rw [hbalance.2.1, hbefore]
  rfl

/-- At magic level 0 the loss of 10 wraps below the 5 that are spent. -/
theorem removeManaSpent_wraps : Table rising (2 ^ 32) ∧
    (⟨false, 0, 5, 0⟩ : MagicLevel).Open rising ∧
    ((⟨false, 0, 5, 0⟩ : MagicLevel).removeManaSpent rising 10).manaSpent = 2 ^ 64 - 5 ∧
    ¬((⟨false, 0, 5, 0⟩ : MagicLevel).removeManaSpent rising 10).Open rising :=
  ⟨table_rising, ⟨by decide, by decide⟩, by decide, fun h => absurd h.manaSpent_lt (by decide)⟩

end MagicLevel

end Eloth
