import Eloth.Item

/-!
# Damage in combat

`Game::combatChangeHealth` for a target without scripts for changes of health and mana. Damage is
counted in mathematical integers; only the conversions of the unsigned mana wrap.
-/

namespace Eloth

def COMBAT_UNDEFINEDDAMAGE : Nat := 16

structure CombatDamage where
  primaryType : Nat
  primary : Int
  secondary : Int
  deriving DecidableEq

/-- What the damage reads and changes of a creature. -/
structure CombatTarget where
  isPlayer : Bool
  isAttackable : Bool
  hasManaShield : Bool
  hasInfiniteMana : Bool
  maxHealth : Int
  health : Int
  maxMana : Nat
  mana : Nat
  deriving DecidableEq

/-- The conversion to an unsigned number of 32 bits. -/
def toUInt32 (value : Int) : Nat := (value % 2 ^ 32).toNat

namespace CombatTarget

variable (target : CombatTarget)

def changeHealth (healthChange : Int) : CombatTarget :=
  { target with
    health :=
      if 0 < healthChange then target.health + min healthChange (target.maxHealth - target.health)
      else max 0 (target.health + healthChange) }

/-- The sum of the unsigned mana and the change is read as a signed number. -/
def changeMana (manaChange : Int) : CombatTarget :=
  if target.hasInfiniteMana then target
  else
    { target with
      mana :=
        if 0 < manaChange then
          toUInt32 (target.mana +
            min manaChange (toInt32 (toUInt32 (target.maxMana - target.mana))))
        else (max 0 (toInt32 (toUInt32 (target.mana + manaChange)))).toNat }

/-- The part of the damage that the mana shield takes. -/
def absorb (damage : CombatDamage) (healthChange : Int) : CombatTarget × CombatDamage :=
  if target.isPlayer && target.hasManaShield &&
      damage.primaryType != COMBAT_UNDEFINEDDAMAGE then
    let manaDamage := min (toInt32 target.mana) healthChange
    if manaDamage ≠ 0 then
      let primary := damage.primary - manaDamage
      (target.changeMana (-manaDamage),
        if primary < 0 then
          { damage with primary := 0, secondary := max 0 (damage.secondary + primary) }
        else { damage with primary := primary })
    else (target, damage)
  else (target, damage)

/-- The damage is no more than the health. -/
def clip (damage : CombatDamage) : CombatDamage :=
  if target.health ≤ damage.primary then
    { damage with primary := target.health, secondary := 0 }
  else if damage.secondary ≠ 0 then
    { damage with secondary := min damage.secondary (target.health - damage.primary) }
  else damage

/-- `Game::combatChangeHealth`. It is given whether a player with a black skull attacks an unmarked
one, and whether the scripts let the target die. -/
def combatChangeHealth (blackSkull preparesDeath : Bool) (damage : CombatDamage) :
    Bool × CombatTarget × CombatDamage :=
  if 0 < damage.primary then
    if target.health ≤ 0 ∨ blackSkull then (false, target, damage)
    else (true, target.changeHealth damage.primary, damage)
  else if !target.isAttackable then (true, target, damage)
  else if blackSkull then (false, target, damage)
  else
    let damage := { damage with primary := |damage.primary|, secondary := |damage.secondary| }
    let healthChange := damage.primary + damage.secondary
    if healthChange = 0 then (true, target, damage)
    else
      let (target, damage) := target.absorb damage healthChange
      if damage.primary + damage.secondary = 0 then (true, target, damage)
      else
        let damage := target.clip damage
        let realDamage := damage.primary + damage.secondary
        if realDamage = 0 then (true, target, damage)
        else if target.health ≤ realDamage ∧ !preparesDeath then (false, target, damage)
        else (true, target.changeHealth (-realDamage), damage)

/-! ## The account of a hit -/

/-- The damage that the mana shield absorbs of a total. -/
def absorbed (primaryType : Nat) (total : Int) : Int :=
  if target.isPlayer && target.hasManaShield && primaryType != COMBAT_UNDEFINEDDAMAGE then
    min (target.mana : Int) total
  else 0

/-- The shield takes what the mana covers, the health takes the rest as far as it goes, and the
record keeps what the health has lost. -/
structure Accounted (damage : CombatDamage) (target' : CombatTarget) (damage' : CombatDamage) :
    Prop where
  mana_lost : (target'.mana : Int) =
    target.mana - target.absorbed damage.primaryType (|damage.primary| + |damage.secondary|)
  health_lost : target'.health = target.health - min target.health
    (|damage.primary| + |damage.secondary| -
      target.absorbed damage.primaryType (|damage.primary| + |damage.secondary|))
  health_nonneg : 0 ≤ target'.health
  recorded : damage'.primary + damage'.secondary = target.health - target'.health

section Hit

variable {target} {damage : CombatDamage} {total : Int}

theorem toInt32_of_lt {n : Nat} (h : n < 2 ^ 31) : toInt32 n = n := by
  rw [toInt32, Nat.mod_eq_of_lt (by omega), if_pos h]

theorem changeMana_spec (loss : Int) (hmana : target.mana < 2 ^ 31) (hloss : 0 ≤ loss)
    (hle : loss ≤ target.mana) : ∃ mana : Nat,
    target.changeMana (-loss) = { target with mana := mana } ∧
      (mana : Int) =
        if target.hasInfiniteMana then (target.mana : Int) else target.mana - loss := by
  rw [changeMana]
  by_cases hinfinite : target.hasInfiniteMana = true
  · rw [if_pos hinfinite, if_pos hinfinite]
    exact ⟨target.mana, rfl, rfl⟩
  · have hsum : toUInt32 (target.mana + -loss) = (target.mana - loss).toNat := by
      rw [toUInt32, Int.emod_eq_of_lt (by omega) (by omega), Int.sub_eq_add_neg]
    rw [if_neg hinfinite, if_neg hinfinite, if_neg (by omega), hsum, toInt32_of_lt (by omega)]
    exact ⟨_, rfl, by omega⟩

/-- What is left of the damage is what the shield has not absorbed. -/
theorem absorb_spec (damage : CombatDamage) (total : Int) (hmana : target.mana < 2 ^ 31)
    (hprimary : 0 ≤ damage.primary)
    (hsecondary : 0 ≤ damage.secondary) (htotal : damage.primary + damage.secondary = total) :
    ∃ mana : Nat, (target.absorb damage total).1 = { target with mana := mana } ∧
      (mana : Int) = (if target.hasInfiniteMana then (target.mana : Int)
        else target.mana - target.absorbed damage.primaryType total) ∧
      0 ≤ (target.absorb damage total).2.primary ∧
      0 ≤ (target.absorb damage total).2.secondary ∧
      (target.absorb damage total).2.primary + (target.absorb damage total).2.secondary =
        total - target.absorbed damage.primaryType total := by
  rw [absorb, absorbed, toInt32_of_lt hmana]
  dsimp only
  by_cases hshield : (target.isPlayer && target.hasManaShield &&
      damage.primaryType != COMBAT_UNDEFINEDDAMAGE) = true
  · rw [if_pos hshield, if_pos hshield]
    by_cases hloss : min (target.mana : Int) total ≠ 0
    · rw [if_pos hloss]
      obtain ⟨mana, hchanged, hleft⟩ := changeMana_spec (min (target.mana : Int) total)
        hmana
        (by omega) (by omega)
      refine ⟨mana, hchanged, hleft, ?_⟩
      by_cases hover : damage.primary - min (target.mana : Int) total < 0
      · rw [if_pos hover]
        dsimp only
        omega
      · rw [if_neg hover]
        dsimp only
        omega
    · rw [if_neg hloss]
      refine ⟨target.mana, rfl, ?_, hprimary, hsecondary, by dsimp only; omega⟩
      split_ifs <;> omega
  · rw [if_neg hshield, if_neg hshield]
    refine ⟨target.mana, rfl, ?_, hprimary, hsecondary, by dsimp only; omega⟩
    split_ifs <;> omega

theorem clip_spec (target : CombatTarget) (hsecondary : 0 ≤ damage.secondary) :
    (target.clip damage).primary + (target.clip damage).secondary =
      min target.health (damage.primary + damage.secondary) := by
  rw [clip]
  split_ifs with hall hsome
  · dsimp only
    omega
  · dsimp only
    omega
  · omega

theorem changeHealth_loss {loss : Int} (hloss : 0 ≤ loss) (hle : loss ≤ target.health) :
    target.changeHealth (-loss) = { target with health := target.health - loss } := by
  rw [changeHealth, if_neg (by omega)]
  congr 1
  omega

end Hit

end CombatTarget
end Eloth
