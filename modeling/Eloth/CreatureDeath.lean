import Mathlib.Data.Int.Order.Basic
import Mathlib.Tactic.Linarith
import Eloth.Lib.Run

/-!
# Death of a creature

Whatever takes the last health of a creature posts a task that lets it die. Until the task runs, the
callers have to leave the creature alone.
-/

namespace Eloth

/-- What is done to the health of a creature. -/
inductive HealthEffect where
  | changeHealth (healthChange : Int)
  | combatHeal (value : Nat)
  | combatDamage (value : Nat)
  | setVarStats (modifier : Int)

/-- What a condition does when it is executed: its effects, the conditions that it takes off the
creature, whether it goes on, and its effects when it ends. -/
structure ConditionTick where
  effects : List HealthEffect := []
  removed : List Nat := []
  goesOn : Bool := true
  ends : List HealthEffect := []

/-- The numbers of drops to no health and of runs of `onDeath` are kept for the statements only.
The tasks are those of `executeDeath` that the dispatcher has for the creature. -/
structure MortalCreature where
  isPlayer : Bool
  health : Int
  healthMax : Nat
  varStats : Int := 0
  removed : Bool := false
  conditions : List Nat := []
  tasks : Nat := 0
  drops : Nat := 0
  deaths : Nat := 0

namespace MortalCreature

variable (s : MortalCreature)

def getMaxHealth : Int := if s.isPlayer then max 1 (s.healthMax + s.varStats) else s.healthMax

def changeHealth (healthChange : Int) : MortalCreature :=
  let health :=
    if healthChange > 0 then s.health + min healthChange (s.getMaxHealth - s.health)
    else max 0 (s.health + healthChange)
  { s with
    health := health
    tasks := if health ≤ 0 then s.tasks + 1 else s.tasks
    drops := if health ≤ 0 ∧ 0 < s.health then s.drops + 1 else s.drops }

def gainHealth (healthGain : Nat) : MortalCreature := s.changeHealth healthGain

def drainHealth (damage : Nat) : MortalCreature := s.changeHealth (-damage)

/-- `combatChangeHealth` leaves a creature without health alone: it is not healed, and the damage
is no more than the health. -/
def combatChangeHealth (heals : Bool) (value : Nat) : MortalCreature :=
  if heals then if s.health ≤ 0 then s else s.gainHealth value
  else
    let realDamage := min value s.health.toNat
    if realDamage = 0 then s else s.drainHealth realDamage

def setVarStats (modifier : Int) : MortalCreature :=
  let s := { s with varStats := s.varStats + modifier }
  if s.health > s.getMaxHealth then s.changeHealth (s.getMaxHealth - s.health) else s

def apply : HealthEffect → MortalCreature
  | .changeHealth healthChange => s.changeHealth healthChange
  | .combatHeal value => s.combatChangeHealth true value
  | .combatDamage value => s.combatChangeHealth false value
  | .setVarStats modifier => s.setVarStats modifier

def applyAll (effects : List HealthEffect) : MortalCreature := effects.foldl apply s

/-- A condition that does not go on is ended, unless it was taken off meanwhile. -/
def executeCondition (tick : Nat → ConditionTick) (condition : Nat) : MortalCreature :=
  let result := tick condition
  let s := s.applyAll result.effects
  let s := { s with conditions := s.conditions.filter fun c => c ∉ result.removed }
  if !result.goesOn ∧ condition ∈ s.conditions then
    { s with conditions := s.conditions.erase condition }.applyAll result.ends
  else s

/-- The conditions of a copied list are executed if they are still there. -/
def executeConditions (tick : Nat → ConditionTick) (tempConditions : List Nat) : MortalCreature :=
  tempConditions.foldl
    (fun s condition => if condition ∈ s.conditions then s.executeCondition tick condition else s) s

/-- A creature with health thinks and attacks, and then its conditions are executed. -/
def checkCreatures (think : List HealthEffect) (tick : Nat → ConditionTick) : MortalCreature :=
  if s.health > 0 then
    let s := s.applyAll think
    s.executeConditions tick s.conditions
  else s

/-- A player that another player has killed in an arena drops no corpse and stays, and a player is
given health again. -/
def onDeath (arena skillLoss blackSkull : Bool) : MortalCreature :=
  { s with
    health :=
      if s.isPlayer then if skillLoss ∧ blackSkull then 40 else s.healthMax else s.health
    removed := !(s.isPlayer && arena)
    deaths := s.deaths + 1 }

def executeDeath (arena skillLoss blackSkull : Bool) : MortalCreature :=
  if s.tasks = 0 then s
  else
    let s := { s with tasks := s.tasks - 1 }
    if s.removed then s else s.onDeath arena skillLoss blackSkull

/-! ## Runs -/

inductive Op where
  | effect (effect : HealthEffect)
  | addCondition (condition : Nat)
  | checkCreatures (think : List HealthEffect) (tick : Nat → ConditionTick)
  | executeDeath (arena skillLoss blackSkull : Bool)
  | removeCreature

def next : Op → MortalCreature
  | .effect effect => s.apply effect
  | .addCondition condition => { s with conditions := s.conditions ++ [condition] }
  | .checkCreatures think tick => s.checkCreatures think tick
  | .executeDeath arena skillLoss blackSkull => s.executeDeath arena skillLoss blackSkull
  | .removeCreature => { s with removed := true }

/-- A creature that is removed only has its tasks run. -/
def Op.Valid (s : MortalCreature) : Op → Prop
  | .executeDeath _ _ _ => True
  | _ => s.removed = false

def system : Run.System MortalCreature Op where
  init s := ∃ isPlayer health healthMax, 0 < health ∧ 0 < healthMax ∧
    s = { isPlayer := isPlayer, health := health, healthMax := healthMax }
  step s op s' := op.Valid s ∧ s' = s.next op

/-- Each drop to no health is followed by one death: while a creature has no health its death is
the one task, and no task is there for one with health. -/
structure Lawful : Prop where
  nonneg : 0 ≤ s.health
  dying : s.removed = false → s.health = 0 → s.tasks = 1 ∧ s.drops = s.deaths + 1
  living : s.removed = false → 0 < s.health → s.tasks = 0 ∧ s.drops = s.deaths
  removed : s.removed = true → s.drops = s.deaths

/-! ## When a creature is left alone -/

/-- A bare change of health is made to a creature with health. -/
def Careful : HealthEffect → Prop
  | .changeHealth _ => 0 < s.health
  | _ => True

def CarefulAll (s : MortalCreature) : List HealthEffect → Prop
  | [] => True
  | effect :: effects => s.Careful effect ∧ CarefulAll (s.apply effect) effects

def CarefulTick (tick : Nat → ConditionTick) (condition : Nat) : Prop :=
  let result := tick condition
  s.CarefulAll result.effects ∧
    let s := s.applyAll result.effects
    let s := { s with conditions := s.conditions.filter fun c => c ∉ result.removed }
    !result.goesOn ∧ condition ∈ s.conditions →
      CarefulAll { s with conditions := s.conditions.erase condition } result.ends

/-- The same for the conditions of a round. -/
def CarefulTicks (s : MortalCreature) (tick : Nat → ConditionTick) : List Nat → Prop
  | [] => True
  | condition :: tempConditions =>
    if condition ∈ s.conditions then
      s.CarefulTick tick condition ∧
        CarefulTicks (s.executeCondition tick condition) tick tempConditions
    else CarefulTicks s tick tempConditions

def Sound : Op → Prop
  | .effect effect => s.Careful effect
  | .checkCreatures think tick => 0 < s.health →
      s.CarefulAll think ∧ (s.applyAll think).CarefulTicks tick (s.applyAll think).conditions
  | .removeCreature => 0 < s.health
  | _ => True

/-! ## One effect -/

/-- A creature that is there, with what every operation keeps. -/
structure Kept (s : MortalCreature) : Prop extends Lawful s where
  there : s.removed = false
  healthMax_pos : 0 < s.healthMax

variable {s}

theorem Kept.maxHealth_pos (h : Kept s) : 0 < s.getMaxHealth := by
  have hmax := h.healthMax_pos
  rw [getMaxHealth]
  split_ifs
  · exact lt_max_of_lt_left one_pos
  · exact_mod_cast hmax

theorem Kept.of_health (h : Kept s) {s' : MortalCreature} (hhealth : s'.health = s.health)
    (hmax : s'.healthMax = s.healthMax) (hremoved : s'.removed = s.removed)
    (htasks : s'.tasks = s.tasks) (hdrops : s'.drops = s.drops) (hdeaths : s'.deaths = s.deaths) :
    Kept s' := by
  refine ⟨⟨?_, fun hr hzero => ?_, fun hr hpos => ?_, fun hr => ?_⟩, ?_, ?_⟩
  · exact hhealth ▸ h.nonneg
  · rw [htasks, hdrops, hdeaths]
    exact h.dying h.there (hhealth ▸ hzero)
  · rw [htasks, hdrops, hdeaths]
    exact h.living h.there (hhealth ▸ hpos)
  · rw [hremoved, h.there] at hr
    cases hr
  · exact hremoved.trans h.there
  · exact hmax ▸ h.healthMax_pos

/-- The last health takes the creature to its death, and otherwise it stays alive. -/
theorem Kept.changeHealth (h : Kept s) (hpos : 0 < s.health) (healthChange : Int) :
    Kept (s.changeHealth healthChange) := by
  obtain ⟨htasks, hdrops⟩ := h.living h.there hpos
  have hmax := h.maxHealth_pos
  rw [MortalCreature.changeHealth]
  generalize hhealth : (if healthChange > 0 then
    s.health + min healthChange (s.getMaxHealth - s.health)
    else max 0 (s.health + healthChange)) = health
  have hnonneg : 0 ≤ health := by
    rw [← hhealth]
    split_ifs <;> omega
  refine ⟨⟨hnonneg, fun _ hzero => ?_, fun _ hleft => ?_, fun hr => ?_⟩, h.there, h.healthMax_pos⟩
  · have hzero : health = 0 := hzero
    rw [if_pos hzero.le, if_pos ⟨hzero.le, hpos⟩, htasks, hdrops]
    exact ⟨rfl, rfl⟩
  · have hleft : 0 < health := hleft
    rw [if_neg hleft.not_ge, if_neg fun hboth => hleft.not_ge hboth.1]
    exact ⟨htasks, hdrops⟩
  · rw [h.there] at hr
    cases hr

theorem Kept.setVarStats (h : Kept s) (modifier : Int) : Kept (s.setVarStats modifier) := by
  have hvar : Kept { s with varStats := s.varStats + modifier } :=
    h.of_health rfl rfl rfl rfl rfl rfl
  rw [MortalCreature.setVarStats]
  dsimp only
  split_ifs with hmore
  · exact hvar.changeHealth (hvar.maxHealth_pos.trans hmore) _
  · exact hvar

theorem Kept.apply (h : Kept s) {effect : HealthEffect} (hcareful : s.Careful effect) :
    Kept (s.apply effect) := by
  cases effect with
  | changeHealth healthChange => exact h.changeHealth hcareful healthChange
  | combatHeal value =>
    simp only [MortalCreature.apply, combatChangeHealth, if_true]
    split_ifs with hzero
    · exact h
    · exact h.changeHealth (not_le.mp hzero) value
  | combatDamage value =>
    simp only [MortalCreature.apply, combatChangeHealth, Bool.false_eq_true, if_false]
    split_ifs with hnone
    · exact h
    · exact h.changeHealth (by omega) _
  | setVarStats modifier => exact h.setVarStats modifier

/-- A bare change of a creature without health heals it or posts a second death. -/
theorem Kept.careful (h : Kept s) {effect : HealthEffect} (hlawful : Lawful (s.apply effect)) :
    s.Careful effect := by
  cases effect with
  | changeHealth healthChange =>
    refine lt_of_le_of_ne h.nonneg fun hzero => ?_
    obtain ⟨htasks, -⟩ := h.dying h.there hzero.symm
    have hmax := h.maxHealth_pos
    have hremoved : (s.apply (.changeHealth healthChange)).removed = false := h.there
    by_cases hheals : healthChange > 0
    · have hhealth : (s.apply (.changeHealth healthChange)).health =
          s.health + min healthChange (s.getMaxHealth - s.health) := if_pos hheals
      have hliving : 0 < (s.apply (.changeHealth healthChange)).health := by
        rw [hhealth]
        omega
      have hnone := (hlawful.living hremoved hliving).1
      simp only [MortalCreature.apply, MortalCreature.changeHealth, if_pos hheals] at hnone
      rw [if_neg (by omega)] at hnone
      omega
    · have hhealth : (s.apply (.changeHealth healthChange)).health =
          max 0 (s.health + healthChange) := if_neg hheals
      have hdying : (s.apply (.changeHealth healthChange)).health = 0 := by
        rw [hhealth]
        omega
      have hone := (hlawful.dying hremoved hdying).1
      simp only [MortalCreature.apply, MortalCreature.changeHealth, if_neg hheals] at hone
      rw [if_pos (by omega)] at hone
      omega
  | combatHeal | combatDamage | setVarStats => trivial

theorem Kept.health_apply (h : Kept s) {effect : HealthEffect} (hcareful : s.Careful effect)
    (hzero : s.health = 0) : (s.apply effect).health = 0 := by
  cases effect with
  | changeHealth healthChange => exact absurd hzero hcareful.ne'
  | combatHeal value =>
    simp only [MortalCreature.apply, combatChangeHealth, if_true]
    rw [if_pos hzero.le, hzero]
  | combatDamage value =>
    simp only [MortalCreature.apply, combatChangeHealth, Bool.false_eq_true, if_false]
    rw [if_pos (by omega), hzero]
  | setVarStats modifier =>
    have hvar : Kept { s with varStats := s.varStats + modifier } :=
      h.of_health rfl rfl rfl rfl rfl rfl
    have hmax := hvar.maxHealth_pos
    simp only [MortalCreature.apply, MortalCreature.setVarStats]
    rw [if_neg (by omega), hzero]

/-! ## A round -/

theorem Kept.applyAll (h : Kept s) {effects : List HealthEffect}
    (hcareful : s.CarefulAll effects) : Kept (s.applyAll effects) := by
  induction effects generalizing s with
  | nil => exact h
  | cons effect effects ih => exact ih (h.apply hcareful.1) hcareful.2

theorem Kept.executeCondition (h : Kept s) {tick : Nat → ConditionTick} {condition : Nat}
    (hcareful : s.CarefulTick tick condition) : Kept (s.executeCondition tick condition) := by
  have heffects := h.applyAll hcareful.1
  have hlist (conditions : List Nat) :
      Kept { s.applyAll (tick condition).effects with conditions := conditions } :=
    heffects.of_health rfl rfl rfl rfl rfl rfl
  rw [MortalCreature.executeCondition]
  dsimp only
  split_ifs with hend
  · exact (hlist _).applyAll (hcareful.2 hend)
  · exact hlist _

theorem Kept.executeConditions (h : Kept s) {tick : Nat → ConditionTick} {conditions : List Nat}
    (hcareful : s.CarefulTicks tick conditions) : Kept (s.executeConditions tick conditions) := by
  induction conditions generalizing s with
  | nil => exact h
  | cons condition conditions ih =>
    rw [CarefulTicks] at hcareful
    rw [MortalCreature.executeConditions, List.foldl_cons]
    split_ifs at hcareful ⊢
    · exact ih (h.executeCondition hcareful.1) hcareful.2
    · exact ih h hcareful

/-! ## Runs -/

/-- A creature that is removed has died as often as it has lost its health. -/
structure Settled (s : MortalCreature) : Prop where
  nonneg : 0 ≤ s.health
  healthMax_pos : 0 < s.healthMax
  even : s.drops = s.deaths

theorem Kept.executeDeath (h : Kept s) (arena skillLoss blackSkull : Bool) :
    Kept (s.executeDeath arena skillLoss blackSkull) ∨
      (s.executeDeath arena skillLoss blackSkull).removed = true ∧
        Settled (s.executeDeath arena skillLoss blackSkull) := by
  have hmax := h.healthMax_pos
  rw [MortalCreature.executeDeath]
  by_cases htasks : s.tasks = 0
  · rw [if_pos htasks]
    exact .inl h
  · have hzero : s.health = 0 := by
      by_contra hne
      exact htasks (h.living h.there (lt_of_le_of_ne h.nonneg (Ne.symm hne))).1
    obtain ⟨hone, hdrops⟩ := h.dying h.there hzero
    rw [if_neg htasks]
    simp only [h.there, Bool.false_eq_true, if_false, onDeath]
    cases hplayer : s.isPlayer with
    | false =>
      right
      simp only [Bool.false_and, Bool.not_false, Bool.false_eq_true, if_false]
      exact ⟨trivial, h.nonneg, hmax, hdrops⟩
    | true =>
      have hhealth : 0 < if skillLoss = true ∧ blackSkull = true then (40 : Int) else s.healthMax := by
        split_ifs
        · decide
        · exact_mod_cast hmax
      cases arena with
      | false =>
        right
        simp only [Bool.true_and, Bool.not_false, if_true]
        exact ⟨trivial, hhealth.le, hmax, hdrops⟩
      | true =>
        left
        simp only [Bool.true_and, Bool.not_true, if_true]
        refine ⟨⟨hhealth.le, fun _ hdead => absurd hdead hhealth.ne', fun _ _ => ?_,
          fun hr => (nomatch hr)⟩, rfl, hmax⟩
        exact ⟨by simp [hone], hdrops⟩

/-- A creature is there, or it is removed for good. -/
def Sane (s : MortalCreature) : Prop := Kept s ∨ s.removed = true ∧ Settled s

theorem Sane.lawful (h : Sane s) : Lawful s := by
  rcases h with h | ⟨hremoved, h⟩
  · exact h.toLawful
  · exact ⟨h.nonneg, fun hr => by simp [hremoved] at hr, fun hr => by simp [hremoved] at hr,
      fun _ => h.even⟩

theorem Sane.next (h : Sane s) {op : Op} (hvalid : op.Valid s) (hsound : s.Sound op) :
    Sane (s.next op) := by
  rcases h with h | ⟨hremoved, h⟩
  · cases op with
    | effect effect => exact .inl (h.apply hsound)
    | addCondition condition => exact .inl (h.of_health rfl rfl rfl rfl rfl rfl)
    | checkCreatures think tick =>
      left
      simp only [MortalCreature.next, MortalCreature.checkCreatures]
      split_ifs with hpos
      · exact (h.applyAll (hsound hpos).1).executeConditions (hsound hpos).2
      · exact h
    | executeDeath arena skillLoss blackSkull => exact h.executeDeath arena skillLoss blackSkull
    | removeCreature =>
      obtain ⟨-, hdrops⟩ := h.living h.there hsound
      exact .inr ⟨rfl, h.nonneg, h.healthMax_pos, hdrops⟩
  · cases op with
    | executeDeath arena skillLoss blackSkull =>
      right
      simp only [MortalCreature.next, MortalCreature.executeDeath, hremoved, if_true]
      split_ifs
      · exact ⟨hremoved, h⟩
      · exact ⟨rfl, h.nonneg, h.healthMax_pos, h.even⟩
    | effect | addCondition | checkCreatures | removeCreature =>
      exact absurd hvalid (by simp [Op.Valid, hremoved])

theorem sane_of_reachableBy (h : Run.ReachableBy system Sound s) : Sane s := by
  refine h.invariant ?_ ?_
  · rintro s ⟨isPlayer, health, healthMax, hhealth, hmax, rfl⟩
    exact .inl ⟨⟨hhealth.le, fun _ hzero => absurd hzero hhealth.ne', fun _ _ => ⟨rfl, rfl⟩,
      fun hr => (nomatch hr)⟩, rfl, hmax⟩
  · rintro s op s' hsane hsound ⟨hvalid, rfl⟩
    exact hsane.next hvalid hsound

/-- A creature that has no health keeps none until it dies. -/
theorem Kept.stays (h : Kept s) (hzero : s.health = 0) {op : Op} (hsound : s.Sound op)
    (hdeaths : (s.next op).deaths = s.deaths) : (s.next op).health = 0 := by
  cases op with
  | effect effect => exact h.health_apply hsound hzero
  | addCondition condition => exact hzero
  | checkCreatures think tick =>
    simp only [MortalCreature.next, MortalCreature.checkCreatures]
    rw [if_neg (by omega), hzero]
  | executeDeath arena skillLoss blackSkull =>
    obtain ⟨hone, -⟩ := h.dying h.there hzero
    simp [MortalCreature.next, MortalCreature.executeDeath, hone, h.there, onDeath] at hdeaths
  | removeCreature => exact hzero

/-- Each drop to no health is followed by one death, before which the creature has no health, as
long as the health of a creature without any is not changed by a bare `changeHealth` and no such
creature is taken away. -/
theorem deaths_lawful (h : Run.ReachableBy system Sound s) :
    Lawful s ∧
    (s.removed = false → s.health = 0 → ∀ op, s.Sound op →
      (s.next op).deaths = s.deaths → (s.next op).health = 0) ∧
    (∀ arena skillLoss blackSkull,
      (s.executeDeath arena skillLoss blackSkull).deaths ≠ s.deaths → s.health = 0) ∧
    (s.removed = false → ∀ effect, Lawful (s.apply effect) ↔ s.Careful effect) := by
  have hsane := sane_of_reachableBy h
  have hkept (hthere : s.removed = false) : Kept s :=
    hsane.resolve_right fun hremoved => by simp [hthere] at hremoved
  refine ⟨hsane.lawful, fun hthere hzero op hsound hdeaths => ?_,
    fun arena skillLoss blackSkull hdied => ?_, fun hthere effect => ⟨fun hlawful => ?_, fun hc => ?_⟩⟩
  · exact (hkept hthere).stays hzero hsound hdeaths
  · by_contra hne
    have hpos : 0 < s.health := lt_of_le_of_ne hsane.lawful.nonneg (Ne.symm hne)
    refine hdied ?_
    rw [executeDeath]
    cases hremoved : s.removed with
    | false => rw [if_pos (hsane.lawful.living hremoved hpos).1]
    | true => split_ifs <;> rfl
  · exact (hkept hthere).careful hlawful
  · exact ((hkept hthere).apply hc).toLawful

/-! A player is poisoned and regenerates, in this order and in the other. -/

def ticks : Nat → ConditionTick
  | 1 => { effects := [.combatDamage 5] }
  | _ => { effects := [.changeHealth 10] }

def injured : MortalCreature :=
  { isPlayer := true, health := 5, healthMax := 100 }

theorem reachableBy_next (h : Run.ReachableBy system Sound s) (op : Op) (hvalid : op.Valid s)
    (hsound : s.Sound op) : Run.ReachableBy system Sound (s.next op) :=
  h.step hsound ⟨hvalid, rfl⟩

theorem reachableBy_injured (condition condition' : Nat) :
    Run.ReachableBy system Sound { injured with conditions := [condition, condition'] } := by
  have hinit : Run.ReachableBy system Sound injured :=
    .init ⟨true, 5, 100, by decide, by decide, rfl⟩
  have hfirst := reachableBy_next hinit (.addCondition condition) rfl trivial
  exact reachableBy_next hfirst (.addCondition condition') rfl trivial

theorem deaths_lawful_injured :
    Lawful (({ injured with conditions := [2, 1] } : MortalCreature).next
      (.checkCreatures [.combatDamage 2] ticks)) := by
  have hleft : (0 : Int) < 3 := by decide
  have hround : Sound { injured with conditions := [2, 1] }
      (.checkCreatures [.combatDamage 2] ticks) := fun _ =>
    ⟨⟨trivial, trivial⟩, ⟨⟨⟨hleft, trivial⟩, fun h => by simp [ticks] at h⟩,
      ⟨⟨trivial, trivial⟩, fun h => by simp [ticks] at h⟩, trivial⟩⟩
  have hreachable := reachableBy_next (reachableBy_injured 2 1)
    (.checkCreatures [.combatDamage 2] ticks) rfl hround
  exact (deaths_lawful hreachable).1

/-- The poison takes the last health, and the regeneration gives some back before the death. -/
theorem exists_healed_dead : ∃ s, Run.Reachable system s ∧ ¬ Lawful s := by
  refine ⟨_, (reachableBy_injured 1 2).reachable.step' (i := .checkCreatures [] ticks)
    ⟨rfl, rfl⟩, fun h => ?_⟩
  have hliving := (h.living rfl (by decide)).1
  revert hliving
  decide

end MortalCreature

end Eloth
