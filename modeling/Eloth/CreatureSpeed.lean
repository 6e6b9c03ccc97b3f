import Eloth.Modifiers

/-!
# The speed of a creature

A speed condition changes the speed of the creature when it starts, when it is added again and when
it ends. Haste ends paralysis and the other way round, at once or when the step of the creature is
over.
-/

namespace Eloth

namespace Condition

/-- What the condition adds to the speed. -/
def speedDelta (c : Condition) : Int32 :=
  match c.data with
  | .speed data => data.speedDelta
  | _ => 0

end Condition

/-- A task that the scheduler runs when the walk delay is over. -/
inductive ForcedCondition where
  | forceAddCondition (condition : Condition)
  | forceRemoveCondition (type : ConditionType)

/-- What a creature knows of its speed. -/
structure CreatureSpeed where
  baseSpeed : UInt32
  varSpeed : Int32
  conditions : List Condition
  scheduled : List ForcedCondition
  /-- What the equipment has added. -/
  equipment : Int32

/-- What the functions ask of the creature; its walk delay depends on its speed. -/
structure WalkSurroundings extends Surroundings where
  walkDelay : CreatureSpeed → Int32
  isSuppress : ConditionType → Bool
  isMonster : Bool

namespace CreatureSpeed

variable (env : WalkSurroundings) (self : CreatureSpeed)

def getSpeed : Int32 := (self.baseSpeed + self.varSpeed.toUInt32).toInt32

/-- `Game::changeSpeed`. -/
def changeSpeed (varSpeedDelta : Int32) : CreatureSpeed :=
  let varSpeed := (self.getSpeed.toUInt32 - self.baseSpeed).toInt32
  { self with varSpeed := varSpeed + varSpeedDelta }

def hasCondition (type : ConditionType) : Bool :=
  !env.isSuppress type && self.conditions.any fun condition =>
    condition.conditionType = type ∧ condition.subId = 0 ∧
      (condition.endTime ≥ env.now ∨ condition.ticks = -1)

/-- The effect of `endCondition` on the speed. -/
def endCondition (condition : Condition) : CreatureSpeed :=
  match condition.data with
  | .speed data => self.changeSpeed (-data.speedDelta)
  | _ => self

/-- The loop of `removeCondition` over the rest of the list, behind the conditions that stay. -/
def removeLoop (type : ConditionType) (p : Condition → Bool) (force : Bool) :
    List Condition → List Condition → CreatureSpeed → CreatureSpeed
  | _, [], self => self
  | kept, condition :: rest, self =>
    if condition.conditionType ≠ type ∨ !p condition then
      removeLoop type p force (kept ++ [condition]) rest self
    else if !force ∧ type = .paralyze ∧ 0 < env.walkDelay self then
      { self with scheduled := self.scheduled ++ [.forceRemoveCondition type] }
    else
      removeLoop type p force kept rest
        ({ self with conditions := kept ++ rest }.endCondition condition)

/-- `Creature::removeCondition` with the type. -/
def removeCondition (type : ConditionType) (force : Bool) : CreatureSpeed :=
  removeLoop env type (fun _ => true) force [] self.conditions self

/-- `Creature::removeCondition` with the type and an id. -/
def removeConditionOf (type : ConditionType) (conditionId : Int8) (force : Bool) : CreatureSpeed :=
  removeLoop env type (fun condition => condition.id = conditionId) force [] self.conditions self

/-- `Creature::removeCondition` with the condition at the place. -/
def removeConditionAt (i : Nat) (force : Bool) : CreatureSpeed :=
  match self.conditions[i]? with
  | none => self
  | some condition =>
    if !force ∧ condition.conditionType = .paralyze ∧ 0 < env.walkDelay self then
      { self with
        scheduled := self.scheduled ++ [.forceRemoveCondition condition.conditionType] }
    else { self with conditions := self.conditions.eraseIdx i }.endCondition condition

/-- `Creature::onAddCondition`, which monsters override. -/
def onAddCondition (type : ConditionType) : CreatureSpeed :=
  if env.isMonster then self
  else if type = .paralyze ∧ self.hasCondition env .haste then
    self.removeCondition env .haste false
  else if type = .haste ∧ self.hasCondition env .paralyze then
    self.removeCondition env .paralyze false
  else self

/-- The condition that has started, and its effect on the speed. -/
def startCondition (condition : Condition) : Option (Condition × CreatureSpeed) :=
  (condition.startCondition env.toSurroundings).map fun started =>
    (started, match started.data with
      | .speed data => self.changeSpeed data.speedDelta
      | _ => self)

/-- `addCondition` of the `i`-th condition and its effect on the speed. -/
def renewCondition (i : Nat) (prevCond condition : Condition) : CreatureSpeed :=
  let renewed := prevCond.addCondition env.toSurroundings condition
  let newSpeedChange := renewed.speedDelta - prevCond.speedDelta
  let self := if newSpeedChange ≠ 0 then self.changeSpeed newSpeedChange else self
  { self with conditions := self.conditions.set i renewed }

/-- `Creature::addCondition`. -/
def addCondition (condition : Condition) (force : Bool) : Bool × CreatureSpeed :=
  if !force ∧ condition.conditionType = .haste ∧ self.hasCondition env .paralyze ∧
      0 < env.walkDelay self then
    (false, { self with scheduled := self.scheduled ++ [.forceAddCondition condition] })
  else
    match self.conditions.zipIdx.find? fun c => c.1.conditionType = condition.conditionType ∧
        c.1.id = condition.id ∧ c.1.subId = condition.subId with
    | some (prevCond, i) => (true, self.renewCondition env i prevCond condition)
    | none =>
      match self.startCondition env condition with
      | none => (false, self)
      | some (started, self) =>
        (true, { self with conditions := self.conditions ++ [started] }.onAddCondition env
          started.conditionType)

/-- The loop of `executeConditions`. -/
def executeLoop (interval : Int32) :
    List Condition → List Condition → CreatureSpeed → CreatureSpeed
  | _, [], self => self
  | kept, condition :: rest, self =>
    let (goesOn, executed) := condition.executeCondition env.toSurroundings interval
    if goesOn then
      executeLoop interval (kept ++ [executed]) rest
        { self with conditions := kept ++ executed :: rest }
    else
      executeLoop interval kept rest
        ({ self with conditions := kept ++ rest }.endCondition executed)

def executeConditions (interval : Int32) : CreatureSpeed :=
  executeLoop env interval [] self.conditions self

/-- The loop of `Player::death`, which ends the persistent conditions. -/
def deathLoop : List Condition → List Condition → CreatureSpeed → CreatureSpeed
  | _, [], self => self
  | kept, condition :: rest, self =>
    if condition.isPersistent then
      deathLoop kept rest ({ self with conditions := kept ++ rest }.endCondition condition)
    else deathLoop (kept ++ [condition]) rest self

def death : CreatureSpeed := deathLoop [] self.conditions self

/-- The `i`-th task of the scheduler is run. -/
def runScheduled (i : Nat) : CreatureSpeed :=
  match self.scheduled[i]? with
  | none => self
  | some task =>
    let self := { self with scheduled := self.scheduled.eraseIdx i }
    match task with
    | .forceAddCondition condition => (self.addCondition env condition true).2
    | .forceRemoveCondition type => self.removeCondition env type true

/-- An item that changes the speed is put on, or taken off with the change negated. -/
def equip (speed : Int32) : CreatureSpeed :=
  if speed ≠ 0 then { self.changeSpeed speed with equipment := self.equipment + speed } else self

/-- A change of the base speed, as for a new level. -/
def updateBaseSpeed (baseSpeed : UInt32) : CreatureSpeed :=
  { self with baseSpeed := baseSpeed }.changeSpeed 0

/-! ## Runs -/

inductive Operation where
  | addCondition (env : WalkSurroundings) (condition : Condition) (force : Bool)
  | removeCondition (env : WalkSurroundings) (type : ConditionType) (force : Bool)
  | removeConditionOf (env : WalkSurroundings) (type : ConditionType) (conditionId : Int8)
      (force : Bool)
  | removeConditionAt (env : WalkSurroundings) (i : Nat) (force : Bool)
  | executeConditions (env : WalkSurroundings) (interval : Int32)
  | runScheduled (env : WalkSurroundings) (i : Nat)
  | death
  | equip (speed : Int32)
  | updateBaseSpeed (baseSpeed : UInt32)

def apply : Operation → CreatureSpeed
  | .addCondition env condition force => (self.addCondition env condition force).2
  | .removeCondition env type force => self.removeCondition env type force
  | .removeConditionOf env type conditionId force =>
    self.removeConditionOf env type conditionId force
  | .removeConditionAt env i force => self.removeConditionAt env i force
  | .executeConditions env interval => self.executeConditions env interval
  | .runScheduled env i => self.runScheduled env i
  | .death => self.death
  | .equip speed => self.equip speed
  | .updateBaseSpeed baseSpeed => self.updateBaseSpeed baseSpeed

/-- A creature without conditions. -/
def system : Run.System CreatureSpeed Operation where
  init self := self.conditions = [] ∧ self.scheduled = [] ∧ self.varSpeed = self.equipment
  step self operation self' := self' = self.apply operation

/-- What the conditions of the list add to the speed. -/
def added (conditions : List Condition) : Int32 :=
  PlayerModifiers.total Condition.speedDelta conditions

/-- The speed is changed by what the equipment and the conditions of the list add. -/
def Balanced (self : CreatureSpeed) (conditions : List Condition) : Prop :=
  self.varSpeed = self.equipment + added conditions

variable {env} {self} {condition : Condition} {kept rest : List Condition} {type : ConditionType}
  {p : Condition → Bool} {force : Bool}

/-! ## Changes of the speed -/

@[simp] theorem varSpeed_changeSpeed (varSpeedDelta : Int32) :
    (self.changeSpeed varSpeedDelta).varSpeed = self.varSpeed + varSpeedDelta := by
  have hvar : (self.getSpeed.toUInt32 - self.baseSpeed).toInt32 = self.varSpeed := by
    unfold getSpeed
    rw [UInt32.toUInt32_toInt32]
    have hsub : self.baseSpeed + self.varSpeed.toUInt32 - self.baseSpeed =
        self.varSpeed.toUInt32 := by grind
    rw [hsub, Int32.toInt32_toUInt32]
  exact congrArg (· + varSpeedDelta) hvar

theorem endCondition_spec (self : CreatureSpeed) (condition : Condition) :
    (self.endCondition condition).varSpeed = self.varSpeed - condition.speedDelta ∧
      (self.endCondition condition).equipment = self.equipment ∧
      (self.endCondition condition).conditions = self.conditions := by
  unfold endCondition Condition.speedDelta
  split
  · refine ⟨?_, rfl, rfl⟩
    rw [varSpeed_changeSpeed]
    grind
  · refine ⟨?_, rfl, rfl⟩
    grind

theorem added_cons : added (condition :: rest) = condition.speedDelta + added rest := rfl

theorem added_middle : added (kept ++ condition :: rest) =
    condition.speedDelta + added (kept ++ rest) := PlayerModifiers.total_perm List.perm_middle

theorem added_append : added (rest ++ [condition]) = condition.speedDelta + added rest :=
  PlayerModifiers.total_append

/-- The end of a condition takes off what it added. -/
theorem Balanced.endCondition (h : self.Balanced (kept ++ condition :: rest)) :
    ({ self with conditions := kept ++ rest }.endCondition condition).Balanced (kept ++ rest) := by
  obtain ⟨hvar, hequipment, -⟩ :=
    endCondition_spec { self with conditions := kept ++ rest } condition
  unfold Balanced at h ⊢
  rw [hvar, hequipment]
  dsimp only
  rw [h, added_middle]
  grind

/-! ## The loops -/

theorem Balanced.removeLoop (h : self.Balanced self.conditions)
    (hlist : self.conditions = kept ++ rest) :
    (removeLoop env type p force kept rest self).Balanced
      (CreatureSpeed.removeLoop env type p force kept rest self).conditions := by
  induction rest generalizing kept self with
  | nil => exact h
  | cons condition rest ih =>
    rw [CreatureSpeed.removeLoop]
    split_ifs
    · exact ih h (by rw [hlist, List.append_assoc]; rfl)
    · exact h
    · rw [hlist] at h
      have hconditions :=
        (endCondition_spec { self with conditions := kept ++ rest } condition).2.2
      refine ih ?_ hconditions
      rw [hconditions]
      exact h.endCondition

theorem speedDelta_baseExecuteCondition {c : Condition} (now : Int) (interval : Int32) :
    (c.baseExecuteCondition now interval).2.speedDelta = c.speedDelta := by
  unfold Condition.baseExecuteCondition
  split_ifs <;> rfl

theorem speedDelta_of_data {c : Condition} {data : ConditionData} (h : c.data = data)
    (hkind : data.kind ≠ .speed) : c.speedDelta = 0 := by
  unfold Condition.speedDelta
  rw [h]
  cases data with
  | speed data => exact absurd rfl hkind
  | _ => rfl

/-- Only the time of a speed condition passes. -/
theorem speedDelta_executeCondition (env : Surroundings) (interval : Int32) :
    (condition.executeCondition env interval).2.speedDelta = condition.speedDelta := by
  have hother : ∀ {c : Condition} {data old : ConditionData}, condition.data = old →
      c.data = data → data.kind = old.kind → old.kind ≠ .speed → ∀ interval,
      (c.baseExecuteCondition env.now interval).2.speedDelta = condition.speedDelta := by
    intro c data old hold hdata hsame hkind interval
    rw [speedDelta_baseExecuteCondition, speedDelta_of_data hold hkind,
      speedDelta_of_data hdata (hsame ▸ hkind)]
  unfold Condition.executeCondition
  cases hdata : condition.data with
  | speed data => exact speedDelta_baseExecuteCondition _ _
  | invisible => exact speedDelta_baseExecuteCondition _ _
  | outfit outfit => exact speedDelta_baseExecuteCondition _ _
  | attributes data => exact speedDelta_baseExecuteCondition _ _
  | drunk drunkenness => exact speedDelta_baseExecuteCondition _ _
  | generic => exact speedDelta_baseExecuteCondition _ _
  | light data => exact hother hdata rfl rfl nofun _
  | regeneration data => exact hother hdata rfl rfl nofun _
  | soul data => exact hother hdata rfl rfl nofun _
  | damage data =>
    dsimp only
    unfold Condition.damageExecuteCondition
    by_cases hperiod : data.periodDamage ≠ 0
    · rw [if_pos hperiod]
      exact hother hdata rfl rfl nofun _
    · rw [if_neg hperiod]
      cases data.damageList with
      | nil => exact hother hdata hdata rfl nofun _
      | cons damageInfo rounds =>
        dsimp only
        split_ifs <;> exact hother hdata rfl rfl nofun _

theorem Balanced.executeLoop {interval : Int32} (h : self.Balanced self.conditions)
    (hlist : self.conditions = kept ++ rest) :
    (executeLoop env interval kept rest self).Balanced
      (CreatureSpeed.executeLoop env interval kept rest self).conditions := by
  induction rest generalizing kept self with
  | nil => exact h
  | cons condition rest ih =>
    have hdelta := @speedDelta_executeCondition condition env.toSurroundings interval
    rw [CreatureSpeed.executeLoop]
    set executed := condition.executeCondition env.toSurroundings interval
    have hexecuted : self.Balanced (kept ++ executed.2 :: rest) := by
      rw [hlist] at h
      unfold Balanced at h ⊢
      rw [h, added_middle, added_middle, hdelta]
    dsimp only
    split_ifs
    · exact ih hexecuted (by rw [List.append_assoc]; rfl)
    · have hconditions :=
        (endCondition_spec { self with conditions := kept ++ rest } executed.2).2.2
      refine ih ?_ hconditions
      rw [hconditions]
      exact hexecuted.endCondition

theorem Balanced.deathLoop (h : self.Balanced self.conditions)
    (hlist : self.conditions = kept ++ rest) :
    (deathLoop kept rest self).Balanced (CreatureSpeed.deathLoop kept rest self).conditions := by
  induction rest generalizing kept self with
  | nil => exact h
  | cons condition rest ih =>
    rw [CreatureSpeed.deathLoop]
    split_ifs
    · rw [hlist] at h
      have hconditions :=
        (endCondition_spec { self with conditions := kept ++ rest } condition).2.2
      refine ih ?_ hconditions
      rw [hconditions]
      exact h.endCondition
    · exact ih h (by rw [hlist, List.append_assoc]; rfl)

/-! ## The operations -/

theorem Balanced.removeConditionAt {i : Nat} (h : self.Balanced self.conditions) :
    (self.removeConditionAt env i force).Balanced
      (self.removeConditionAt env i force).conditions := by
  unfold CreatureSpeed.removeConditionAt
  split
  · exact h
  · next condition hget =>
    split_ifs
    · exact h
    · obtain ⟨hvar, hequipment, hconditions⟩ :=
        endCondition_spec { self with conditions := self.conditions.eraseIdx i } condition
      rw [hconditions]
      unfold Balanced at h ⊢
      rw [hvar, hequipment]
      dsimp only
      rw [h, added, PlayerModifiers.total_eraseIdx hget, added]
      grind

theorem Balanced.removeCondition (h : self.Balanced self.conditions) :
    (self.removeCondition env type force).Balanced
      (self.removeCondition env type force).conditions := h.removeLoop rfl

theorem Balanced.onAddCondition (h : self.Balanced self.conditions) :
    (self.onAddCondition env type).Balanced (self.onAddCondition env type).conditions := by
  unfold CreatureSpeed.onAddCondition
  split_ifs
  · exact h
  · exact h.removeCondition
  · exact h.removeCondition
  · exact h

theorem Balanced.renewCondition {i : Nat} {prevCond : Condition}
    (h : self.Balanced self.conditions) (hget : self.conditions[i]? = some prevCond) :
    (self.renewCondition env i prevCond condition).Balanced
      (self.renewCondition env i prevCond condition).conditions := by
  unfold CreatureSpeed.renewCondition
  dsimp only
  set renewed := prevCond.addCondition env.toSurroundings condition
  have hold : added self.conditions = prevCond.speedDelta + added (self.conditions.eraseIdx i) :=
    PlayerModifiers.total_eraseIdx hget
  have hnew : added (self.conditions.set i renewed) =
      renewed.speedDelta + added (self.conditions.eraseIdx i) :=
    PlayerModifiers.total_set hget renewed
  unfold Balanced at h ⊢
  split_ifs with hchange
  · change (self.changeSpeed _).varSpeed = self.equipment +
      added (self.conditions.set i renewed)
    rw [varSpeed_changeSpeed, h, hnew, hold]
    grind
  · dsimp only
    rw [h, hnew, hold]
    grind

theorem Balanced.addCondition (h : self.Balanced self.conditions) :
    (self.addCondition env condition force).2.Balanced
      (self.addCondition env condition force).2.conditions := by
  unfold CreatureSpeed.addCondition
  split_ifs
  · exact h
  split
  · next prevCond i hfind =>
    have hmem := List.mem_of_find?_eq_some hfind
    exact h.renewCondition (List.mk_mem_zipIdx_iff_getElem?.mp hmem)
  · split
    · exact h
    · next started self' hstart =>
      refine Balanced.onAddCondition ?_
      obtain ⟨started', -, heq⟩ := Option.map_eq_some_iff.mp hstart
      obtain ⟨rfl, rfl⟩ := Prod.mk.inj heq
      have hspec : ∀ self' : CreatureSpeed, self' = (match started'.data with
            | .speed data => self.changeSpeed data.speedDelta
            | _ => self) →
          self'.varSpeed = self.varSpeed + started'.speedDelta ∧
            self'.equipment = self.equipment ∧ self'.conditions = self.conditions := by
        rintro _ rfl
        unfold Condition.speedDelta
        split
        · exact ⟨varSpeed_changeSpeed _, rfl, rfl⟩
        · exact ⟨by grind, rfl, rfl⟩
      obtain ⟨hvar, hequipment, hconditions⟩ := hspec _ rfl
      unfold Balanced at h ⊢
      dsimp only
      rw [hvar, hequipment, hconditions, added_append, h]
      grind

theorem Balanced.runScheduled {i : Nat} (h : self.Balanced self.conditions) :
    (self.runScheduled env i).Balanced (self.runScheduled env i).conditions := by
  unfold CreatureSpeed.runScheduled
  cases self.scheduled[i]? with
  | none => exact h
  | some task =>
    cases task with
    | forceAddCondition condition => exact Balanced.addCondition h
    | forceRemoveCondition type => exact Balanced.removeCondition h

theorem Balanced.equip (h : self.Balanced self.conditions) (speed : Int32) :
    (self.equip speed).Balanced (self.equip speed).conditions := by
  unfold CreatureSpeed.equip
  split_ifs
  · change (self.changeSpeed speed).varSpeed = self.equipment + speed + added self.conditions
    rw [varSpeed_changeSpeed, h]
    grind
  · exact h

theorem Balanced.apply (h : self.Balanced self.conditions) (operation : Operation) :
    (self.apply operation).Balanced (self.apply operation).conditions := by
  cases operation with
  | addCondition env condition force => exact h.addCondition
  | removeCondition env type force => exact h.removeCondition
  | removeConditionOf env type conditionId force => exact h.removeLoop rfl
  | removeConditionAt env i force => exact h.removeConditionAt
  | executeConditions env interval => exact h.executeLoop rfl
  | runScheduled env i => exact h.runScheduled
  | death => exact h.deathLoop rfl
  | equip speed => exact h.equip speed
  | updateBaseSpeed baseSpeed =>
    change (changeSpeed _ 0).varSpeed = self.equipment + added self.conditions
    rw [varSpeed_changeSpeed]
    exact (Int32.add_zero _).trans h

theorem balanced_of_reachable (h : Run.Reachable system self) : self.Balanced self.conditions := by
  refine Run.Reachable.invariant (I := fun self => self.Balanced self.conditions)
    (fun self hinit => ?_) (fun self operation self' hself hstep => ?_) h
  · obtain ⟨hconditions, -, hvar⟩ := hinit
    rw [hconditions]
    exact hvar.trans (Int32.add_zero _).symm
  · rw [hstep]
    exact hself.apply operation

theorem added_eq_zero {conditions : List Condition}
    (h : ∀ condition ∈ conditions, condition.data.kind ≠ .speed) : added conditions = 0 := by
  induction conditions with
  | nil => rfl
  | cons condition conditions ih =>
    rw [added_cons, speedDelta_of_data rfl (h condition List.mem_cons_self),
      ih fun c hc => h c (List.mem_cons_of_mem _ hc)]
    rfl

/-- The speed is the base speed with what the equipment and the active conditions add, and without
a speed condition it is the one that the creature had before. -/
theorem speed_balanced (h : Run.Reachable system self) :
    self.getSpeed = self.baseSpeed.toInt32 + self.equipment + added self.conditions ∧
      ((∀ condition ∈ self.conditions, condition.data.kind ≠ .speed) →
        self.getSpeed = self.baseSpeed.toInt32 + self.equipment) := by
  have hspeed : self.getSpeed =
      self.baseSpeed.toInt32 + self.equipment + added self.conditions := by
    unfold getSpeed
    rw [balanced_of_reachable h, UInt32.toInt32_add, Int32.toInt32_toUInt32]
    exact (Int32.add_assoc _ _ _).symm
  refine ⟨hspeed, fun hnone => ?_⟩
  rw [hspeed, added_eq_zero hnone]
  exact Int32.add_zero _

/-- A creature of speed 220. -/
def walker : CreatureSpeed := ⟨220, 0, [], [], 0⟩

def hasteSpell : Condition where
  id := CONDITIONID_COMBAT
  conditionType := .haste
  ticks := 33000
  endTime := 0
  subId := 0
  isBuff := false
  aggressive := false
  data := .speed { speedDelta := 70 }

def standing : WalkSurroundings where
  now := 0
  isPlayer := true
  protectionZone := false
  initDamage := true
  bRemove := true
  amount := 0
  damages := []
  speedDelta := 0
  skills := fun _ => 0
  stats := fun _ => 0
  walkDelay := fun _ => 0
  isSuppress := fun _ => false
  isMonster := false

theorem speed_balanced_hasteSpell :
    (walker.apply (.addCondition standing hasteSpell false)).getSpeed = 290 := by
  have hinit : Run.Reachable system walker := .init ⟨rfl, rfl, rfl⟩
  have hspeed := (speed_balanced
    (hinit.step' (i := .addCondition standing hasteSpell false) rfl)).1
  rw [hspeed]
  decide

end CreatureSpeed

end Eloth
