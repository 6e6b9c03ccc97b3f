import Mathlib.Data.List.Perm.Basic
import Mathlib.Logic.Function.Basic
import Eloth.Condition
import Eloth.Lib.Run

/-!
# Attribute conditions on a player

An attribute condition adds its values to the modifiers of the player when it starts and takes them
off when it ends. A condition that is added again ends and is applied anew in its place.
-/

namespace Eloth

/-- The values that an item or an attribute condition adds. -/
structure Modifiers where
  skills : Fin 7 → Int32 := fun _ => 0
  specialSkills : Fin 6 → Int32 := fun _ => 0
  stats : Fin 4 → Int32 := fun _ => 0

def Modifiers.neg (m : Modifiers) : Modifiers :=
  { skills := fun i => -m.skills i, specialSkills := fun i => -m.specialSkills i
    stats := fun i => -m.stats i }

def Modifiers.add (m m' : Modifiers) : Modifiers :=
  { skills := fun i => m.skills i + m'.skills i
    specialSkills := fun i => m.specialSkills i + m'.specialSkills i
    stats := fun i => m.stats i + m'.stats i }

namespace Condition

def attributes (c : Condition) : ConditionAttributes :=
  match c.data with
  | .attributes data => data
  | _ => {}

def modifiers (c : Condition) : Modifiers :=
  { skills := c.attributes.skills, specialSkills := c.attributes.specialSkills
    stats := c.attributes.stats }

def IsAttributes (c : Condition) : Prop :=
  c.conditionType = .attributes ∧ ∃ data, c.data = .attributes data

end Condition

/-- The player's values that attribute conditions work on, what the equipment has added to them, and
the attribute conditions that are active. -/
structure PlayerModifiers where
  healthMax : Int32
  health : Int32
  manaMax : Int32
  mana : Int32
  hasInfiniteMana : Bool
  varSkills : Fin 7 → Int32
  varSpecialSkills : Fin 6 → Int32
  varStats : Fin 4 → Int32
  canUseDefense : Bool
  equipment : Modifiers
  conditions : List Condition

namespace PlayerModifiers

variable (p : PlayerModifiers)

def getMaxHealth : Int32 := max 1 (p.healthMax + p.varStats STAT_MAXHITPOINTS)

def getMaxMana : Int32 := max 0 (p.manaMax + p.varStats STAT_MAXMANAPOINTS)

def changeHealth (healthChange : Int32) : PlayerModifiers :=
  { p with
    health :=
      if 0 < healthChange then p.health + min healthChange (p.getMaxHealth - p.health)
      else max 0 (p.health + healthChange) }

def changeMana (manaChange : Int32) : PlayerModifiers :=
  { p with
    mana :=
      if p.hasInfiniteMana then p.mana
      else if 0 < manaChange then p.mana + min manaChange (p.getMaxMana - p.mana)
      else max 0 (p.mana + manaChange) }

def setVarStats (stat : Fin 4) (modifier : Int32) : PlayerModifiers :=
  let p := { p with varStats := Function.update p.varStats stat (p.varStats stat + modifier) }
  if stat = STAT_MAXHITPOINTS then
    if p.getMaxHealth < p.health then p.changeHealth (p.getMaxHealth - p.health) else p
  else if stat = STAT_MAXMANAPOINTS then
    if p.getMaxMana < p.mana then p.changeMana (p.getMaxMana - p.mana) else p
  else p

/-- `updateSkills`: the skills and the special skills. -/
def updateSkills (m : Modifiers) : PlayerModifiers :=
  { p with
    varSkills := fun i => p.varSkills i + m.skills i
    varSpecialSkills := fun i => p.varSpecialSkills i + m.specialSkills i }

def updateStats (m : Modifiers) : PlayerModifiers :=
  (List.finRange 4).foldl
    (fun p stat => if m.stats stat ≠ 0 then p.setVarStats stat (m.stats stat) else p) p

def update (m : Modifiers) : PlayerModifiers := (p.updateSkills m).updateStats m

def setUseDefense (useDefense : Bool) : PlayerModifiers := { p with canUseDefense := useDefense }

/-- `ConditionAttributes::startCondition`, which always succeeds, and the addition to the list. -/
def startCondition (env : Surroundings) (condition : Condition) : PlayerModifiers :=
  match condition.startCondition env with
  | some started =>
    let p := (p.setUseDefense (!started.attributes.disableDefense)).update started.modifiers
    { p with conditions := p.conditions ++ [started] }
  | none => p

def endCondition (condition : Condition) : PlayerModifiers :=
  let p := p.update condition.modifiers.neg
  if condition.attributes.disableDefense then p.setUseDefense true else p

/-- `getCondition` with the type, the id and the sub id of a condition: its place in the list. -/
def findCondition (condition : Condition) : Option Nat :=
  p.conditions.findIdx? fun c => c.conditionType = condition.conditionType ∧ c.id = condition.id ∧
    c.subId = condition.subId

/-- `ConditionAttributes::addCondition` of the `i`-th condition. The flag of the new condition is
taken over, but not told to the creature. -/
def renewCondition (env : Surroundings) (i : Nat) (prevCond condition : Condition) :
    PlayerModifiers :=
  if prevCond.updateCondition env.now condition then
    let renewed := prevCond.addCondition env condition
    let p := (p.endCondition prevCond).update renewed.modifiers
    { p with conditions := p.conditions.set i renewed }
  else p

/-- `Creature::addCondition`. -/
def addCondition (env : Surroundings) (condition : Condition) : PlayerModifiers :=
  match p.findCondition condition with
  | some i =>
    match p.conditions[i]? with
    | some prevCond => p.renewCondition env i prevCond condition
    | none => p
  | none => p.startCondition env condition

/-- The condition is taken off the list and ended. -/
def removeCondition (i : Nat) (condition : Condition) : PlayerModifiers :=
  { p with conditions := p.conditions.eraseIdx i }.endCondition condition

/-- The turn of the `i`-th condition in `executeConditions`. -/
def executeCondition (env : Surroundings) (interval : Int32) (i : Nat) (condition : Condition) :
    PlayerModifiers :=
  let (goesOn, executed) := condition.executeCondition env interval
  if goesOn then { p with conditions := p.conditions.set i executed }
  else p.removeCondition i executed

/-- An item is put on, or taken off with its modifiers negated. -/
def equip (m : Modifiers) : PlayerModifiers :=
  let p := p.update m
  { p with equipment := p.equipment.add m }

/-! ## Runs -/

inductive Event where
  | add (env : Surroundings) (condition : Condition)
  | remove (i : Nat)
  | execute (env : Surroundings) (interval : Int32) (i : Nat)
  | equip (m : Modifiers)

inductive Step : PlayerModifiers → Event → PlayerModifiers → Prop
  | add {p : PlayerModifiers} {env : Surroundings} {condition : Condition}
      (hattributes : condition.IsAttributes) (hplayer : env.isPlayer = true) :
      Step p (.add env condition) (p.addCondition env condition)
  | remove {p : PlayerModifiers} {i : Nat} {condition : Condition}
      (hget : p.conditions[i]? = some condition) :
      Step p (.remove i) (p.removeCondition i condition)
  | execute {p : PlayerModifiers} {env : Surroundings} {interval : Int32} {i : Nat}
      {condition : Condition} (hget : p.conditions[i]? = some condition) :
      Step p (.execute env interval i) (p.executeCondition env interval i condition)
  | equip {p : PlayerModifiers} {m : Modifiers} : Step p (.equip m) (p.equip m)

/-- A player comes with the modifiers of its equipment and without attribute conditions. -/
def system : Run.System PlayerModifiers Event where
  init p := p.conditions = [] ∧ p.canUseDefense = true ∧ p.varSkills = p.equipment.skills ∧
    p.varSpecialSkills = p.equipment.specialSkills ∧ p.varStats = p.equipment.stats
  step := Step

def total (value : Condition → Int32) (conditions : List Condition) : Int32 :=
  conditions.foldr (fun c sum => value c + sum) 0

/-- Every modifier is what the equipment and the active conditions add. -/
structure Summed : Prop where
  skills : ∀ i, p.varSkills i =
    p.equipment.skills i + total (fun c => c.modifiers.skills i) p.conditions
  specialSkills : ∀ i, p.varSpecialSkills i =
    p.equipment.specialSkills i + total (fun c => c.modifiers.specialSkills i) p.conditions
  stats : ∀ i, p.varStats i =
    p.equipment.stats i + total (fun c => c.modifiers.stats i) p.conditions

/-- No condition of the list disables the defence. -/
def Undisabled (conditions : List Condition) : Prop :=
  ∀ c ∈ conditions, c.attributes.disableDefense = false

instance (conditions : List Condition) : Decidable (Undisabled conditions) :=
  inferInstanceAs (Decidable (∀ c ∈ conditions, c.attributes.disableDefense = false))

/-- The player can use the defence exactly when no active condition disables it. -/
def Defended : Prop := p.canUseDefense = true ↔ Undisabled p.conditions

/-- The time of the condition is over. -/
def expired (env : Surroundings) (condition : Condition) : Prop :=
  condition.ticks ≠ -1 ∧ condition.endTime < env.now

/-- The end of a condition that disables the defence leaves no other one that does. -/
def EndsClear (i : Nat) (condition : Condition) : Prop :=
  condition.attributes.disableDefense = true → Undisabled (p.conditions.eraseIdx i)

/-- The step does not meet two conditions of which one disables the defence, and a condition that is
added again does not turn to disabling it. -/
def Clear : PlayerModifiers → Event → Prop
  | p, .add env condition =>
    match p.findCondition condition with
    | none => condition.attributes.disableDefense = true ∨ Undisabled p.conditions
    | some i => ∀ prevCond, p.conditions[i]? = some prevCond →
      prevCond.updateCondition env.now condition = true →
        if prevCond.attributes.disableDefense = true then
          condition.attributes.disableDefense = false ∧ Undisabled (p.conditions.eraseIdx i)
        else
          condition.attributes.disableDefense = false ∨ ¬ Undisabled (p.conditions.eraseIdx i)
  | p, .remove i => ∀ condition, p.conditions[i]? = some condition → p.EndsClear i condition
  | p, .execute env _ i => ∀ condition, p.conditions[i]? = some condition →
    expired env condition → p.EndsClear i condition
  | _, .equip _ => True

variable {p} {env : Surroundings} {c condition prevCond : Condition} {m : Modifiers}
  {conditions : List Condition} {value : Condition → Int32} {i : Nat}

/-! ## What the functions of a condition keep -/

theorem attributes_of_data {data : ConditionAttributes} (h : c.data = .attributes data) :
    c.attributes = data := by
  rw [Condition.attributes, h]

theorem startCondition_spec (h : condition.IsAttributes) (env : Surroundings) :
    ∃ started, condition.startCondition env = some started ∧ started.IsAttributes ∧
      started.attributes.disableDefense = condition.attributes.disableDefense := by
  obtain ⟨htype, data, hdata⟩ := h
  have hbase : (condition.baseStartCondition env.now).data = .attributes data ∧
      (condition.baseStartCondition env.now).conditionType = .attributes := by
    unfold Condition.baseStartCondition
    split <;> exact ⟨hdata, htype⟩
  refine ⟨{ condition.baseStartCondition env.now with
    data := .attributes (Condition.updatePercent env data) }, ?_, ⟨hbase.2, _, rfl⟩, ?_⟩
  · rw [Condition.startCondition, hbase.1]
  · rw [attributes_of_data rfl, attributes_of_data hdata, Condition.updatePercent]
    split <;> rfl

theorem addCondition_spec (hprev : prevCond.IsAttributes) (h : condition.IsAttributes)
    (hupdate : prevCond.updateCondition env.now condition = true) :
    (prevCond.addCondition env condition).IsAttributes ∧
    (prevCond.addCondition env condition).attributes.disableDefense =
      condition.attributes.disableDefense := by
  obtain ⟨htype, data, hdata⟩ := hprev
  obtain ⟨-, other, hother⟩ := h
  have hadd : ∃ taken, (prevCond.addCondition env condition) =
      { prevCond.setTicks env.now condition.ticks with
        data := .attributes (Condition.updatePercent env taken) } ∧
      taken.disableDefense = other.disableDefense := by
    refine ⟨{ data with
      skills := other.skills, specialSkills := other.specialSkills
      skillsPercent := other.skillsPercent, stats := other.stats
      statsPercent := other.statsPercent, disableDefense := other.disableDefense }, ?_, rfl⟩
    simp only [Condition.addCondition, hdata, hother, hupdate, if_true]
  obtain ⟨taken, hadd, hdisable⟩ := hadd
  rw [hadd, attributes_of_data rfl, attributes_of_data hother, ← hdisable]
  refine ⟨⟨htype, _, rfl⟩, ?_⟩
  unfold Condition.updatePercent
  split <;> rfl

theorem executeCondition_spec (h : condition.IsAttributes) (interval : Int32) :
    (condition.executeCondition env interval).2.IsAttributes ∧
    (condition.executeCondition env interval).2.attributes = condition.attributes ∧
    ((condition.executeCondition env interval).1 = false ↔ expired env condition) := by
  obtain ⟨htype, data, hdata⟩ := h
  have hbase : condition.executeCondition env interval =
      condition.baseExecuteCondition env.now interval := by
    rw [Condition.executeCondition, hdata]
  rw [hbase, Condition.baseExecuteCondition, expired]
  split_ifs with hticks
  · exact ⟨⟨htype, data, hdata⟩, rfl, by simp [hticks]⟩
  · refine ⟨⟨htype, data, hdata⟩, ?_, by simp [hticks]⟩
    rw [attributes_of_data hdata]
    exact attributes_of_data hdata

/-! ## Sums over the conditions -/

theorem total_perm {conditions' : List Condition} (h : conditions.Perm conditions') :
    total value conditions = total value conditions' := by
  induction h with
  | nil => rfl
  | cons c _ ih => exact congrArg (value c + ·) ih
  | swap c d l =>
    change value d + (value c + total value l) = value c + (value d + total value l)
    grind
  | trans _ _ ih ih' => exact ih.trans ih'

theorem total_append : total value (conditions ++ [c]) = value c + total value conditions :=
  total_perm (List.perm_append_singleton c conditions)

theorem total_eraseIdx (hget : conditions[i]? = some c) :
    total value conditions = value c + total value (conditions.eraseIdx i) := by
  obtain ⟨hlt, rfl⟩ := List.getElem?_eq_some_iff.mp hget
  exact (total_perm (List.getElem_cons_eraseIdx_perm hlt)).symm

theorem total_set (hget : conditions[i]? = some c) (condition : Condition) :
    total value (conditions.set i condition) =
      value condition + total value (conditions.eraseIdx i) := by
  obtain ⟨hlt, rfl⟩ := List.getElem?_eq_some_iff.mp hget
  exact total_perm (List.set_perm_cons_eraseIdx hlt condition)

theorem undisabled_cons : Undisabled (c :: conditions) ↔
    c.attributes.disableDefense = false ∧ Undisabled conditions := List.forall_mem_cons

theorem undisabled_perm {conditions' : List Condition} (h : conditions.Perm conditions') :
    Undisabled conditions ↔ Undisabled conditions' :=
  ⟨fun hall d hd => hall d (h.mem_iff.mpr hd), fun hall d hd => hall d (h.mem_iff.mp hd)⟩

theorem undisabled_eraseIdx (hget : conditions[i]? = some c) : Undisabled conditions ↔
    c.attributes.disableDefense = false ∧ Undisabled (conditions.eraseIdx i) := by
  obtain ⟨hlt, rfl⟩ := List.getElem?_eq_some_iff.mp hget
  rw [← undisabled_cons]
  exact undisabled_perm (List.getElem_cons_eraseIdx_perm hlt).symm

theorem undisabled_set (hget : conditions[i]? = some c) (condition : Condition) :
    Undisabled (conditions.set i condition) ↔
      condition.attributes.disableDefense = false ∧ Undisabled (conditions.eraseIdx i) := by
  obtain ⟨hlt, rfl⟩ := List.getElem?_eq_some_iff.mp hget
  rw [← undisabled_cons]
  exact undisabled_perm (List.set_perm_cons_eraseIdx hlt condition)

/-! ## What an update changes -/

/-- The values of the second state are those of the first one with the modifiers added. -/
structure Updated (p p' : PlayerModifiers) (m : Modifiers) : Prop where
  skills : ∀ i, p'.varSkills i = p.varSkills i + m.skills i
  specialSkills : ∀ i, p'.varSpecialSkills i = p.varSpecialSkills i + m.specialSkills i
  stats : ∀ i, p'.varStats i = p.varStats i + m.stats i
  equipment : p'.equipment = p.equipment

theorem setVarStats_frame (stat : Fin 4) (modifier : Int32) : ∃ health mana,
    p.setVarStats stat modifier = { p with
      health := health, mana := mana
      varStats := Function.update p.varStats stat (p.varStats stat + modifier) } := by
  unfold setVarStats
  dsimp only
  split_ifs
  · exact ⟨_, p.mana, rfl⟩
  · exact ⟨p.health, p.mana, rfl⟩
  · exact ⟨p.health, _, rfl⟩
  · exact ⟨p.health, p.mana, rfl⟩
  · exact ⟨p.health, p.mana, rfl⟩

/-- The loop over some of the stats. -/
theorem foldl_setVarStats (m : Modifiers) (l : List (Fin 4)) (hnodup : l.Nodup)
    (p : PlayerModifiers) : ∃ health mana,
    l.foldl (fun p stat => if m.stats stat ≠ 0 then p.setVarStats stat (m.stats stat) else p) p =
      { p with
        health := health, mana := mana
        varStats := fun i => p.varStats i + if i ∈ l then m.stats i else 0 } := by
  induction l generalizing p with
  | nil => exact ⟨p.health, p.mana, by simp⟩
  | cons stat rest ih =>
    obtain ⟨hnot, hnodup⟩ := List.nodup_cons.mp hnodup
    rw [List.foldl_cons]
    split_ifs with hstat
    · obtain ⟨health, mana, hset⟩ := setVarStats_frame (p := p) stat (m.stats stat)
      obtain ⟨health', mana', hrest⟩ := ih hnodup (p.setVarStats stat (m.stats stat))
      refine ⟨health', mana', ?_⟩
      rw [hrest, hset]
      congr 1
      funext i
      by_cases hi : i = stat
      · subst hi
        simp [hnot]
      · simp [hi]
    · obtain ⟨health, mana, hrest⟩ := ih hnodup p
      refine ⟨health, mana, ?_⟩
      rw [hrest]
      congr 1
      funext i
      by_cases hi : i = stat
      · subst hi
        simp [hnot, not_not.mp hstat]
      · simp [hi]

theorem update_spec (p : PlayerModifiers) (m : Modifiers) : Updated p (p.update m) m ∧
    (p.update m).canUseDefense = p.canUseDefense ∧ (p.update m).conditions = p.conditions := by
  obtain ⟨health, mana, hstats⟩ :=
    foldl_setVarStats m (List.finRange 4) (List.nodup_finRange 4) (p.updateSkills m)
  rw [update, updateStats, hstats]
  refine ⟨⟨fun i => rfl, fun i => rfl, fun i => ?_, rfl⟩, rfl, rfl⟩
  simp [updateSkills]

theorem endCondition_spec (p : PlayerModifiers) (c : Condition) :
    Updated p (p.endCondition c) c.modifiers.neg ∧
    (p.endCondition c).canUseDefense = (c.attributes.disableDefense || p.canUseDefense) ∧
    (p.endCondition c).conditions = p.conditions := by
  obtain ⟨⟨hskills, hspecial, hstats, hequipment⟩, huse, hconditions⟩ :=
    update_spec p c.modifiers.neg
  unfold endCondition
  dsimp only
  split_ifs with hdisable
  · exact ⟨⟨hskills, hspecial, hstats, hequipment⟩, by simp [hdisable, setUseDefense], hconditions⟩
  · exact ⟨⟨hskills, hspecial, hstats, hequipment⟩, by simp [hdisable, huse], hconditions⟩

theorem Updated.trans {q r : PlayerModifiers} {m' : Modifiers} (h : Updated p q m)
    (h' : Updated q r m') : Updated p r (m.add m') := by
  refine ⟨fun i => ?_, fun i => ?_, fun i => ?_, h'.equipment.trans h.equipment⟩
  · rw [h'.skills i, h.skills i]
    exact Int32.add_assoc _ _ _
  · rw [h'.specialSkills i, h.specialSkills i]
    exact Int32.add_assoc _ _ _
  · rw [h'.stats i, h.stats i]
    exact Int32.add_assoc _ _ _

/-! ## The sums -/

/-- The projections of modifiers. -/
structure Additive (value : Modifiers → Int32) : Prop where
  zero : value {} = 0
  neg : ∀ m, value m.neg = -value m
  add : ∀ m m', value (m.add m') = value m + value m'

/-- The values and the conditions change by the same modifiers. -/
theorem Summed.of_updated {p' : PlayerModifiers} (h : p.Summed) (hupdated : Updated p p' m)
    (htotal : ∀ value, Additive value →
      total (fun c => value c.modifiers) p'.conditions =
        total (fun c => value c.modifiers) p.conditions + value m) : p'.Summed := by
  refine ⟨fun i => ?_, fun i => ?_, fun i => ?_⟩
  · rw [hupdated.skills i, hupdated.equipment, h.skills i,
      htotal (fun m => m.skills i) ⟨rfl, fun _ => rfl, fun _ _ => rfl⟩]
    exact Int32.add_assoc _ _ _
  · rw [hupdated.specialSkills i, hupdated.equipment, h.specialSkills i,
      htotal (fun m => m.specialSkills i) ⟨rfl, fun _ => rfl, fun _ _ => rfl⟩]
    exact Int32.add_assoc _ _ _
  · rw [hupdated.stats i, hupdated.equipment, h.stats i,
      htotal (fun m => m.stats i) ⟨rfl, fun _ => rfl, fun _ _ => rfl⟩]
    exact Int32.add_assoc _ _ _

theorem Summed.equip (h : p.Summed) (m : Modifiers) : (p.equip m).Summed := by
  obtain ⟨hupdated, -, hconditions⟩ := update_spec p m
  refine ⟨fun i => ?_, fun i => ?_, fun i => ?_⟩
  · change (p.update m).varSkills i = ((p.update m).equipment.add m).skills i +
      total (fun c => c.modifiers.skills i) (p.update m).conditions
    rw [hupdated.skills i, h.skills i, hupdated.equipment, hconditions, Modifiers.add]
    grind
  · change (p.update m).varSpecialSkills i = ((p.update m).equipment.add m).specialSkills i +
      total (fun c => c.modifiers.specialSkills i) (p.update m).conditions
    rw [hupdated.specialSkills i, h.specialSkills i, hupdated.equipment, hconditions, Modifiers.add]
    grind
  · change (p.update m).varStats i = ((p.update m).equipment.add m).stats i +
      total (fun c => c.modifiers.stats i) (p.update m).conditions
    rw [hupdated.stats i, h.stats i, hupdated.equipment, hconditions, Modifiers.add]
    grind

theorem removeCondition_spec (i : Nat) (condition : Condition) :
    Updated p (p.removeCondition i condition) condition.modifiers.neg ∧
    (p.removeCondition i condition).canUseDefense =
      (condition.attributes.disableDefense || p.canUseDefense) ∧
    (p.removeCondition i condition).conditions = p.conditions.eraseIdx i := by
  obtain ⟨⟨hskills, hspecial, hstats, hequipment⟩, huse, hconditions⟩ :=
    endCondition_spec { p with conditions := p.conditions.eraseIdx i } condition
  exact ⟨⟨hskills, hspecial, hstats, hequipment⟩, huse, hconditions⟩

theorem Summed.removeCondition (h : p.Summed) (hget : p.conditions[i]? = some c)
    (hsame : condition.modifiers = c.modifiers) : (p.removeCondition i condition).Summed := by
  obtain ⟨hupdated, -, hconditions⟩ := removeCondition_spec (p := p) i condition
  refine h.of_updated hupdated fun value hvalue => ?_
  rw [hconditions, total_eraseIdx hget, hvalue.neg, hsame]
  grind

theorem renewCondition_spec (hupdate : prevCond.updateCondition env.now condition = true) (i : Nat) :
    Updated p (p.renewCondition env i prevCond condition)
      (prevCond.modifiers.neg.add (prevCond.addCondition env condition).modifiers) ∧
    (p.renewCondition env i prevCond condition).canUseDefense =
      (prevCond.attributes.disableDefense || p.canUseDefense) ∧
    (p.renewCondition env i prevCond condition).conditions =
      p.conditions.set i (prevCond.addCondition env condition) := by
  obtain ⟨hended, huse, hconditions⟩ := endCondition_spec p prevCond
  obtain ⟨hrenewed, huse', hconditions'⟩ := update_spec (p.endCondition prevCond)
    (prevCond.addCondition env condition).modifiers
  rw [renewCondition, if_pos hupdate]
  obtain ⟨hskills, hspecial, hstats, hequipment⟩ := hended.trans hrenewed
  exact ⟨⟨hskills, hspecial, hstats, hequipment⟩, huse'.trans huse,
    congrArg (List.set · i _) (hconditions'.trans hconditions)⟩

theorem startCondition_player_spec {started : Condition}
    (hstart : condition.startCondition env = some started) :
    Updated p (p.startCondition env condition) started.modifiers ∧
    (p.startCondition env condition).canUseDefense = !started.attributes.disableDefense ∧
    (p.startCondition env condition).conditions = p.conditions ++ [started] := by
  obtain ⟨⟨hskills, hspecial, hstats, hequipment⟩, huse, hconditions⟩ :=
    update_spec (p.setUseDefense (!started.attributes.disableDefense)) started.modifiers
  rw [PlayerModifiers.startCondition, hstart]
  exact ⟨⟨hskills, hspecial, hstats, hequipment⟩, huse, congrArg (· ++ _) hconditions⟩

/-! ## One step -/

/-- All conditions of the list are attribute conditions. -/
def AllAttributes (conditions : List Condition) : Prop := ∀ c ∈ conditions, c.IsAttributes

theorem AllAttributes.set (h : AllAttributes conditions) (hc : c.IsAttributes) (i : Nat) :
    AllAttributes (conditions.set i c) := fun d hd =>
  (List.mem_or_eq_of_mem_set hd).elim (h d) fun heq => heq ▸ hc

theorem AllAttributes.eraseIdx (h : AllAttributes conditions) (i : Nat) :
    AllAttributes (conditions.eraseIdx i) := fun d hd => h d (List.mem_of_mem_eraseIdx hd)

theorem AllAttributes.get (h : AllAttributes conditions) (hget : conditions[i]? = some c) :
    c.IsAttributes := h c (List.mem_of_getElem? hget)

theorem kept_remove (h : p.Summed) (hall : AllAttributes p.conditions)
    (hget : p.conditions[i]? = some c) (hsame : condition.attributes = c.attributes) :
    (p.removeCondition i condition).Summed ∧
    AllAttributes (p.removeCondition i condition).conditions ∧
    (p.Defended → ((p.removeCondition i condition).Defended ↔ p.EndsClear i c)) := by
  have hmodifiers : condition.modifiers = c.modifiers := by
    rw [Condition.modifiers, Condition.modifiers, hsame]
  obtain ⟨-, huse, hconditions⟩ := removeCondition_spec (p := p) i condition
  refine ⟨h.removeCondition hget hmodifiers, hconditions ▸ hall.eraseIdx i, fun hdefended => ?_⟩
  rw [Defended, undisabled_eraseIdx hget] at hdefended
  rw [Defended, huse, hconditions, hsame, EndsClear]
  cases hdisable : c.attributes.disableDefense with
  | true => simp
  | false => simpa [hdisable] using hdefended

theorem kept_renew (h : p.Summed) (hall : AllAttributes p.conditions)
    (hget : p.conditions[i]? = some prevCond) (hattributes : condition.IsAttributes)
    (hupdate : prevCond.updateCondition env.now condition = true) :
    (p.renewCondition env i prevCond condition).Summed ∧
    AllAttributes (p.renewCondition env i prevCond condition).conditions ∧
    (p.Defended → ((p.renewCondition env i prevCond condition).Defended ↔
      if prevCond.attributes.disableDefense = true then
        condition.attributes.disableDefense = false ∧ Undisabled (p.conditions.eraseIdx i)
      else
        condition.attributes.disableDefense = false ∨ ¬ Undisabled (p.conditions.eraseIdx i))) := by
  obtain ⟨hupdated, huse, hconditions⟩ := renewCondition_spec (p := p) hupdate i
  obtain ⟨hrenewed, hdisable⟩ := addCondition_spec (hall.get hget) hattributes hupdate
  refine ⟨h.of_updated hupdated fun value hvalue => ?_, hconditions ▸ hall.set hrenewed i,
    fun hdefended => ?_⟩
  · rw [hconditions, total_set hget, total_eraseIdx hget, hvalue.add, hvalue.neg]
    grind
  · rw [Defended, undisabled_eraseIdx hget] at hdefended
    rw [Defended, huse, hconditions, undisabled_set hget, hdisable]
    cases hprev : prevCond.attributes.disableDefense with
    | true => simp
    | false =>
      simp only [hprev, Bool.false_or, hdefended, true_and]
      by_cases hrest : Undisabled (p.conditions.eraseIdx i)
      · simp [hrest]
      · simp [hrest]

theorem kept_start (h : p.Summed) (hall : AllAttributes p.conditions)
    (hattributes : condition.IsAttributes) :
    (p.startCondition env condition).Summed ∧
    AllAttributes (p.startCondition env condition).conditions ∧
    ((p.startCondition env condition).Defended ↔
      condition.attributes.disableDefense = true ∨ Undisabled p.conditions) := by
  obtain ⟨started, hstart, hstarted, hdisable⟩ := startCondition_spec hattributes env
  obtain ⟨hupdated, huse, hconditions⟩ := startCondition_player_spec (p := p) hstart
  have hundisabled : Undisabled (p.conditions ++ [started]) ↔
      condition.attributes.disableDefense = false ∧ Undisabled p.conditions := by
    rw [undisabled_perm (List.perm_append_singleton started p.conditions), undisabled_cons,
      hdisable]
  refine ⟨h.of_updated hupdated fun value hvalue => ?_, fun c hc => ?_, ?_⟩
  · rw [hconditions, total_append]
    exact Int32.add_comm _ _
  · rw [hconditions, List.mem_append] at hc
    rcases hc with hc | hc
    · exact hall c hc
    · obtain rfl := List.mem_singleton.mp hc
      exact hstarted
  · rw [Defended, huse, hconditions, hundisabled, hdisable]
    cases condition.attributes.disableDefense with
    | true => simp
    | false => simp

theorem kept_execute (h : p.Summed) (hall : AllAttributes p.conditions)
    (hget : p.conditions[i]? = some c) (interval : Int32) :
    (p.executeCondition env interval i c).Summed ∧
    AllAttributes (p.executeCondition env interval i c).conditions ∧
    (p.Defended → ((p.executeCondition env interval i c).Defended ↔
      (expired env c → p.EndsClear i c))) := by
  obtain ⟨hexecuted, hsame, hends⟩ := @executeCondition_spec env c (hall.get hget) interval
  rw [PlayerModifiers.executeCondition]
  dsimp only
  split_ifs with hgoes
  · have hopen : ¬ expired env c := fun hexpired => by simp [hends.mpr hexpired] at hgoes
    have hmodifiers : (c.executeCondition env interval).2.modifiers = c.modifiers := by
      rw [Condition.modifiers, Condition.modifiers, hsame]
    refine ⟨h.of_updated (m := {}) ⟨fun i => ?_, fun i => ?_, fun i => ?_, rfl⟩ fun value hvalue => ?_,
      hall.set hexecuted i, fun hdefended => ?_⟩
    · exact (Int32.add_zero _).symm
    · exact (Int32.add_zero _).symm
    · exact (Int32.add_zero _).symm
    · rw [total_set hget, total_eraseIdx hget, hvalue.zero, hmodifiers]
      exact (Int32.add_zero _).symm
    · rw [Defended, undisabled_set hget, hsame, ← undisabled_eraseIdx hget]
      exact ⟨fun _ hexpired => absurd hexpired hopen, fun _ => hdefended⟩
  · have hexpired : expired env c := hends.mp (by simpa using hgoes)
    obtain ⟨hsummed, hall', hdefended⟩ := kept_remove h hall hget hsame
    exact ⟨hsummed, hall', fun hd => (hdefended hd).trans ⟨fun hc _ => hc, fun hc => hc hexpired⟩⟩

/-- Every step keeps the sums. It keeps the defence exactly when it is clear. -/
theorem Summed.step {p' : PlayerModifiers} {e : Event} (h : p.Summed)
    (hall : AllAttributes p.conditions) (hstep : Step p e p') :
    p'.Summed ∧ AllAttributes p'.conditions ∧ (p.Defended → (p'.Defended ↔ Clear p e)) := by
  cases hstep with
  | @add env condition hattributes hplayer =>
    rw [addCondition, Clear]
    cases hfind : p.findCondition condition with
    | none =>
      obtain ⟨hsummed, hall', hdefended⟩ := @kept_start p env condition h hall hattributes
      exact ⟨hsummed, hall', fun _ => hdefended⟩
    | some i =>
      cases hget : p.conditions[i]? with
      | none =>
        exact ⟨by simpa [hget] using h, by simpa [hget] using hall, fun hd => by simpa [hget] using hd⟩
      | some prevCond =>
        by_cases hupdate : prevCond.updateCondition env.now condition = true
        · simpa [hget, hupdate] using kept_renew h hall hget hattributes hupdate
        · refine ⟨?_, ?_, fun hd => ?_⟩
          · simpa [hget, renewCondition, hupdate] using h
          · simpa [hget, renewCondition, hupdate] using hall
          · simpa [hget, renewCondition, hupdate] using hd
  | @remove i condition hget =>
    obtain ⟨hsummed, hall', hdefended⟩ := kept_remove h hall hget rfl
    exact ⟨hsummed, hall', fun hd => by simpa [Clear, hget] using hdefended hd⟩
  | @execute env interval i condition hget =>
    obtain ⟨hsummed, hall', hdefended⟩ := @kept_execute p env _ _ h hall hget interval
    exact ⟨hsummed, hall', fun hd => by simpa [Clear, hget] using hdefended hd⟩
  | @equip m =>
    obtain ⟨-, huse, hconditions⟩ := update_spec p m
    refine ⟨h.equip m, hconditions ▸ hall, fun hd => ?_⟩
    rw [Defended, ← huse, ← hconditions] at hd
    exact ⟨fun _ => trivial, fun _ => hd⟩

theorem summed_of_reachable (h : Run.Reachable system p) :
    p.Summed ∧ AllAttributes p.conditions := by
  refine h.invariant (I := fun p => p.Summed ∧ AllAttributes p.conditions) ?_ fun p e p' hp hs =>
    ⟨(hp.1.step hp.2 hs).1, (hp.1.step hp.2 hs).2.1⟩
  rintro p ⟨hnone, -, hskills, hspecial, hstats⟩
  refine ⟨⟨fun i => ?_, fun i => ?_, fun i => ?_⟩, fun c hc => by simp [hnone] at hc⟩
  · rw [hskills, hnone]
    exact (Int32.add_zero _).symm
  · rw [hspecial, hnone]
    exact (Int32.add_zero _).symm
  · rw [hstats, hnone]
    exact (Int32.add_zero _).symm

/-- In a run of clear steps the modifiers are the sums, and the player can use the defence exactly
when no active condition disables it. -/
theorem summed_and_defended (h : Run.ReachableBy system Clear p) : p.Summed ∧ p.Defended := by
  refine ⟨(summed_of_reachable h.reachable).1, ?_⟩
  have hall : (p.Summed ∧ AllAttributes p.conditions) ∧ p.Defended := by
    refine h.invariant (I := fun p => (p.Summed ∧ AllAttributes p.conditions) ∧ p.Defended) ?_ ?_
    · intro p hinit
      refine ⟨summed_of_reachable (.init hinit), ?_⟩
      rw [Defended, hinit.1, hinit.2.1]
      simp [Undisabled]
    · rintro p e p' ⟨⟨hsummed, hall⟩, hdefended⟩ hclear hstep
      obtain ⟨hsummed', hall', hiff⟩ := hsummed.step hall hstep
      exact ⟨⟨hsummed', hall'⟩, (hiff hdefended).mpr hclear⟩
  exact hall.2

def barePlayer : PlayerModifiers :=
  { healthMax := 150, health := 150, manaMax := 50, mana := 50, hasInfiniteMana := false
    varSkills := fun _ => 0, varSpecialSkills := fun _ => 0, varStats := fun _ => 0
    canUseDefense := true, equipment := {}, conditions := [] }

/-- The condition of a spell, told from those of other spells by its sub id. -/
def spellCondition (subId : UInt32) (data : ConditionAttributes) : Condition :=
  { id := CONDITIONID_COMBAT, conditionType := .attributes, ticks := 10000, endTime := 0
    subId := subId, isBuff := true, aggressive := false, data := .attributes data }

def playerTurn : Surroundings :=
  { now := 0, isPlayer := true, protectionZone := false, initDamage := false, bRemove := false
    amount := 0, damages := [], speedDelta := 0, skills := fun _ => 0, stats := fun _ => 0 }

/-- A spell that makes the player fight without defence. -/
def bloodRage : Condition :=
  spellCondition 1 { skills := setAll (fun _ => 0) [SKILL_SWORD] 35, disableDefense := true }

def sharpshooter : Condition :=
  spellCondition 2 { skills := setAll (fun _ => 0) [SKILL_DISTANCE] 40 }

theorem isAttributes_spellCondition (subId : UInt32) (data : ConditionAttributes) :
    (spellCondition subId data).IsAttributes := ⟨rfl, data, rfl⟩

theorem init_barePlayer : system.init barePlayer := ⟨rfl, rfl, rfl, rfl, rfl⟩

theorem reachable_bloodRage :
    Run.ReachableBy system Clear (barePlayer.addCondition playerTurn bloodRage) := by
  have hstart : Run.ReachableBy system Clear barePlayer := .init init_barePlayer
  refine hstart.step (i := .add playerTurn bloodRage) ?_
    (Step.add (isAttributes_spellCondition _ _) rfl)
  exact .inl rfl

theorem summed_and_defended_bloodRage :
    (barePlayer.addCondition playerTurn bloodRage).varSkills SKILL_SWORD = 35 ∧
    (barePlayer.addCondition playerTurn bloodRage).Summed ∧
    (barePlayer.addCondition playerTurn bloodRage).Defended :=
  ⟨by decide, summed_and_defended reachable_bloodRage⟩

/-- The start of a second condition gives the defence back. -/
theorem undefended_reachable :
    ¬ ∀ p : PlayerModifiers, Run.Reachable system p → p.Summed ∧ p.Defended := by
  intro hall
  have hstep : Run.Reachable system
      ((barePlayer.addCondition playerTurn bloodRage).addCondition playerTurn sharpshooter) :=
    reachable_bloodRage.reachable.step' (i := .add playerTurn sharpshooter)
      (Step.add (isAttributes_spellCondition _ _) rfl)
  have hdefended := (hall _ hstep).2
  have hundisabled := hdefended.mp (by decide)
  revert hundisabled
  decide

end PlayerModifiers

end Eloth
