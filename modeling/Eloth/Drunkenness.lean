import Eloth.Condition

/-!
# Drunkenness

The drunk conditions of a creature and the strength they give it. A condition that is added to one
with its ids gives the creature its strength, but the one that is there keeps its own.
-/

namespace Eloth

/-- A condition of the class `ConditionDrunk`. -/
structure ConditionDrunk where
  base : Condition
  drunkenness : UInt8
  type_eq : base.conditionType = .drunk
  data_eq : base.data = .drunk drunkenness

abbrev ConditionKey := Int8 × UInt32

namespace ConditionDrunk

variable (now : Int) (c : ConditionDrunk)

def key : ConditionKey := (c.base.id, c.base.subId)

def setTicks (newTicks : Int32) : ConditionDrunk :=
  { c with base := c.base.setTicks now newTicks, type_eq := c.type_eq, data_eq := c.data_eq }

def startCondition : ConditionDrunk where
  base := c.base.baseStartCondition now
  drunkenness := c.drunkenness
  type_eq := by
    unfold Condition.baseStartCondition
    split_ifs
    · exact c.type_eq
    · exact c.type_eq
  data_eq := by
    unfold Condition.baseStartCondition
    split_ifs
    · exact c.data_eq
    · exact c.data_eq

def updateCondition (addCondition : ConditionDrunk) : Bool :=
  addCondition.drunkenness > c.drunkenness

def addCondition (condition : ConditionDrunk) : ConditionDrunk :=
  if !c.updateCondition condition then c else c.setTicks now condition.base.ticks

/-- Whether the condition goes on, and its new state. -/
def executeCondition (interval : Int32) : Bool × ConditionDrunk :=
  ((c.base.baseExecuteCondition now interval).1,
    { base := (c.base.baseExecuteCondition now interval).2
      drunkenness := c.drunkenness
      type_eq := by
        unfold Condition.baseExecuteCondition
        split_ifs
        · exact c.type_eq
        · exact c.type_eq
      data_eq := by
        unfold Condition.baseExecuteCondition
        split_ifs
        · exact c.data_eq
        · exact c.data_eq })

@[simp] theorem drunkenness_setTicks (newTicks : Int32) :
    (c.setTicks now newTicks).drunkenness = c.drunkenness := rfl

@[simp] theorem key_setTicks (newTicks : Int32) : (c.setTicks now newTicks).key = c.key := rfl

@[simp] theorem key_startCondition : (c.startCondition now).key = c.key := by
  unfold key startCondition Condition.baseStartCondition
  split_ifs <;> rfl

@[simp] theorem key_executeCondition (interval : Int32) :
    (c.executeCondition now interval).2.key = c.key := by
  unfold key executeCondition Condition.baseExecuteCondition
  dsimp only
  split_ifs <;> rfl

@[simp] theorem key_addCondition (condition : ConditionDrunk) :
    (c.addCondition now condition).key = c.key := by
  unfold addCondition
  split_ifs <;> rfl

@[simp] theorem drunkenness_addCondition (condition : ConditionDrunk) :
    (c.addCondition now condition).drunkenness = c.drunkenness := by
  unfold addCondition
  split_ifs <;> rfl

/-! The class does what `Condition` says of a condition with its data. -/

end ConditionDrunk

/-! ## The creature -/

/-- What a creature knows of drunk conditions, which are told apart by their ids. -/
structure Drinker where
  conditions : List ConditionDrunk
  drunkenness : UInt8
  distinct : (conditions.map ConditionDrunk.key).Nodup

namespace Drinker

variable (self : Drinker)

def getCondition (key : ConditionKey) : Option ConditionDrunk :=
  self.conditions.find? fun condition => condition.key = key

theorem key_ne_of_getCondition {key : ConditionKey} (h : self.getCondition key = none) :
    ∀ c ∈ self.conditions, c.key ≠ key := by
  intro c hc
  simpa using List.find?_eq_none.mp h c hc

/-- `Creature::addCondition`. -/
def addCondition (now : Int) (condition : ConditionDrunk) : Drinker :=
  match h : self.getCondition condition.key with
  | some prevCond =>
    { conditions := self.conditions.map fun c =>
        if c.key = condition.key then c.addCondition now condition else c
      drunkenness :=
        if prevCond.updateCondition condition then condition.drunkenness else self.drunkenness
      distinct := by
        have hkeys : (self.conditions.map fun c =>
            if c.key = condition.key then c.addCondition now condition else c).map
              ConditionDrunk.key = self.conditions.map ConditionDrunk.key := by
          rw [List.map_map]
          refine List.map_congr_left fun c _ => ?_
          dsimp only [Function.comp]
          split_ifs
          · exact c.key_addCondition now condition
          · rfl
        exact hkeys ▸ self.distinct }
  | none =>
    { conditions := self.conditions ++ [condition.startCondition now]
      drunkenness := condition.drunkenness
      distinct := by
        rw [List.map_append, List.nodup_append]
        refine ⟨self.distinct, List.nodup_singleton _, ?_⟩
        rintro k hk k' hk' rfl
        obtain ⟨c, hc, rfl⟩ := List.mem_map.mp hk
        rw [List.map_singleton, List.mem_singleton, ConditionDrunk.key_startCondition] at hk'
        exact self.key_ne_of_getCondition h c hc hk' }

/-- Every condition that is taken out ends. -/
def removeConditions (p : ConditionDrunk → Bool) : Drinker where
  conditions := self.conditions.filter fun condition => !p condition
  drunkenness := if self.conditions.any p then 0 else self.drunkenness
  distinct := self.distinct.sublist (List.filter_sublist.map _)

/-- `Creature::removeCondition` with the type, or with the type and an id. -/
def removeCondition (conditionId : Option Int8) : Drinker :=
  self.removeConditions fun condition => conditionId.all fun id => condition.base.id = id

/-- `Creature::removeCondition` with a condition. -/
def removeConditionAt (key : ConditionKey) : Drinker :=
  self.removeConditions fun condition => condition.key = key

/-- What the death of a player takes. -/
def removePersistent : Drinker :=
  self.removeConditions fun condition => condition.base.isPersistent

def executeConditions (now : Int) (interval : Int32) : Drinker where
  conditions := (self.conditions.filter fun c => (c.executeCondition now interval).1).map
    fun c => (c.executeCondition now interval).2
  drunkenness :=
    if self.conditions.all fun c => (c.executeCondition now interval).1 then self.drunkenness
    else 0
  distinct := by
    rw [List.map_map]
    have hkeys : ConditionDrunk.key ∘ (fun c => (c.executeCondition now interval).2) =
        ConditionDrunk.key := funext fun c => c.key_executeCondition now interval
    rw [hkeys]
    exact self.distinct.sublist (List.filter_sublist.map _)

variable {self} {now : Int} {condition prevCond : ConditionDrunk}

theorem mem_of_getCondition {key : ConditionKey} (h : self.getCondition key = some prevCond) :
    prevCond ∈ self.conditions ∧ prevCond.key = key :=
  ⟨List.mem_of_find?_eq_some h, by simpa using List.find?_some h⟩

theorem eq_of_key_eq {c c' : ConditionDrunk} (hc : c ∈ self.conditions) (hc' : c' ∈ self.conditions)
    (h : c.key = c'.key) : c = c' :=
  List.inj_on_of_nodup_map self.distinct hc hc' h

theorem addCondition_some (h : self.getCondition condition.key = some prevCond) :
    (self.addCondition now condition).conditions = (self.conditions.map fun c =>
      if c.key = condition.key then c.addCondition now condition else c) ∧
    (self.addCondition now condition).drunkenness =
      if prevCond.updateCondition condition then condition.drunkenness
      else self.drunkenness := by
  unfold addCondition
  split
  · rename_i c hc
    cases hc.symm.trans h
    exact ⟨rfl, rfl⟩
  · rename_i hnone
    cases hnone.symm.trans h

theorem addCondition_none (h : self.getCondition condition.key = none) :
    (self.addCondition now condition).conditions =
      self.conditions ++ [condition.startCondition now] ∧
    (self.addCondition now condition).drunkenness = condition.drunkenness := by
  unfold addCondition
  split
  · rename_i c hc
    cases hc.symm.trans h
  · exact ⟨rfl, rfl⟩

theorem keys_addCondition_some (h : self.getCondition condition.key = some prevCond) :
    (self.addCondition now condition).conditions.map ConditionDrunk.key =
      self.conditions.map ConditionDrunk.key := by
  rw [(addCondition_some h).1, List.map_map]
  refine List.map_congr_left fun c _ => ?_
  dsimp only [Function.comp]
  split_ifs
  · exact c.key_addCondition now condition
  · rfl

theorem keys_addCondition_none (h : self.getCondition condition.key = none) :
    (self.addCondition now condition).conditions.map ConditionDrunk.key =
      self.conditions.map ConditionDrunk.key ++ [condition.key] := by
  rw [(addCondition_none h).1, List.map_append, List.map_singleton,
    ConditionDrunk.key_startCondition]

theorem addCondition_of_weaker (h : self.getCondition condition.key = some prevCond)
    (hle : condition.drunkenness ≤ prevCond.drunkenness) :
    self.addCondition now condition = self := by
  have hupdate : prevCond.updateCondition condition = false := by
    simpa [ConditionDrunk.updateCondition] using hle
  obtain ⟨hconditions, hdrunkenness⟩ := @addCondition_some self now condition prevCond h
  have hsame : (self.conditions.map fun c =>
      if c.key = condition.key then c.addCondition now condition else c) = self.conditions := by
    refine (List.map_congr_left fun c hc => ?_).trans (List.map_id _)
    split_ifs with hkey
    · obtain ⟨hmem, hprev⟩ := mem_of_getCondition h
      rw [eq_of_key_eq hc hmem (hkey.trans hprev.symm), ConditionDrunk.addCondition, hupdate]
      rfl
    · rfl
  rw [hsame] at hconditions
  rw [hupdate] at hdrunkenness
  cases hself : self.addCondition now condition with
  | mk conditions drunkenness distinct =>
    rw [hself] at hconditions hdrunkenness
    dsimp only at hconditions hdrunkenness
    subst hconditions hdrunkenness
    rfl

end Drinker

/-! ## The greatest of the strengths -/

/-- The greatest value of the keys, or zero. -/
def GreatestOf {κ : Type} (keys : List κ) (value : κ → Nat) (n : Nat) : Prop :=
  (∀ k ∈ keys, value k ≤ n) ∧ (n = 0 ∨ ∃ k ∈ keys, value k = n)

namespace GreatestOf

variable {κ : Type} {keys : List κ} {value : κ → Nat} {k : κ} {m n : Nat}

theorem unique (h : GreatestOf keys value m) (h' : GreatestOf keys value n) : m = n := by
  have hle : ∀ {m n}, GreatestOf keys value m → GreatestOf keys value n → m ≤ n := by
    intro m n h h'
    rcases h.2 with rfl | ⟨k, hk, rfl⟩
    · exact Nat.zero_le n
    · exact h'.1 k hk
  exact Nat.le_antisymm (hle h h') (hle h' h)

theorem iff_eq (h : GreatestOf keys value m) : GreatestOf keys value n ↔ n = m :=
  ⟨fun h' => h'.unique h, fun hn => hn ▸ h⟩

theorem zero_iff : GreatestOf keys value 0 ↔ ∀ k ∈ keys, value k = 0 :=
  ⟨fun h k hk => Nat.le_zero.mp (h.1 k hk), fun h => ⟨fun k hk => (h k hk).le, .inl rfl⟩⟩

variable [DecidableEq κ]

/-- A key that is there is given a greater value, or keeps its own. -/
theorem raise (h : GreatestOf keys value m) (hk : k ∈ keys) :
    GreatestOf keys (Function.update value k (max (value k) n)) (max m n) := by
  refine ⟨fun k' hk' => ?_, ?_⟩
  · by_cases hkey : k' = k
    · rw [hkey, Function.update_self]
      exact max_le_max_right n (h.1 k hk)
    · rw [Function.update_of_ne hkey]
      exact (h.1 k' hk').trans (le_max_left m n)
  · by_cases hmn : m ≤ n
    · refine .inr ⟨k, hk, ?_⟩
      rw [Function.update_self, max_eq_right hmn, max_eq_right ((h.1 k hk).trans hmn)]
    · rw [max_eq_left (Nat.le_of_not_le hmn)]
      rcases h.2 with hzero | ⟨k', hk', hvalue⟩
      · exact .inl hzero
      · refine .inr ⟨k', hk', ?_⟩
        by_cases hkey : k' = k
        · rw [hkey, Function.update_self, ← hkey, hvalue, max_eq_left (Nat.le_of_not_le hmn)]
        · rw [Function.update_of_ne hkey, hvalue]

theorem push (h : GreatestOf keys value m) (hk : k ∉ keys) :
    GreatestOf (keys ++ [k]) (Function.update value k n) (max m n) := by
  have hold : ∀ k' ∈ keys, Function.update value k n k' = value k' := fun k' hk' =>
    Function.update_of_ne (ne_of_mem_of_not_mem hk' hk) n value
  refine ⟨fun k' hk' => ?_, ?_⟩
  · rcases List.mem_append.mp hk' with hin | hnew
    · rw [hold k' hin]
      exact (h.1 k' hin).trans (le_max_left m n)
    · rw [List.mem_singleton.mp hnew, Function.update_self]
      exact le_max_right m n
  · by_cases hmn : m ≤ n
    · refine .inr ⟨k, List.mem_append_right keys (List.mem_singleton_self k), ?_⟩
      rw [Function.update_self, max_eq_right hmn]
    · rw [max_eq_left (Nat.le_of_not_le hmn)]
      rcases h.2 with hzero | ⟨k', hk', hvalue⟩
      · exact .inl hzero
      · exact .inr ⟨k', List.mem_append_left _ hk', (hold k' hk').trans hvalue⟩

end GreatestOf

/-! ## Runs -/

inductive DrinkerOp where
  | addCondition (now : Int) (condition : ConditionDrunk)
  | removeCondition (conditionId : Option Int8)
  | removeConditionAt (key : ConditionKey)
  | removePersistent
  | executeConditions (now : Int) (interval : Int32)

/-- A creature, and the greatest strength that each of its conditions has been given since it was
started. -/
structure DrinkerRecord where
  drinker : Drinker
  granted : ConditionKey → Nat

namespace DrinkerRecord

variable (self : DrinkerRecord)

def sober : DrinkerRecord where
  drinker := { conditions := [], drunkenness := 0, distinct := List.nodup_nil }
  granted := fun _ => 0

def grant (condition : ConditionDrunk) : ConditionKey → Nat :=
  Function.update self.granted condition.key
    (if (self.drinker.getCondition condition.key).isSome then
      max (self.granted condition.key) condition.drunkenness.toNat
    else condition.drunkenness.toNat)

def perform : DrinkerOp → DrinkerRecord
  | .addCondition now condition =>
    { drinker := self.drinker.addCondition now condition, granted := self.grant condition }
  | .removeCondition conditionId =>
    { self with drinker := self.drinker.removeCondition conditionId }
  | .removeConditionAt key => { self with drinker := self.drinker.removeConditionAt key }
  | .removePersistent => { self with drinker := self.drinker.removePersistent }
  | .executeConditions now interval =>
    { self with drinker := self.drinker.executeConditions now interval }

/-- The drunkenness is the greatest strength of an active condition, or zero. -/
def Greatest : Prop :=
  GreatestOf (self.drinker.conditions.map ConditionDrunk.key) self.granted
    self.drinker.drunkenness.toNat

/-- A stronger condition takes effect on the one that is there, a weaker one changes nothing. -/
def Heeds : DrinkerOp → Prop
  | .addCondition now condition =>
    ∀ c ∈ self.drinker.conditions, c.key = condition.key →
      (self.granted c.key < condition.drunkenness.toNat →
        c.setTicks now condition.base.ticks ∈
          (self.drinker.addCondition now condition).conditions) ∧
      (condition.drunkenness.toNat < self.granted c.key →
        self.drinker.addCondition now condition = self.drinker)
  | _ => True

/-- The property of a run: in each of its states, and for each of its additions. -/
def Follows : DrinkerRecord → List DrinkerOp → Prop
  | self, [] => self.Greatest
  | self, op :: ops => self.Greatest ∧ self.Heeds op ∧ Follows (self.perform op) ops

/-- What is left when some conditions end has no strength. -/
def NoneStays (after : Drinker) : Prop :=
  after.conditions.length < self.drinker.conditions.length →
    ∀ c ∈ after.conditions, self.granted c.key = 0

/-- A condition starts at least as strong as the creature is drunk; an addition to it is no
stronger than what it keeps, or at least as strong as the creature is drunk. -/
def Orderly : DrinkerOp → Prop
  | .addCondition _ condition =>
    match self.drinker.getCondition condition.key with
    | some prevCond =>
      condition.drunkenness ≤ prevCond.drunkenness ∨
        self.drinker.drunkenness ≤ condition.drunkenness
    | none => self.drinker.drunkenness ≤ condition.drunkenness
  | op => self.NoneStays (self.perform op).drinker

def OrderlyRun : DrinkerRecord → List DrinkerOp → Prop
  | _, [] => True
  | self, op :: ops => self.Orderly op ∧ OrderlyRun (self.perform op) ops

/-! ## Steps -/

/-- A condition keeps no more than it has been given. -/
def Kept : Prop := ∀ c ∈ self.drinker.conditions, c.drunkenness.toNat ≤ self.granted c.key

variable {self} {now : Int} {condition prevCond : ConditionDrunk} {op : DrinkerOp}

theorem kept_addCondition (h : self.Kept) (now : Int) (condition : ConditionDrunk) :
    (self.perform (.addCondition now condition)).Kept := by
  intro c hc
  dsimp only [perform] at hc ⊢
  cases hprev : self.drinker.getCondition condition.key with
  | some prevCond =>
    rw [(Drinker.addCondition_some hprev).1] at hc
    obtain ⟨c, hold, rfl⟩ := List.mem_map.mp hc
    have hkept := h c hold
    rw [grant, hprev, Option.isSome_some, if_pos rfl]
    split_ifs with hkey
    · rw [ConditionDrunk.key_addCondition, ConditionDrunk.drunkenness_addCondition, hkey,
        Function.update_self, ← hkey]
      exact hkept.trans (le_max_left _ _)
    · rwa [Function.update_of_ne hkey]
  | none =>
    rw [(Drinker.addCondition_none hprev).1] at hc
    rw [grant, hprev, Option.isSome_none, if_neg Bool.false_ne_true]
    rcases List.mem_append.mp hc with hold | hnew
    · rw [Function.update_of_ne (Drinker.key_ne_of_getCondition _ hprev c hold)]
      exact h c hold
    · rw [List.mem_singleton.mp hnew, ConditionDrunk.key_startCondition, Function.update_self]
      exact le_rfl

/-- The ends of conditions leave the others as they are. -/
theorem kept_of_subset {drinker : Drinker} (h : self.Kept)
    (hsub : ∀ c ∈ drinker.conditions, ∃ c' ∈ self.drinker.conditions,
      c'.key = c.key ∧ c'.drunkenness = c.drunkenness) :
    Kept { self with drinker := drinker } := by
  intro c hc
  obtain ⟨c', hc', hkey, hdrunkenness⟩ := hsub c hc
  dsimp only
  rw [← hkey, ← hdrunkenness]
  exact h c' hc'

theorem kept_removeConditions (h : self.Kept) (p : ConditionDrunk → Bool) :
    Kept { self with drinker := self.drinker.removeConditions p } :=
  kept_of_subset h fun c hc => ⟨c, List.mem_of_mem_filter hc, rfl, rfl⟩

theorem kept_perform (h : self.Kept) (op : DrinkerOp) : (self.perform op).Kept := by
  cases op with
  | addCondition now condition => exact kept_addCondition h now condition
  | removeCondition conditionId => exact kept_removeConditions h _
  | removeConditionAt key => exact kept_removeConditions h _
  | removePersistent => exact kept_removeConditions h _
  | executeConditions now interval =>
    refine kept_of_subset h fun c hc => ?_
    obtain ⟨c, hold, rfl⟩ := List.mem_map.mp hc
    exact ⟨c, List.mem_of_mem_filter hold, (c.key_executeCondition now interval).symm, rfl⟩

theorem addCondition_iff (hkept : self.Kept) (h : self.Greatest) (now : Int)
    (condition : ConditionDrunk) :
    (self.Heeds (.addCondition now condition) ∧
        (self.perform (.addCondition now condition)).Greatest) ↔
      self.Orderly (.addCondition now condition) := by
  unfold Greatest at h ⊢
  dsimp only [perform, Orderly]
  cases hprev : self.drinker.getCondition condition.key with
  | some prevCond =>
    obtain ⟨hmem, hkey⟩ := Drinker.mem_of_getCondition hprev
    have hkeys : condition.key ∈ self.drinker.conditions.map ConditionDrunk.key :=
      hkey ▸ List.mem_map_of_mem hmem
    have hstored := hkept prevCond hmem
    have hle := h.1 _ hkeys
    rw [Drinker.keys_addCondition_some hprev, grant, hprev, Option.isSome_some, if_pos rfl,
      (h.raise hkeys).iff_eq, (Drinker.addCondition_some hprev).2]
    rw [hkey] at hstored
    dsimp only
    by_cases hupdate : prevCond.drunkenness < condition.drunkenness
    · have hlt := UInt8.lt_iff_toNat_lt.mp hupdate
      have hupdates : prevCond.updateCondition condition = true := by
        simpa [ConditionDrunk.updateCondition] using hupdate
      rw [hupdates, if_pos rfl, UInt8.le_iff_toNat_le, UInt8.le_iff_toNat_le]
      refine ⟨fun hafter => .inr ?_, fun horderly => ?_⟩
      · exact le_max_left _ _ |>.trans_eq hafter.2.symm
      · have hstronger : self.drinker.drunkenness.toNat ≤ condition.drunkenness.toNat := by omega
        refine ⟨fun c hc hckey => ⟨fun _ => ?_, fun hweaker => ?_⟩, (max_eq_right hstronger).symm⟩
        · obtain rfl := Drinker.eq_of_key_eq hc hmem (hckey.trans hkey.symm)
          rw [(Drinker.addCondition_some hprev).1]
          refine List.mem_map.mpr ⟨c, hc, ?_⟩
          rw [if_pos hkey, ConditionDrunk.addCondition, hupdates]
          rfl
        · rw [hckey] at hweaker
          omega
    · have hweaker : condition.drunkenness ≤ prevCond.drunkenness := UInt8.not_lt.mp hupdate
      have hnat := UInt8.le_iff_toNat_le.mp hweaker
      have hupdates : prevCond.updateCondition condition = false := by
        simpa [ConditionDrunk.updateCondition] using hweaker
      rw [hupdates, if_neg Bool.false_ne_true]
      refine ⟨fun _ => .inl hweaker, fun _ => ⟨fun c hc hckey => ⟨fun hgreater => ?_, fun _ => ?_⟩,
        (max_eq_left (by omega)).symm⟩⟩
      · rw [hckey] at hgreater
        omega
      · exact Drinker.addCondition_of_weaker hprev hweaker
  | none =>
    have hnew : condition.key ∉ self.drinker.conditions.map ConditionDrunk.key := by
      intro hmem
      obtain ⟨c, hc, hkey⟩ := List.mem_map.mp hmem
      exact Drinker.key_ne_of_getCondition _ hprev c hc hkey
    rw [Drinker.keys_addCondition_none hprev, grant, hprev, Option.isSome_none,
      if_neg Bool.false_ne_true, (h.push hnew).iff_eq, (Drinker.addCondition_none hprev).2,
      UInt8.le_iff_toNat_le]
    refine ⟨fun hafter => le_max_left _ _ |>.trans_eq hafter.2.symm, fun horderly => ?_⟩
    refine ⟨fun c hc hkey => ?_, (max_eq_right horderly).symm⟩
    exact absurd hkey (Drinker.key_ne_of_getCondition _ hprev c hc)

/-- An end of conditions: all stay, or the drunkenness is gone. -/
theorem ends_iff {drinker : Drinker} (h : self.Greatest)
    (hall : drinker.conditions.length = self.drinker.conditions.length →
      drinker.conditions.map ConditionDrunk.key =
        self.drinker.conditions.map ConditionDrunk.key ∧
      drinker.drunkenness = self.drinker.drunkenness)
    (hlost : drinker.conditions.length < self.drinker.conditions.length →
      drinker.drunkenness = 0)
    (hle : drinker.conditions.length ≤ self.drinker.conditions.length) :
    Greatest { self with drinker := drinker } ↔ self.NoneStays drinker := by
  unfold Greatest at h ⊢
  dsimp only
  rcases hle.lt_or_eq with hlt | heq
  · rw [hlost hlt, UInt8.toNat_zero, GreatestOf.zero_iff]
    refine ⟨fun hzero _ c hc => hzero _ (List.mem_map_of_mem hc), fun hstay k hk => ?_⟩
    obtain ⟨c, hc, rfl⟩ := List.mem_map.mp hk
    exact hstay hlt c hc
  · rw [(hall heq).1, (hall heq).2]
    exact ⟨fun _ hlt => absurd heq hlt.ne, fun _ => h⟩

theorem removeConditions_iff (h : self.Greatest) (p : ConditionDrunk → Bool) :
    Greatest { self with drinker := self.drinker.removeConditions p } ↔
      self.NoneStays (self.drinker.removeConditions p) := by
  have hany : (self.drinker.removeConditions p).conditions.length =
      self.drinker.conditions.length ↔ ∀ c ∈ self.drinker.conditions, p c = false := by
    simp [Drinker.removeConditions]
  refine ends_iff h (fun heq => ?_) (fun hlt => ?_) (List.length_filter_le _ _)
  · have hnone := hany.mp heq
    have hfalse : self.drinker.conditions.any p = false := by simpa using hnone
    refine ⟨congrArg _ (List.filter_eq_self.mpr fun c hc => by simp [hnone c hc]), ?_⟩
    simp only [Drinker.removeConditions, hfalse, Bool.false_eq_true, if_false]
  · have hsome : self.drinker.conditions.any p = true := by
      by_contra hnone
      refine hlt.ne (hany.mpr fun c hc => ?_)
      simpa using List.any_eq_false.mp (Bool.not_eq_true _ ▸ hnone) c hc
    simp only [Drinker.removeConditions, hsome, if_true]

theorem executeConditions_iff (h : self.Greatest) (now : Int) (interval : Int32) :
    Greatest { self with drinker := self.drinker.executeConditions now interval } ↔
      self.NoneStays (self.drinker.executeConditions now interval) := by
  have hlength : (self.drinker.executeConditions now interval).conditions.length =
      (self.drinker.conditions.filter fun c => (c.executeCondition now interval).1).length :=
    List.length_map _
  have hstay : (self.drinker.executeConditions now interval).conditions.length =
      self.drinker.conditions.length ↔
      ∀ c ∈ self.drinker.conditions, (c.executeCondition now interval).1 = true := by
    rw [hlength]
    simp
  refine ends_iff h (fun heq => ?_) (fun hlt => ?_) (hlength ▸ List.length_filter_le _ _)
  · have hall := hstay.mp heq
    have htrue : (self.drinker.conditions.all fun c => (c.executeCondition now interval).1) =
        true := List.all_eq_true.mpr hall
    simp only [Drinker.executeConditions, htrue, if_true, and_true]
    rw [List.filter_eq_self.mpr hall, List.map_map]
    exact List.map_congr_left fun c _ => c.key_executeCondition now interval
  · have hfalse : ¬ (self.drinker.conditions.all fun c =>
        (c.executeCondition now interval).1) = true :=
      fun hall => hlt.ne (hstay.mpr (List.all_eq_true.mp hall))
    simp only [Drinker.executeConditions]
    exact if_neg hfalse

/-- The step: the property is kept exactly by the orderly ones. -/
theorem perform_iff (hkept : self.Kept) (h : self.Greatest) (op : DrinkerOp) :
    (self.Heeds op ∧ (self.perform op).Greatest) ↔ self.Orderly op := by
  cases op with
  | addCondition now condition => exact addCondition_iff hkept h now condition
  | removeCondition conditionId => exact (and_iff_right trivial).trans (removeConditions_iff h _)
  | removeConditionAt key => exact (and_iff_right trivial).trans (removeConditions_iff h _)
  | removePersistent => exact (and_iff_right trivial).trans (removeConditions_iff h _)
  | executeConditions now interval =>
    exact (and_iff_right trivial).trans (executeConditions_iff h now interval)

theorem follows_iff_of_greatest {ops : List DrinkerOp} (hkept : self.Kept) (h : self.Greatest) :
    self.Follows ops ↔ self.OrderlyRun ops := by
  induction ops generalizing self with
  | nil => exact iff_of_true h trivial
  | cons op ops ih =>
    rw [Follows, OrderlyRun, ← perform_iff hkept h op]
    refine ⟨fun ⟨_, hheeds, hrest⟩ => ?_, fun ⟨⟨hheeds, hafter⟩, hrest⟩ => ?_⟩
    · have hafter : (self.perform op).Greatest := by
        cases ops with
        | nil => exact hrest
        | cons _ _ => exact hrest.1
      exact ⟨⟨hheeds, hafter⟩, (ih (kept_perform hkept op) hafter).mp hrest⟩
    · exact ⟨h, hheeds, (ih (kept_perform hkept op) hafter).mpr hrest⟩

theorem kept_sober : sober.Kept := by
  intro c hc
  cases hc

theorem greatest_sober : sober.Greatest := GreatestOf.zero_iff.mpr fun _ _ => rfl

/-- In a run of a creature that begins sober, the drunkenness is that of the strongest condition
exactly when every step is orderly. -/
theorem follows_iff (ops : List DrinkerOp) : sober.Follows ops ↔ sober.OrderlyRun ops :=
  follows_iff_of_greatest kept_sober greatest_sober

/-- The melee attacks of three monsters. -/
def drink (drunkenness : UInt8) : ConditionDrunk where
  base :=
    { id := CONDITIONID_COMBAT, conditionType := .drunk, ticks := 10000, endTime := 0
      subId := 0, isBuff := false, aggressive := false, data := .drunk drunkenness }
  drunkenness := drunkenness
  type_eq := rfl
  data_eq := rfl

theorem weaker_drink_replaces : ¬ ∀ ops, sober.Follows ops := by
  intro h
  have horderly := (follows_iff_of_greatest kept_sober greatest_sober).mp
    (h [.addCondition 0 (drink 25), .addCondition 0 (drink 50), .addCondition 0 (drink 30)])
  have hlast : (30 : UInt8) ≤ 25 ∨ (50 : UInt8) ≤ 30 := horderly.2.2.1
  revert hlast
  decide

end DrinkerRecord

end Eloth
