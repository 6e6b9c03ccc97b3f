import Eloth.Equipment
import Eloth.TileStack

/-!
# Putting items on and taking them off

The modifiers of a player are compared with what the items in its enabled slots add. While an item
is put on or taken off they differ by the abilities of one item; the calls that a transformation
makes in between keep the difference.
-/

namespace Eloth.PlayerEquipment

variable {env : EquipEnv} {transform : Transformer} {p p' : PlayerEquipment}
  {r : ItemRef} {slot : Nat}

/-! ## Sums over the slots -/

theorem total_eq_add {f g : Nat → Int32} (hslot : slot ∈ inventorySlots)
    (hne : ∀ s, s ≠ slot → g s = f s) : total g = total f + (g slot - f slot) := by
  have hnodup : inventorySlots.Nodup := inventorySlots_nodup
  unfold total
  generalize inventorySlots = l at hslot hnodup
  induction l with
  | nil => cases hslot
  | cons s l ih =>
    obtain ⟨hs, hnodup⟩ := List.nodup_cons.mp hnodup
    rw [List.foldr_cons, List.foldr_cons]
    by_cases heq : s = slot
    · subst heq
      have htail : ∀ l : List Nat, s ∉ l → l.foldr (fun slot sum => g slot + sum) 0 =
          l.foldr (fun slot sum => f slot + sum) 0 := by
        intro l hl
        induction l with
        | nil => rfl
        | cons x l ih =>
          rw [List.foldr_cons, List.foldr_cons, ih fun h => hl (List.mem_cons_of_mem x h),
            hne x fun h => hl (h ▸ List.mem_cons_self)]
      rw [htail l hs]
      grind
    · rw [ih ((List.mem_cons.mp hslot).resolve_left (Ne.symm heq)) hnodup, hne s heq]
      grind

/-! ## Abilities -/

/-- What an item changes of a stat. -/
def statChange (env : EquipEnv) (sign : Int32 → Int32) (stats : Fin 4 → Int32) (it : Abilities)
    (stat : Fin 4) : Int32 :=
  (if it.stats stat ≠ 0 then sign (it.stats stat) else 0) +
    if it.statsPercent stat ≠ 0 then sign (env.percentOf (stats stat) (it.statsPercent stat))
    else 0

theorem setVarStats_frame (env : EquipEnv) (sign : Int32 → Int32) (it : Abilities) (stat : Fin 4) :
    ∃ health mana, p.setVarStats env sign it stat = { p with
      modifiers := { p.modifiers with
        health := health, mana := mana
        varStats := Function.update p.modifiers.varStats stat
          (p.modifiers.varStats stat + statChange env sign p.getDefaultStats it stat) } } := by
  obtain ⟨health, mana, hfirst⟩ := PlayerModifiers.setVarStats_frame (p := p.modifiers) stat
    (sign (it.stats stat))
  rw [setVarStats, statChange]
  dsimp only
  by_cases hstats : it.stats stat ≠ 0
  · rw [if_pos hstats, if_pos hstats, hfirst]
    split_ifs
    · obtain ⟨health', mana', hsecond⟩ := PlayerModifiers.setVarStats_frame
        (p := { p.modifiers with
          health := health, mana := mana
          varStats := Function.update p.modifiers.varStats stat
            (p.modifiers.varStats stat + sign (it.stats stat)) }) stat
        (sign (env.percentOf (p.getDefaultStats stat) (it.statsPercent stat)))
      refine ⟨health', mana', ?_⟩
      rw [hsecond]
      simp [Int32.add_assoc]
    · exact ⟨health, mana, by simp⟩
  · rw [if_neg hstats, if_neg hstats]
    split_ifs
    · obtain ⟨health', mana', hsecond⟩ :=
        PlayerModifiers.setVarStats_frame (p := p.modifiers) stat
          (sign (env.percentOf (p.getDefaultStats stat) (it.statsPercent stat)))
      exact ⟨health', mana', by rw [hsecond]; simp⟩
    · exact ⟨p.modifiers.health, p.modifiers.mana, by simp⟩

/-- The loop over some of the stats. -/
theorem foldl_setVarStats (env : EquipEnv) (sign : Int32 → Int32) (it : Abilities)
    (l : List (Fin 4)) (hnodup : l.Nodup) (p : PlayerEquipment) :
    ∃ health mana, l.foldl (fun p stat => p.setVarStats env sign it stat) p = { p with
      modifiers := { p.modifiers with
        health := health, mana := mana
        varStats := fun i => p.modifiers.varStats i +
          if i ∈ l then statChange env sign p.getDefaultStats it i else 0 } } := by
  induction l generalizing p with
  | nil => exact ⟨p.modifiers.health, p.modifiers.mana, by simp⟩
  | cons stat rest ih =>
    obtain ⟨hnot, hnodup⟩ := List.nodup_cons.mp hnodup
    obtain ⟨health, mana, hset⟩ := setVarStats_frame env (p := p) sign it stat
    obtain ⟨health', mana', hrest⟩ := ih hnodup (p.setVarStats env sign it stat)
    refine ⟨health', mana', ?_⟩
    have hstats : (p.setVarStats env sign it stat).getDefaultStats = p.getDefaultStats := by
      rw [hset]
      rfl
    rw [List.foldl_cons, hrest, hstats, hset]
    congr 1
    dsimp only
    congr 1
    funext i
    by_cases hi : i = stat
    · subst hi
      simp [hnot]
    · simp [hi]

/-- Only the modifiers may differ. -/
structure Adjusted (p p' : PlayerEquipment) : Prop where
  inventory : p'.inventory = p.inventory
  inventoryAbilities : p'.inventoryAbilities = p.inventoryAbilities
  item : p'.item = p.item
  next : p'.next = p.next
  stats : p'.getDefaultStats = p.getDefaultStats

theorem Adjusted.refl (p : PlayerEquipment) : Adjusted p p := ⟨rfl, rfl, rfl, rfl, rfl⟩

theorem changeModifiers_spec (env : EquipEnv) (sign : Int32 → Int32) (it : Abilities) :
    Adjusted p (p.changeModifiers env sign it) ∧
    (p.changeModifiers env sign it).conditionSuppressions = p.conditionSuppressions ∧
    ∀ m, (p.changeModifiers env sign it).var m = p.var m +
      match m with
      | .skill i => sign (it.skills i)
      | .specialSkill i => sign (it.specialSkills i)
      | .stat i => statChange env sign p.getDefaultStats it i
      | .speed => sign it.speed := by
  obtain ⟨health, mana, hfold⟩ := foldl_setVarStats env sign it (List.finRange 4)
    (List.nodup_finRange 4) { p with
      varSpeed := p.varSpeed + sign it.speed
      modifiers := p.modifiers.updateSkills
        { skills := fun i => sign (it.skills i)
          specialSkills := fun i => sign (it.specialSkills i) } }
  rw [changeModifiers, hfold]
  refine ⟨⟨rfl, rfl, rfl, rfl, rfl⟩, rfl, fun m => ?_⟩
  cases m with
  | skill i => rfl
  | specialSkill i => rfl
  | stat i => simp [var, PlayerModifiers.updateSkills]; rfl
  | speed => rfl

theorem addAbilities_spec (env : EquipEnv) (n : Nat) :
    Adjusted p (p.addAbilities env (env.abilities n)) ∧
    (p.addAbilities env (env.abilities n)).conditionSuppressions =
      p.conditionSuppressions ||| suppressions env n ∧
    ∀ m, (p.addAbilities env (env.abilities n)).var m =
      p.var m + ability env p.getDefaultStats m n := by
  unfold suppressions ability
  cases env.abilities n with
  | none => exact ⟨.refl p, by simp [addAbilities], fun m => by simp [addAbilities]⟩
  | some it =>
    obtain ⟨hadjusted, hsuppressions, hvar⟩ :=
      changeModifiers_spec env (p := p.addConditionSuppressions it.conditionSuppressions)
        id it
    refine ⟨⟨hadjusted.inventory, hadjusted.inventoryAbilities, hadjusted.item, hadjusted.next,
      hadjusted.stats⟩, hsuppressions, fun m => (hvar m).trans ?_⟩
    cases m with
    | stat i =>
      change p.var (.stat i) + statChange env id p.getDefaultStats it i =
        p.var (.stat i) + value env p.getDefaultStats it (.stat i)
      simp only [statChange, value, id]
      grind
    | _ => rfl

theorem removeAbilities_spec (env : EquipEnv) (n : Nat) :
    Adjusted p (p.removeAbilities env (env.abilities n)) ∧
    (p.removeAbilities env (env.abilities n)).conditionSuppressions =
      p.conditionSuppressions &&& ~~~suppressions env n ∧
    ∀ m, (p.removeAbilities env (env.abilities n)).var m =
      p.var m - ability env p.getDefaultStats m n := by
  unfold suppressions ability
  cases env.abilities n with
  | none =>
    refine ⟨.refl p, ?_, fun m => by simp [removeAbilities]⟩
    exact (by rw [BitVec.ofNat_eq_ofNat, BitVec.not_zero, BitVec.and_allOnes]; rfl)
  | some it =>
    obtain ⟨hadjusted, hsuppressions, hvar⟩ :=
      changeModifiers_spec env
        (p := p.removeConditionSuppressions it.conditionSuppressions) (-·) it
    refine ⟨⟨hadjusted.inventory, hadjusted.inventoryAbilities, hadjusted.item, hadjusted.next,
      hadjusted.stats⟩, hsuppressions, fun m => (hvar m).trans ?_⟩
    cases m with
    | stat i =>
      change p.var (.stat i) + statChange env (-·) p.getDefaultStats it i =
        p.var (.stat i) - value env p.getDefaultStats it (.stat i)
      rw [Int32.sub_eq_add_neg, statChange, value]
      split_ifs <;> grind
    | skill i => exact (Int32.sub_eq_add_neg (p.var (.skill i)) (it.skills i)).symm
    | specialSkill i =>
      exact (Int32.sub_eq_add_neg (p.var (.specialSkill i)) (it.specialSkills i)).symm
    | speed => exact (Int32.sub_eq_add_neg p.varSpeed it.speed).symm

/-! ## The books -/

/-- The modifiers and the suppressions are those of the enabled slots, but for what is given. -/
structure Books (env : EquipEnv) (p : PlayerEquipment) (surplus : Modifier → Int32)
    (extra : BitVec 32) : Prop where
  var_eq : ∀ m, p.var m = total (p.contribution env m) + surplus m
  suppressions_iff : ∀ bit, p.conditionSuppressions.getLsbD bit = true ↔
    p.Suppresses env bit ∨ extra.getLsbD bit = true

section Books

variable {surplus : Modifier → Int32} {extra : BitVec 32} {n : Nat}

theorem contribution_congr (hid : p'.enabledId slot = p.enabledId slot)
    (hstats : p'.getDefaultStats = p.getDefaultStats) (m : Modifier) :
    p'.contribution env m slot = p.contribution env m slot := by
  rw [contribution, contribution, hid, hstats]

/-- Nothing changes that the books are about. -/
theorem Books.same (h : Books env p surplus extra) (hid : p'.enabledId = p.enabledId)
    (hstats : p'.getDefaultStats = p.getDefaultStats) (hvar : p'.var = p.var)
    (hsuppressions : p'.conditionSuppressions = p.conditionSuppressions) :
    Books env p' surplus extra := by
  have hcontribution : ∀ m, p'.contribution env m = p.contribution env m := fun m =>
    funext fun s => contribution_congr (congrFun hid s) hstats m
  refine ⟨fun m => ?_, fun bit => ?_⟩
  · rw [hvar, hcontribution, h.var_eq]
  · rw [hsuppressions, h.suppressions_iff, Suppresses, Suppresses, hid]

theorem total_contribution_update {a : Option Nat} (hslot : slot ∈ inventorySlots)
    (hid : p'.enabledId = Function.update p.enabledId slot a)
    (hstats : p'.getDefaultStats = p.getDefaultStats) (m : Modifier) :
    total (p'.contribution env m) =
      total (p.contribution env m) + (p'.contribution env m slot - p.contribution env m slot) :=
  total_eq_add hslot fun s hs =>
    contribution_congr (by rw [hid, Function.update_of_ne hs]) hstats m

/-- The item of an enabled slot does not count any more. -/
theorem Books.disable (h : Books env p surplus extra) (hslot : slot ∈ inventorySlots)
    (hn : p.enabledId slot = some n) (hid : p'.enabledId = Function.update p.enabledId slot none)
    (hstats : p'.getDefaultStats = p.getDefaultStats) (hvar : p'.var = p.var)
    (hsuppressions : p'.conditionSuppressions = p.conditionSuppressions) :
    Books env p' (fun m => surplus m + ability env p.getDefaultStats m n)
      (extra ||| suppressions env n) := by
  refine ⟨fun m => ?_, fun bit => ?_⟩
  · have hself : p.contribution env m slot = ability env p.getDefaultStats m n := by
      rw [contribution, hn]
    have hnone : p'.contribution env m slot = 0 := by
      rw [contribution, hid, Function.update_self]
    rw [total_contribution_update hslot hid hstats, hself, hnone, hvar, h.var_eq]
    grind
  · rw [hsuppressions, h.suppressions_iff, BitVec.getLsbD_or, Bool.or_eq_true]
    constructor
    · rintro (⟨s, n', hs, hbit⟩ | hextra)
      · by_cases heq : s = slot
        · subst heq
          rw [Option.some.inj (hn.symm.trans hs)]
          exact .inr (.inr hbit)
        · exact .inl ⟨s, n', by rw [hid, Function.update_of_ne heq, hs], hbit⟩
      · exact .inr (.inl hextra)
    · rintro (⟨s, n', hs, hbit⟩ | hextra | hbit)
      · have hne : s ≠ slot := by
          rintro rfl
          rw [hid, Function.update_self] at hs
          cases hs
        rw [hid, Function.update_of_ne hne] at hs
        exact .inl ⟨s, n', hs, hbit⟩
      · exact .inr hextra
      · exact .inl ⟨slot, n, hn, hbit⟩

/-- The item of a slot begins to count, and its abilities are added. -/
theorem Books.enable (h : Books env p surplus extra) (hslot : slot ∈ inventorySlots)
    (hn : p.enabledId slot = none) (hid : p'.enabledId = Function.update p.enabledId slot (some n))
    (hstats : p'.getDefaultStats = p.getDefaultStats)
    (hvar : ∀ m, p'.var m = p.var m + ability env p.getDefaultStats m n)
    (hsuppressions : p'.conditionSuppressions = p.conditionSuppressions ||| suppressions env n) :
    Books env p' surplus extra := by
  refine ⟨fun m => ?_, fun bit => ?_⟩
  · have hself : p'.contribution env m slot = ability env p.getDefaultStats m n := by
      rw [contribution, hid, Function.update_self, hstats]
    have hnone : p.contribution env m slot = 0 := by
      rw [contribution, hn]
    rw [total_contribution_update hslot hid hstats, hself, hnone, hvar, h.var_eq]
    grind
  · rw [hsuppressions, BitVec.getLsbD_or, Bool.or_eq_true, h.suppressions_iff]
    constructor
    · rintro ((⟨s, n', hs, hbit⟩ | hextra) | hbit)
      · have hne : s ≠ slot := by
          rintro rfl
          rw [hn] at hs
          cases hs
        exact .inl ⟨s, n', by rw [hid, Function.update_of_ne hne, hs], hbit⟩
      · exact .inr hextra
      · exact .inl ⟨slot, n, by rw [hid, Function.update_self], hbit⟩
    · rintro (⟨s, n', hs, hbit⟩ | hextra)
      · by_cases heq : s = slot
        · subst heq
          rw [hid, Function.update_self] at hs
          cases hs
          exact .inr hbit
        · rw [hid, Function.update_of_ne heq] at hs
          exact .inl (.inl ⟨s, n', hs, hbit⟩)
      · exact .inl (.inr hextra)

/-- What an item has added beyond the books is taken off. -/
theorem Books.remove (h : Books env p (fun m => ability env p.getDefaultStats m n)
      (suppressions env n))
    (hdisjoint : ∀ bit, p.Suppresses env bit → (suppressions env n).getLsbD bit = false)
    (hid : p'.enabledId = p.enabledId) (hstats : p'.getDefaultStats = p.getDefaultStats)
    (hvar : ∀ m, p'.var m = p.var m - ability env p.getDefaultStats m n)
    (hsuppressions : p'.conditionSuppressions =
      p.conditionSuppressions &&& ~~~suppressions env n) : p'.Lawful env := by
  have hcontribution : ∀ m, p'.contribution env m = p.contribution env m := fun m =>
    funext fun s => contribution_congr (congrFun hid s) hstats m
  refine ⟨fun m => ?_, fun bit => ?_⟩
  · rw [hvar, h.var_eq, hcontribution]
    grind
  · have hsame : p'.Suppresses env bit ↔ p.Suppresses env bit := by
      rw [Suppresses, Suppresses, hid]
    rw [hsuppressions, hsame, BitVec.getLsbD_and, Bool.and_eq_true, h.suppressions_iff,
      BitVec.getLsbD_not, Bool.and_eq_true, Bool.not_eq_true']
    constructor
    · rintro ⟨hleft | hbit, -, hnot⟩
      · exact hleft
      · rw [hbit] at hnot
        cases hnot
    · intro hleft
      obtain ⟨s, n', hs, hbit⟩ := hleft
      exact ⟨.inl ⟨s, n', hs, hbit⟩, decide_eq_true (BitVec.lt_of_getLsbD hbit),
        hdisjoint bit ⟨s, n', hs, hbit⟩⟩

theorem Lawful.books (h : p.Lawful env) : Books env p (fun _ => 0) 0 := by
  refine ⟨fun m => ?_, fun bit => ?_⟩
  · rw [h.var_eq, Int32.add_zero]
  · rw [h.suppressions_iff, or_iff_left (by simp)]

theorem Books.lawful (h : Books env p (fun _ => 0) 0) : p.Lawful env := by
  refine ⟨fun m => ?_, fun bit => ?_⟩
  · rw [h.var_eq, Int32.add_zero]
  · rw [h.suppressions_iff, or_iff_left (by simp)]

end Books

/-! ## Transformations in place -/

/-- The item keeps its object, and gets the new type unless there is no such type. -/
def InPlace (types : Items) (n newId : Nat) : Prop :=
  newId = n ∨ (types.get newId).id = 0 ∨
    (types.get n).alwaysOnTop = (types.get newId).alwaysOnTop ∧
      (types.get n).type = (types.get newId).type ∧ (types.get n).id ≠ (types.get newId).id

/-- The types that an item goes through when it is put on. -/
def Chain (env : EquipEnv) : Nat → Nat → Prop :=
  Relation.ReflTransGen fun n n' => env.transformEquipTo n ≠ 0 ∧ n' = env.transformEquipTo n

/-- The type adds nothing. -/
def Neutral (env : EquipEnv) (stats : Fin 4 → Int32) (n : Nat) : Prop :=
  (∀ m, ability env stats m n = 0) ∧ suppressions env n = 0

/-- A type that is turned into another one by putting it on adds nothing itself. -/
def Settled (env : EquipEnv) (stats : Fin 4 → Int32) (n : Nat) : Prop :=
  ∀ n', Chain env n n' → env.transformEquipTo n' ≠ 0 →
    Neutral env stats n' ∧ InPlace env.items n' (env.transformEquipTo n')

theorem Settled.next {stats : Fin 4 → Int32} {n : Nat} (h : Settled env stats n)
    (hne : env.transformEquipTo n ≠ 0) : Settled env stats (env.transformEquipTo n) :=
  fun n' hchain => h n' (.head ⟨hne, rfl⟩ hchain)

theorem transformBranch_of_inPlace {types : Items} {it : Item} {newId : Nat}
    (h : InPlace types it.id newId) :
    transformBranch types it newId (-1) = .keep ∨
      transformBranch types it newId (-1) = .updateThing (-1) ∧
        (types.get it.id).id ≠ (types.get newId).id := by
  have hcount : ¬((-1 : Int) = 0 ∧
      (it.isStackable types = true ∨ it.hasAttribute .charges = true)) :=
    fun h => absurd h.1 (by decide)
  rw [transformBranch, transformBranchAux]
  dsimp only
  by_cases hsame : it.id = newId
  · rw [if_pos ⟨hsame, .inl rfl⟩]
    exact .inl rfl
  · rw [if_neg fun h => hsame h.1]
    by_cases hcan : (!it.canTransform) = true
    · rw [if_pos hcan]
      exact .inl rfl
    · rw [if_neg hcan]
      by_cases hid : (types.get newId).id = 0
      · rw [if_pos hid]
        exact .inl rfl
      · obtain ⟨htop, htype, hne⟩ := (h.resolve_left (Ne.symm hsame)).resolve_left hid
        rw [if_neg hid, if_neg (not_not.mpr htop), if_pos htype, if_neg hcount]
        exact .inr ⟨rfl, hne⟩

/-! ## Items in the slots -/

/-- Every item lies in one slot at most. -/
structure Placed (p : PlayerEquipment) : Prop where
  inSlots : ∀ slot r, p.inventory slot = some r → slot ∈ inventorySlots ∧ r < p.next
  distinct : ∀ slot slot' r, p.inventory slot = some r → p.inventory slot' = some r → slot = slot'

theorem inventory_of_getThingIndex (h : p.getThingIndex r = some slot) :
    p.inventory slot = some r := by
  have hfound := List.find?_some h
  exact of_decide_eq_true hfound

theorem Placed.getThingIndex (h : Placed p) (hr : p.inventory slot = some r) :
    p.getThingIndex r = some slot := by
  cases hindex : p.getThingIndex r with
  | none =>
    have hnot := List.find?_eq_none.mp hindex slot (h.inSlots slot r hr).1
    exact absurd (decide_eq_true hr) hnot
  | some slot' => rw [h.distinct slot' slot r (inventory_of_getThingIndex hindex) hr]

/-- Only the type of an item and the flag of its slot may differ, besides the modifiers. -/
structure Reworn (slot : Nat) (r : ItemRef) (p p' : PlayerEquipment) : Prop where
  inventory : p'.inventory = p.inventory
  inventoryAbilities : ∀ s, s ≠ slot → p'.inventoryAbilities s = p.inventoryAbilities s
  item : ∀ x, x ≠ r → p'.item x = p.item x
  next : p'.next = p.next
  stats : p'.getDefaultStats = p.getDefaultStats

section Reworn

variable {p'' : PlayerEquipment} {s : Nat}

theorem Reworn.refl (slot : Nat) (r : ItemRef) (p : PlayerEquipment) : Reworn slot r p p :=
  ⟨rfl, fun _ _ => rfl, fun _ _ => rfl, rfl, rfl⟩

theorem Reworn.trans (h : Reworn slot r p p') (h' : Reworn slot r p' p'') :
    Reworn slot r p p'' :=
  ⟨h'.inventory.trans h.inventory,
    fun s hs => (h'.inventoryAbilities s hs).trans (h.inventoryAbilities s hs),
    fun x hx => (h'.item x hx).trans (h.item x hx), h'.next.trans h.next, h'.stats.trans h.stats⟩

theorem Adjusted.reworn (h : Adjusted p p') (slot : Nat) (r : ItemRef) : Reworn slot r p p' :=
  ⟨h.inventory, fun s _ => congrFun h.inventoryAbilities s, fun x _ => congrFun h.item x, h.next,
    h.stats⟩

theorem Reworn.placed (h : Reworn slot r p p') (hplaced : Placed p) : Placed p' :=
  ⟨by rw [h.inventory, h.next]; exact hplaced.inSlots,
    by rw [h.inventory]; exact hplaced.distinct⟩

/-- The items of the other slots count as before. -/
theorem Reworn.enabledId_of_ne (h : Reworn slot r p p') (hplaced : Placed p)
    (hr : p.inventory slot = some r) (hs : s ≠ slot) : p'.enabledId s = p.enabledId s := by
  rw [enabledId, enabledId, h.inventoryAbilities s hs, h.inventory]
  split_ifs
  · cases hx : p.inventory s with
    | none => rfl
    | some x =>
      have hne : x ≠ r := by
        rintro rfl
        exact hs (hplaced.distinct s slot x hx hr)
      rw [Option.map_some, Option.map_some, h.item x hne]
  · rfl

theorem enabledId_adjusted (h : Adjusted p p') : p'.enabledId = p.enabledId := by
  funext s
  rw [enabledId, enabledId, h.inventoryAbilities, h.inventory, h.item]

theorem enabledId_of_disabled (h : p.inventoryAbilities slot = false) :
    p.enabledId slot = none := by
  rw [enabledId, h]
  rfl

theorem enabledId_of_enabled (h : p.inventoryAbilities slot = true)
    (hr : p.inventory slot = some r) : p.enabledId slot = some (p.item r).id := by
  rw [enabledId, h, hr]
  rfl

theorem setItemAbility_reworn (slot : Nat) (r : ItemRef) (enabled : Bool) :
    Reworn slot r p (p.setItemAbility slot enabled) :=
  ⟨rfl, fun _ hs => Function.update_of_ne hs _ _, fun _ _ => rfl, rfl, rfl⟩

@[simp] theorem setItemAbility_self (slot : Nat) (enabled : Bool) :
    (p.setItemAbility slot enabled).inventoryAbilities slot = enabled :=
  Function.update_self _ _ _

end Reworn

/-! ## Putting an item on -/

section Equip

variable {surplus : Modifier → Int32} {extra : BitVec 32} {n : Nat}

theorem onPlayerEquip_cases (h : p.onPlayerEquip env transform r slot = some p') :
    p' = p ∨ fires env.equipEvents (p.item r).id slot = true ∧
      p.inventoryAbilities slot = false ∧
      ∃ worn, (if env.transformEquipTo (p.item r).id ≠ 0 then
          transform p r (env.transformEquipTo (p.item r).id)
        else some (p.setItemAbility slot true)) = some worn ∧
        p' = worn.addAbilities env (env.abilities (p.item r).id) := by
  rw [onPlayerEquip] at h
  cases hevent : getEvent env.equipEvents (p.item r).id slot with
  | none =>
    rw [hevent] at h
    exact .inl (Option.some.inj h).symm
  | some event =>
    rw [hevent] at h
    dsimp only at h
    by_cases hcalls : event.calls = true
    · rw [if_pos hcalls, equipItem] at h
      split_ifs at h with hcheck henabled
      · exact .inl (Option.some.inj h).symm
      · exact .inl (Option.some.inj h).symm
      · obtain ⟨worn, hworn, rfl⟩ := Option.map_eq_some_iff.mp h
        refine .inr ⟨?_, Bool.eq_false_iff.mpr henabled, worn, hworn, rfl⟩
        rw [fires, hevent]
        exact hcalls
    · rw [if_neg hcalls] at h
      exact .inl (Option.some.inj h).symm

theorem onPlayerEquip_enabled (henabled : p.inventoryAbilities slot = true)
    (h : p.onPlayerEquip env transform r slot = some p') : p' = p := by
  rcases onPlayerEquip_cases h with hsame | ⟨-, hdisabled, -⟩
  · exact hsame
  · rw [henabled] at hdisabled
    cases hdisabled

theorem onPlayerEquip_silent (hfires : fires env.equipEvents (p.item r).id slot = false)
    (h : p.onPlayerEquip env transform r slot = some p') : p' = p := by
  rcases onPlayerEquip_cases h with hsame | ⟨hfires', -⟩
  · exact hsame
  · rw [hfires] at hfires'
    cases hfires'

/-- The calls in place leave the books as they are. -/
def Keeps (env : EquipEnv) (transform : Transformer) : Prop :=
  ∀ {p p' : PlayerEquipment} {slot : Nat} {r : ItemRef} {newId : Nat}
    {surplus : Modifier → Int32} {extra : BitVec 32}, Placed p → p.inventory slot = some r →
    p.inventoryAbilities slot = false → InPlace env.items (p.item r).id newId →
    Settled env p.getDefaultStats newId → Books env p surplus extra →
    transform p r newId = some p' →
    Books env p' surplus extra ∧ Reworn slot r p p' ∧
      (p' = p ∨ Chain env newId (p'.item r).id ∧
        (fires env.equipEvents newId slot = false → p'.inventoryAbilities slot = false))

theorem books_add_neutral (h : Books env p surplus extra)
    (hneutral : Neutral env p.getDefaultStats n) :
    Books env (p.addAbilities env (env.abilities n)) surplus extra := by
  obtain ⟨hadjusted, hsuppressions, hvar⟩ := addAbilities_spec env (p := p) n
  refine h.same (enabledId_adjusted hadjusted) hadjusted.stats (funext fun m => ?_) ?_
  · rw [hvar, hneutral.1, Int32.add_zero]
  · rw [hsuppressions, hneutral.2]
    exact BitVec.or_zero

theorem onPlayerEquip_keeps (hkeeps : Keeps env transform) (hplaced : Placed p)
    (hr : p.inventory slot = some r) (hsettled : Settled env p.getDefaultStats (p.item r).id)
    (hbooks : Books env p surplus extra)
    (h : p.onPlayerEquip env transform r slot = some p') :
    Books env p' surplus extra ∧ Reworn slot r p p' ∧ Chain env (p.item r).id (p'.item r).id := by
  rcases onPlayerEquip_cases h with rfl | ⟨-, hdisabled, worn, hworn, rfl⟩
  · exact ⟨hbooks, .refl slot r p', .refl⟩
  obtain ⟨hadjusted, hsuppressions, hvar⟩ :=
    addAbilities_spec env (p := worn) (p.item r).id
  by_cases hto : env.transformEquipTo (p.item r).id = 0
  · rw [if_neg (not_not.mpr hto)] at hworn
    obtain rfl := Option.some.inj hworn
    have hreworn := (setItemAbility_reworn (p := p) slot r true).trans (hadjusted.reworn _ _)
    refine ⟨hbooks.enable (n := (p.item r).id) (hplaced.inSlots slot r hr).1
      (enabledId_of_disabled hdisabled) (funext fun s => ?_) hadjusted.stats hvar
      hsuppressions, hreworn, ?_⟩
    · by_cases hs : s = slot
      · subst hs
        rw [Function.update_self, enabledId_adjusted hadjusted]
        exact enabledId_of_enabled (setItemAbility_self s true) hr
      · rw [Function.update_of_ne hs, hreworn.enabledId_of_ne hplaced hr hs]
    · rw [hadjusted.item]
      exact .refl
  · rw [if_pos hto] at hworn
    obtain ⟨hneutral, hplace⟩ := hsettled _ .refl hto
    obtain ⟨hbooks', hreworn, hend⟩ :=
      hkeeps hplaced hr hdisabled hplace (hsettled.next hto) hbooks hworn
    rw [← hreworn.stats] at hneutral
    refine ⟨books_add_neutral hbooks' hneutral, hreworn.trans (hadjusted.reworn _ _), ?_⟩
    rw [hadjusted.item]
    rcases hend with rfl | ⟨hchain, -⟩
    · exact .refl
    · exact .head ⟨hto, rfl⟩ hchain

end Equip

/-! ## Transforming in place -/

theorem onPlayerDeEquip_disabled (h : p.inventoryAbilities slot = false) :
    p.onPlayerDeEquip env transform r slot = some p := by
  have hdeEquip : p.deEquipItem env transform r slot = some p := by
    rw [deEquipItem, h]
    rfl
  rw [onPlayerDeEquip, hdeEquip]
  split
  · rfl
  · exact ite_self _

/-- The type of an item after `updateThing`. -/
def updatedId (types : Items) (curId newId id : Nat) : Nat :=
  if (types.get curId).id ≠ (types.get newId).id then newId else id

theorem updateThing_spec (env : EquipEnv) (hindex : p.getThingIndex r = some slot)
    (curId newId : Nat) (newCount : Int) :
    ∃ it : Item, p.updateThing env r curId newId newCount = p.setItem r it ∧
      it.id = updatedId env.items curId newId (p.item r).id := by
  rw [updateThing, hindex]
  exact ⟨_, rfl, Item.setSubType_setID_id _ _ _ _⟩

theorem setItem_reworn (slot : Nat) (it : Item) : Reworn slot r p (p.setItem r it) :=
  ⟨rfl, fun _ _ => rfl, fun _ hx => Function.update_of_ne hx _ _, rfl, rfl⟩

@[simp] theorem setItem_self (it : Item) : (p.setItem r it).item r = it :=
  Function.update_self _ _ _

/-- An item whose slot is not enabled may change. -/
theorem Books.setItem {surplus : Modifier → Int32} {extra : BitVec 32}
    (h : Books env p surplus extra) (hplaced : Placed p) (hr : p.inventory slot = some r)
    (hdisabled : p.inventoryAbilities slot = false) (it : Item) :
    Books env (p.setItem r it) surplus extra := by
  refine h.same (funext fun s => ?_) rfl rfl rfl
  by_cases hs : s = slot
  · subst hs
    rw [enabledId_of_disabled hdisabled]
    exact enabledId_of_disabled (p := p.setItem r it) hdisabled
  · exact (setItem_reworn slot it).enabledId_of_ne hplaced hr hs

theorem transformer_keeps (fuel : Nat) : Keeps env (transformer env fuel) := by
  induction fuel with
  | zero =>
    intro p p' slot r newId surplus extra _ _ _ _ _ _ h
    cases h
  | succ fuel ih =>
    intro p p' slot r newId surplus extra hplaced hr hdisabled hplace hsettled hbooks h
    have hindex := hplaced.getThingIndex hr
    rw [transformer, transformItem, transformItemAux, hindex] at h
    dsimp only at h
    rcases transformBranch_of_inPlace hplace with hkeep | ⟨hupdate, hne⟩
    · rw [hkeep] at h
      obtain rfl := Option.some.inj h
      exact ⟨hbooks, .refl slot r p, .inl rfl⟩
    · rw [hupdate] at h
      dsimp only at h
      rw [onPlayerDeEquip_disabled hdisabled, Option.bind_some] at h
      obtain ⟨it, hit, hid⟩ := updateThing_spec env hindex (p.item r).id newId (-1)
      rw [updatedId, if_pos hne] at hid
      rw [hit] at h
      have hreworn := setItem_reworn (p := p) (r := r) slot it
      have hself : ((p.setItem r it).item r).id = newId := by
        rw [setItem_self, hid]
      have hsettled' : Settled env (p.setItem r it).getDefaultStats
          ((p.setItem r it).item r).id := by
        rw [hself]
        exact hsettled
      obtain ⟨hbooks', hreworn', hchain⟩ := onPlayerEquip_keeps ih (hreworn.placed hplaced) hr
        hsettled' (hbooks.setItem hplaced hr hdisabled it) h
      rw [hself] at hchain
      refine ⟨hbooks', hreworn.trans hreworn', .inr ⟨hchain, fun hsilent => ?_⟩⟩
      rw [onPlayerEquip_silent (by rw [hself]; exact hsilent) h]
      exact hdisabled

/-! ## Taking an item off -/

section DeEquip

variable {fuel : Nat} {n n' place : Nat}

/-- Two types suppress no condition in common. -/
def Apart (env : EquipEnv) (n n' : Nat) : Prop := suppressions env n &&& suppressions env n' = 0

theorem Apart.getLsbD (h : Apart env n n') {bit : Nat}
    (hbit : (suppressions env n).getLsbD bit = true) :
    (suppressions env n').getLsbD bit = false := by
  have hand := congrArg (fun b : BitVec 32 => b.getLsbD bit) h
  simp only [BitVec.getLsbD_and, hbit, Bool.true_and, BitVec.ofNat_eq_ofNat,
    BitVec.getLsbD_zero] at hand
  exact hand

/-- What takes the item off leaves alone what the other items suppress. -/
def OthersApart (env : EquipEnv) (p : PlayerEquipment) (slot n : Nat) : Prop :=
  ∀ s, s ≠ slot → ∀ n', p.enabledId s = some n' → Apart env n' n

/-- Taking off the item turns it, where it lies, into another one that adds its own abilities. -/
def Turns (env : EquipEnv) (p : PlayerEquipment) (n : Nat) : Prop :=
  env.transformDeEquipTo n ≠ 0 → InPlace env.items n (env.transformDeEquipTo n) ∧
    Settled env p.getDefaultStats (env.transformDeEquipTo n) ∧
    ∀ n', Chain env (env.transformDeEquipTo n) n' → Apart env n' n

theorem onPlayerDeEquip_cases (h : p.onPlayerDeEquip env transform r slot = some p') :
    p' = p ∧ (p.inventoryAbilities slot = true →
        fires env.deEquipEvents (p.item r).id slot = false) ∨
      p.inventoryAbilities slot = true ∧
      ∃ bare, (if env.transformDeEquipTo (p.item r).id ≠ 0 then
          transform (p.setItemAbility slot false) r (env.transformDeEquipTo (p.item r).id)
        else some (p.setItemAbility slot false)) = some bare ∧
        p' = bare.removeAbilities env (env.abilities (p.item r).id) := by
  rw [onPlayerDeEquip] at h
  cases hevent : getEvent env.deEquipEvents (p.item r).id slot with
  | none =>
    rw [hevent] at h
    exact .inl ⟨(Option.some.inj h).symm, fun _ => by rw [fires, hevent]; rfl⟩
  | some event =>
    rw [hevent] at h
    dsimp only at h
    by_cases hcalls : event.calls = true
    · rw [if_pos hcalls, deEquipItem] at h
      cases henabled : p.inventoryAbilities slot with
      | false =>
        rw [henabled] at h
        exact .inl ⟨(Option.some.inj h).symm, fun habsurd => nomatch habsurd⟩
      | true =>
        rw [henabled] at h
        obtain ⟨bare, hbare, rfl⟩ := Option.map_eq_some_iff.mp h
        exact .inr ⟨rfl, bare, hbare, rfl⟩
    · rw [if_neg hcalls] at h
      refine .inl ⟨(Option.some.inj h).symm, fun _ => ?_⟩
      rw [fires, hevent]
      exact Bool.eq_false_iff.mpr hcalls

theorem onPlayerDeEquip_silent (hsilent : fires env.deEquipEvents (p.item r).id slot = false)
    (h : p.onPlayerDeEquip env transform r slot = some p') : p' = p := by
  rw [onPlayerDeEquip] at h
  rw [fires] at hsilent
  cases hevent : getEvent env.deEquipEvents (p.item r).id slot with
  | none =>
    rw [hevent] at h
    exact (Option.some.inj h).symm
  | some event =>
    rw [hevent] at h hsilent
    have hcalls : ¬event.calls = true := Bool.eq_false_iff.mp hsilent
    dsimp only at h
    rw [if_neg hcalls] at h
    exact (Option.some.inj h).symm

theorem transformer_elsewhere (hindex : p.getThingIndex r = none) {newId : Nat}
    (h : transformer env fuel p r newId = some p') : p' = p := by
  cases fuel with
  | zero => cases h
  | succ fuel =>
    rw [transformer, transformItem, transformItemAux, hindex] at h
    exact (Option.some.inj h).symm

/-- The books when the abilities are still to be taken off. -/
structure Bare (env : EquipEnv) (p : PlayerEquipment) (n : Nat) : Prop where
  books : Books env p (fun m => ability env p.getDefaultStats m n) (suppressions env n)
  apart : ∀ bit, p.Suppresses env bit → (suppressions env n).getLsbD bit = false

theorem Bare.removed (h : Bare env p n) : (p.removeAbilities env (env.abilities n)).Lawful env := by
  obtain ⟨hadjusted, hsuppressions, hvar⟩ := removeAbilities_spec env (p := p) n
  exact h.books.remove h.apart (enabledId_adjusted hadjusted) hadjusted.stats hvar hsuppressions

/-- The slot of a lawful player ceases to count. -/
theorem Lawful.bare (h : p.Lawful env) (hslot : slot ∈ inventorySlots)
    (hn : p.enabledId slot = some n) (hid : p'.enabledId = Function.update p.enabledId slot none)
    (hstats : p'.getDefaultStats = p.getDefaultStats) (hvar : p'.var = p.var)
    (hsuppressions : p'.conditionSuppressions = p.conditionSuppressions)
    (hothers : OthersApart env p slot n) : Bare env p' n := by
  have hbooks := h.books.disable hslot hn hid hstats hvar hsuppressions
  simp only [Int32.zero_add, BitVec.ofNat_eq_ofNat, BitVec.zero_or] at hbooks
  rw [← hstats] at hbooks
  refine ⟨hbooks, ?_⟩
  rintro bit ⟨s, n', hs, hbit⟩
  by_cases heq : s = slot
  · subst heq
    rw [hid, Function.update_self] at hs
    cases hs
  · rw [hid, Function.update_of_ne heq] at hs
    exact (hothers s heq n' hs).getLsbD hbit

theorem enabledId_setItemAbility_false (p : PlayerEquipment) (slot : Nat) :
    (p.setItemAbility slot false).enabledId = Function.update p.enabledId slot none := by
  funext s
  by_cases hs : s = slot
  · subst hs
    rw [Function.update_self]
    exact enabledId_of_disabled (setItemAbility_self s false)
  · rw [Function.update_of_ne hs, enabledId, enabledId]
    have hkept : (p.setItemAbility slot false).inventoryAbilities s = p.inventoryAbilities s :=
      Function.update_of_ne hs _ _
    rw [hkept]
    rfl

/-- An item that is not in the inventory any more is taken off. -/
theorem deEquip_elsewhere (hindex : p.getThingIndex r = none)
    (hbare : Bare env (p.setItemAbility slot false) (p.item r).id)
    (henabled : p.inventoryAbilities slot = true)
    (hfires : fires env.deEquipEvents (p.item r).id slot = true)
    (h : p.onPlayerDeEquip env (transformer env fuel) r slot = some p') :
    p'.Lawful env ∧ Adjusted (p.setItemAbility slot false) p' := by
  rcases onPlayerDeEquip_cases h with ⟨-, hsilent⟩ | ⟨-, bare, hmoved, rfl⟩
  · rw [hsilent henabled] at hfires
    cases hfires
  · have hsame : bare = p.setItemAbility slot false := by
      split_ifs at hmoved
      · exact transformer_elsewhere (p := p.setItemAbility slot false) hindex hmoved
      · exact (Option.some.inj hmoved).symm
    subst hsame
    exact ⟨hbare.removed, (removeAbilities_spec env _).1⟩

/-- An item in a slot that does not count is taken off the slot that it was in, or is in. -/
theorem deEquip_inside (hplaced : Placed p) (hr : p.inventory place = some r)
    (hdisabled : (p.setItemAbility slot false).inventoryAbilities place = false)
    (hbare : Bare env (p.setItemAbility slot false) (p.item r).id)
    (hturns : Turns env p (p.item r).id) (henabled : p.inventoryAbilities slot = true)
    (hfires : fires env.deEquipEvents (p.item r).id slot = true)
    (h : p.onPlayerDeEquip env (transformer env fuel) r slot = some p') :
    p'.Lawful env ∧ Reworn place r (p.setItemAbility slot false) p' ∧
      ((p'.item r).id = (p.item r).id ∧ p'.inventoryAbilities place = false ∨
        env.transformDeEquipTo (p.item r).id ≠ 0 ∧
          Chain env (env.transformDeEquipTo (p.item r).id) (p'.item r).id ∧
          (fires env.equipEvents (env.transformDeEquipTo (p.item r).id) place = false →
            p'.inventoryAbilities place = false)) := by
  rcases onPlayerDeEquip_cases h with ⟨-, hsilent⟩ | ⟨-, bare, hmoved, rfl⟩
  · rw [hsilent henabled] at hfires
    cases hfires
  have hadjusted := (removeAbilities_spec env (p := bare) (p.item r).id).1
  have hplaced' : Placed (p.setItemAbility slot false) := ⟨hplaced.inSlots, hplaced.distinct⟩
  rw [hadjusted.item, hadjusted.inventoryAbilities]
  by_cases hto : env.transformDeEquipTo (p.item r).id = 0
  · rw [if_neg (not_not.mpr hto)] at hmoved
    obtain rfl := Option.some.inj hmoved
    exact ⟨hbare.removed, hadjusted.reworn _ _, .inl ⟨rfl, hdisabled⟩⟩
  · rw [if_pos hto] at hmoved
    obtain ⟨hplace, hsettled, hchains⟩ := hturns hto
    obtain ⟨hbooks, hreworn, hend⟩ := transformer_keeps fuel hplaced'
      (p := p.setItemAbility slot false) hr hdisabled hplace hsettled hbare.books hmoved
    have hbare' : Bare env bare (p.item r).id := by
      refine ⟨hreworn.stats ▸ hbooks, ?_⟩
      rintro bit ⟨s, n', hs, hbit⟩
      by_cases heq : s = place
      · subst heq
        rcases hend with rfl | ⟨hchain, -⟩
        · exact hbare.apart bit ⟨s, n', hs, hbit⟩
        · have hid : n' = (bare.item r).id := by
            rw [enabledId, hreworn.inventory, show (p.setItemAbility slot false).inventory s =
              some r from hr] at hs
            split_ifs at hs
            exact (Option.some.inj hs).symm
          exact (hchains _ hchain).getLsbD (hid ▸ hbit)
      · rw [hreworn.enabledId_of_ne hplaced' hr heq] at hs
        exact hbare.apart bit ⟨s, n', hs, hbit⟩
    refine ⟨hbare'.removed, hreworn.trans (hadjusted.reworn _ _), ?_⟩
    rcases hend with rfl | ⟨hchain, hsilent⟩
    · exact .inl ⟨rfl, hdisabled⟩
    · exact .inr ⟨hto, hchain, hsilent⟩

end DeEquip

end Eloth.PlayerEquipment
