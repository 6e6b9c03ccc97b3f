import Mathlib.Algebra.Order.BigOperators.Group.List
import Eloth.RemoveItems

/-!
# Counting and removing

`Player::getItemTypeCount` looks into every container, also into one that is of the type itself.
`Player::removeItemOfType` does not look into an equipped item of the type. Where both see the same,
exactly the amount goes.
-/

namespace Eloth.Player

/-- A store that the operations on items leave behind: counts are bytes, and what stacks holds
nothing. -/
structure Stored (env : Env) (w : World) : Prop where
  housed : Housed w
  byte : ∀ r, (w.item r).getItemCount < 256
  plain : ∀ r, (w.item r).isStackable env.items = true → w.isContainer r = false

variable (env : Env) (w : World) (p : PlayerId) (itemId : Nat) (subType : Int) (amount : UInt32)

/-- The units of the type that the player holds, without the bound of 32 bits. -/
def total : Nat :=
  (((w.heldItems p).filter (isOfType env w itemId subType)).map fun r =>
    (countOf env w subType r).toNat).sum

/-- The units of the type that `removeItemOfType` comes to. -/
def reachable : Nat :=
  ((found env w p itemId subType false).map fun r => (countOf env w subType r).toNat).sum

/-- The items that are taken: the first ones found that make up the amount. -/
def taken : Option (List ItemRef) :=
  collect env w subType amount (found env w p itemId subType false) [] 0

/-- Removing and counting agree: what is counted can be removed, the amount goes and nothing else
does, and a refusal changes nothing. -/
def Agrees : Prop :=
  let result := removeItemOfType env w p itemId subType amount false
  (result.1 = true ↔ amount ≤ getItemTypeCount env w p itemId subType) ∧
    (result.1 = true → ∃ itemList, (∀ r ∈ itemList, w.Held p r ∧
      isOfType env w itemId subType r = true) ∧
      Pays w result.2 p itemId amount.toNat itemList) ∧
    (result.1 = false → result.2 = w)

/-- The amount is found, or is not there at all. -/
def Reached : Prop := amount.toNat ≤ reachable env w p itemId subType ∨
  total env w p itemId subType < amount.toNat

/-- No item that is taken is fixed. -/
def Removable : Prop := ∀ itemList, taken env w p itemId subType amount = some itemList →
  ∀ r ∈ itemList, (w.item r).canRemove = true

/-- The items that are taken have nothing in them that stays, and if they do not stack they make up
the amount exactly. -/
def TakenWhole : Prop := ∀ itemList, taken env w p itemId subType amount = some itemList →
  (∀ c ∈ itemList, ∀ r ∈ w.contents (.container c), r ∈ itemList) ∧
  ((env.items.get itemId).stackable = false →
    (itemList.map (w.unitsOf itemId)).sum = amount.toNat)

variable {env w p itemId subType amount}

theorem foldl_toNat (l : List ItemRef) (count : UInt32) :
    (l.foldl (fun count item =>
      if (w.item item).id = itemId then count + (w.item item).countByType env.items subType
      else count) count).toNat =
    (count.toNat + ((l.filter (isOfType env w itemId subType)).map fun r =>
      (countOf env w subType r).toNat).sum) % 2 ^ 32 := by
  induction l generalizing count with
  | nil => exact (Nat.mod_eq_of_lt count.toNat_lt).symm
  | cons item l ih =>
    rw [List.foldl_cons, ih, List.filter_cons]
    unfold isOfType countOf
    by_cases hid : (w.item item).id = itemId
    · by_cases hzero : (w.item item).countByType env.items subType = 0
      · simp [hid, hzero]
      · simp [hid, hzero, Nat.add_assoc]
    · simp [hid]

theorem getItemTypeCount_toNat (h : total env w p itemId subType < 2 ^ 32) :
    (getItemTypeCount env w p itemId subType).toNat = total env w p itemId subType := by
  unfold getItemTypeCount
  rw [foldItems_eq, foldl_toNat, UInt32.toNat_zero, Nat.zero_add]
  exact Nat.mod_eq_of_lt h

section Collect

variable {l itemList taken : List ItemRef} {item : ItemRef} {count : UInt32}

theorem toNat_count (hsmall : count.toNat +
    ((item :: l).map fun r => (countOf env w subType r).toNat).sum < 2 ^ 32) :
    (count + countOf env w subType item).toNat =
      count.toNat + (countOf env w subType item).toNat := by
  rw [List.map_cons, List.sum_cons] at hsmall
  rw [UInt32.toNat_add]
  exact Nat.mod_eq_of_lt (by omega)

theorem collect_none (hlt : count < amount)
    (hsmall : count.toNat + (l.map fun r => (countOf env w subType r).toNat).sum < 2 ^ 32) :
    collect env w subType amount l itemList count = none ↔
      count.toNat + (l.map fun r => (countOf env w subType r).toNat).sum < amount.toNat := by
  induction l generalizing itemList count with
  | nil => simpa [collect] using UInt32.lt_iff_toNat_lt.mp hlt
  | cons item l ih =>
    have hcount := toNat_count hsmall
    rw [List.map_cons, List.sum_cons] at hsmall ⊢
    unfold collect
    split_ifs with henough
    · rw [UInt32.le_iff_toNat_le, hcount] at henough
      exact ⟨(fun h => nomatch h), fun h => by omega⟩
    · rw [UInt32.not_le] at henough
      rw [ih henough (by omega), hcount, Nat.add_assoc]

theorem collect_some
    (hsmall : count.toNat + (l.map fun r => (countOf env w subType r).toNat).sum < 2 ^ 32)
    (h : collect env w subType amount l itemList count = some taken) :
    ∃ first rest, l = first ++ rest ∧ taken = itemList ++ first ∧
      amount.toNat ≤ count.toNat + (first.map fun r => (countOf env w subType r).toNat).sum := by
  induction l generalizing itemList count with
  | nil => cases h
  | cons item l ih =>
    have hcount := toNat_count hsmall
    rw [List.map_cons, List.sum_cons] at hsmall
    unfold collect at h
    split_ifs at h with henough
    · rw [UInt32.le_iff_toNat_le, hcount] at henough
      exact ⟨[item], l, rfl, (Option.some.inj h).symm, by simpa using henough⟩
    · obtain ⟨first, rest, rfl, rfl, hsum⟩ := ih (by omega) h
      refine ⟨item :: first, rest, rfl, by simp, ?_⟩
      rw [List.map_cons, List.sum_cons]
      omega

end Collect

theorem found_sublist : (found env w p itemId subType false).Sublist (w.heldItems p) := by
  have hslot : ∀ item, (foundIn env w itemId subType false item).Sublist (w.heldIn item) := by
    intro item
    unfold foundIn World.heldIn
    split_ifs
    · exact List.nil_sublist _
    · exact List.nil_sublist _
    · exact List.Sublist.cons_cons item (List.nil_sublist _)
    · exact List.Sublist.cons_cons item (List.nil_sublist _)
    · exact List.Sublist.cons item List.filter_sublist
    · exact List.nil_sublist _
  unfold found World.heldItems
  change List.Sublist _ ((inventorySlots.filterMap (w.player p).inventory).flatMap w.heldIn)
  induction inventorySlots.filterMap (w.player p).inventory with
  | nil => exact List.Sublist.slnil
  | cons item l ih =>
    rw [List.flatMap_cons, List.flatMap_cons]
    exact (hslot item).append ih

theorem isOfType_of_found {r : ItemRef} (h : r ∈ found env w p itemId subType false) :
    isOfType env w itemId subType r = true := by
  obtain ⟨item, -, hr⟩ := List.mem_flatMap.mp h
  unfold foundIn at hr
  split_ifs at hr with hid hzero hbox
  · cases hr
  · obtain rfl := List.mem_singleton.mp hr
    unfold isOfType
    simpa [hzero] using hid
  · exact (List.mem_filter.mp hr).2
  · cases hr

theorem reachable_le_total : reachable env w p itemId subType ≤ total env w p itemId subType := by
  have hsub : (found env w p itemId subType false).Sublist
      ((w.heldItems p).filter (isOfType env w itemId subType)) := by
    have hfilter := (@found_sublist env w p itemId subType).filter
      (isOfType env w itemId subType)
    rwa [List.filter_eq_self.mpr fun r hr => isOfType_of_found hr] at hfilter
  exact (hsub.map _).sum_le_sum fun _ _ => Nat.zero_le _

theorem countOf_toNat (hw : Stored env w) {r : ItemRef}
    (h : isOfType env w itemId subType r = true) :
    (w.item r).id = itemId ∧ 0 < (w.item r).getItemCount ∧
      (countOf env w subType r).toNat = w.unitsOf itemId r := by
  unfold isOfType at h
  rw [Bool.and_eq_true, decide_eq_true_eq, bne_iff_ne] at h
  obtain ⟨hid, hne⟩ := h
  have hcount : countOf env w subType r = .ofNat (w.item r).getItemCount := by
    unfold countOf Item.countByType at hne ⊢
    split_ifs at hne ⊢ with hmatch
    · rfl
    · exact absurd rfl hne
  refine ⟨hid, Nat.pos_of_ne_zero fun hzero => hne ?_, ?_⟩
  · rw [hcount, hzero]
    rfl
  · have hbyte := hw.byte r
    unfold World.unitsOf
    rw [hcount, if_pos hid, UInt32.toNat_ofNat']
    exact Nat.mod_eq_of_lt (by omega)

theorem removes_iff (hamount : amount ≠ 0) (hsmall : total env w p itemId subType < 2 ^ 32) :
    (removeItemOfType env w p itemId subType amount false).1 = true ↔
      amount.toNat ≤ reachable env w p itemId subType := by
  have hpos : (0 : UInt32) < amount := UInt32.pos_iff_ne_zero.mpr hamount
  have hnone := @collect_none env w subType amount (found env w p itemId subType false) [] 0 hpos
    (by
      have hle := @reachable_le_total env w p itemId subType
      unfold reachable at hle
      rw [UInt32.toNat_zero]
      omega)
  rw [UInt32.toNat_zero, Nat.zero_add] at hnone
  unfold removeItemOfType
  rw [if_neg hamount]
  cases hcollect : collect env w subType amount (found env w p itemId subType false) [] 0 with
  | none =>
    have hlt := hnone.mp hcollect
    unfold reachable
    simpa using hlt
  | some itemList =>
    have hle := mt hnone.mpr (by rw [hcollect]; exact fun h => nomatch h)
    unfold reachable
    simpa using hle

/-- The items that are taken make up the amount. -/
theorem taking_of_taken (hw : Stored env w) (hsmall : total env w p itemId subType < 2 ^ 32)
    {itemList : List ItemRef} (h : taken env w p itemId subType amount = some itemList)
    (hremove : ∀ r ∈ itemList, (w.item r).canRemove = true) :
    Game.Taking w p itemId itemList ∧ amount.toNat ≤ (itemList.map (w.unitsOf itemId)).sum ∧
      ∀ r ∈ itemList, w.Held p r ∧ isOfType env w itemId subType r = true := by
  obtain ⟨first, rest, hfound, hfirst, henough⟩ := collect_some (by
    have hle := @reachable_le_total env w p itemId subType
    unfold reachable at hle
    rw [UInt32.toNat_zero]
    omega) h
  rw [List.nil_append] at hfirst
  subst hfirst
  have hmem : ∀ r ∈ itemList, r ∈ found env w p itemId subType false := fun r hr => by
    rw [hfound]
    exact List.mem_append_left rest hr
  have hheld : ∀ r ∈ itemList, w.Held p r := fun r hr =>
    (mem_heldItems hw.housed).mp (found_sublist.subset (hmem r hr))
  have htype : ∀ r ∈ itemList, isOfType env w itemId subType r = true := fun r hr =>
    isOfType_of_found (hmem r hr)
  have hnodup : itemList.Nodup := by
    have hall := (@found_sublist env w p itemId subType).nodup (nodup_heldItems hw.housed)
    rw [hfound] at hall
    exact (List.nodup_append.mp hall).1
  refine ⟨⟨hnodup, hheld, fun r hr => (countOf_toNat hw (htype r hr)).1, hremove,
    fun r hr => (countOf_toNat hw (htype r hr)).2.1⟩, ?_, fun r hr => ⟨hheld r hr, htype r hr⟩⟩
  rw [UInt32.toNat_zero, Nat.zero_add] at henough
  rwa [List.map_congr_left fun r hr => (countOf_toNat hw (htype r hr)).2.2] at henough

theorem empty_of_stackable (hw : Stored env w) {c : ItemRef} (hid : (w.item c).id = itemId)
    (hstack : (env.items.get itemId).stackable = true) : w.contents (.container c) = [] := by
  have hplain : w.isContainer c = false := hw.plain c (by
    unfold Item.isStackable
    rw [hid]
    exact hstack)
  refine List.eq_nil_iff_forall_not_mem.mpr fun r hr => ?_
  rw [World.isContainer_of_mem hr] at hplain
  cases hplain

theorem taken_pays (hw : Stored env w) (hsmall : total env w p itemId subType < 2 ^ 32)
    {itemList : List ItemRef} (h : taken env w p itemId subType amount = some itemList)
    (hremove : Removable env w p itemId subType amount)
    (hwhole : TakenWhole env w p itemId subType amount) :
    (∀ r ∈ itemList, w.Held p r ∧ isOfType env w itemId subType r = true) ∧
      Pays w (Game.internalRemoveItems env w itemList amount.toNat
        (env.items.get itemId).stackable) p itemId amount.toNat itemList := by
  obtain ⟨hclosed, hexact⟩ := hwhole itemList h
  obtain ⟨htaking, henough, htype⟩ := taking_of_taken hw hsmall h (hremove itemList h)
  refine ⟨htype, ?_⟩
  unfold Game.internalRemoveItems
  split_ifs with hstack
  · exact Game.removeStacks_pays hw.housed htaking hstack
      (fun c hc => empty_of_stackable hw (htaking.id c hc) hstack) hw.byte henough
  · rw [Bool.not_eq_true] at hstack
    have hpays := @Game.removeWhole_pays env w p itemId itemList hw.housed htaking hclosed
    rwa [hexact hstack] at hpays

/-- If the removal pays the amount, then nothing goes with the items that are taken. -/
theorem takenWhole_of_pays (hw : Stored env w) (hsmall : total env w p itemId subType < 2 ^ 32)
    {itemList paid : List ItemRef} (h : taken env w p itemId subType amount = some itemList)
    (hremove : Removable env w p itemId subType amount)
    (hpaid : ∀ r ∈ paid, w.Held p r ∧ isOfType env w itemId subType r = true)
    (hpays : Pays w (Game.internalRemoveItems env w itemList amount.toNat
      (env.items.get itemId).stackable) p itemId amount.toNat paid) :
    TakenWhole env w p itemId subType amount := by
  intro itemList' h'
  obtain rfl := Option.some.inj (h.symm.trans h')
  obtain ⟨htaking, henough, htype⟩ := taking_of_taken hw hsmall h (hremove itemList h)
  cases hstack : (env.items.get itemId).stackable with
  | true =>
    refine ⟨fun c hc r hr => ?_, fun h => nomatch h⟩
    rw [empty_of_stackable hw (htaking.id c hc) hstack] at hr
    cases hr
  | false =>
    rw [hstack] at hpays
    change Pays w (Game.removeWhole env w itemList) p itemId amount.toNat paid at hpays
    have hcleared : Cleared w (Game.removeWhole env w itemList) itemList :=
      Game.removeWhole_cleared hw.housed htaking.nodup (fun r hr => (htaking.held r hr).stands)
        htaking.canRemove htaking.count
    have hunits := hpays.units
    have hclosed : ∀ c ∈ itemList, ∀ r ∈ w.contents (.container c), r ∈ itemList := by
      intro c hc r hr
      by_contra hnot
      have hheld : w.Held p r := .inside (htaking.held c hc) hr
      have hlost := @Cleared.not_held w _ p r itemList c hcleared hw.housed hc hr
      -- an item that goes along counts too, so that more than the amount goes
      have hmember : r ∈ paid := by
        by_contra hother
        exact hlost ((hpays.held r hother).mpr hheld)
      obtain ⟨hid, hpos, -⟩ := countOf_toNat hw (hpaid r hmember).2
      have hle : (Game.removeWhole env w itemList).heldUnits p itemId +
          ((itemList.map (w.unitsOf itemId)).sum + w.unitsOf itemId r) ≤ w.heldUnits p itemId :=
        hcleared.heldUnits_le hw.housed htaking.nodup htaking.held hheld hnot hlost
      have hone : w.unitsOf itemId r = (w.item r).getItemCount := if_pos hid
      omega
    refine ⟨hclosed, fun _ => ?_⟩
    have hgone : (Game.removeWhole env w itemList).heldUnits p itemId +
        (itemList.map (w.unitsOf itemId)).sum = w.heldUnits p itemId :=
      hcleared.heldUnits hw.housed htaking.nodup htaking.held hclosed
    omega

theorem answer_iff (hamount : amount ≠ 0) (hsmall : total env w p itemId subType < 2 ^ 32) :
    ((removeItemOfType env w p itemId subType amount false).1 = true ↔
      amount ≤ getItemTypeCount env w p itemId subType) ↔
      Reached env w p itemId subType amount := by
  have hle := @reachable_le_total env w p itemId subType
  rw [removes_iff hamount hsmall, UInt32.le_iff_toNat_le, getItemTypeCount_toNat hsmall]
  unfold Reached
  constructor
  · intro h
    by_cases hfound : amount.toNat ≤ reachable env w p itemId subType
    · exact .inl hfound
    · exact .inr (not_le.mp (mt h.mpr hfound))
  · rintro (hfound | hless)
    · exact ⟨fun _ => hfound.trans hle, fun _ => hfound⟩
    · exact ⟨fun h => h.trans hle, fun h => absurd h (not_le.mpr hless)⟩

/-- Where nothing that is taken is fixed, removing agrees with counting exactly when the amount is
found or not there at all, and what is taken goes whole. -/
theorem agrees_iff (hw : Stored env w) (hamount : amount ≠ 0)
    (hsmall : total env w p itemId subType < 2 ^ 32)
    (hremove : Removable env w p itemId subType amount) :
    Agrees env w p itemId subType amount ↔
      Reached env w p itemId subType amount ∧ TakenWhole env w p itemId subType amount := by
  unfold Agrees
  dsimp only
  rw [answer_iff hamount hsmall]
  refine and_congr_right fun _ => ?_
  unfold removeItemOfType
  rw [if_neg hamount]
  cases htaken : collect env w subType amount (found env w p itemId subType false) [] 0 with
  | none =>
    have hvacuous : TakenWhole env w p itemId subType amount := fun itemList h => by
      unfold taken at h
      rw [htaken] at h
      cases h
    exact ⟨fun _ => hvacuous, fun _ => ⟨(fun h => nomatch h), fun _ => rfl⟩⟩
  | some itemList =>
    constructor
    · rintro ⟨hpaid, -⟩
      obtain ⟨paid, htype, hpays⟩ := hpaid rfl
      exact takenWhole_of_pays hw hsmall htaken hremove htype hpays
    · exact fun hwhole => ⟨fun _ => ⟨itemList, taken_pays hw hsmall htaken hremove hwhole⟩,
        fun h => nomatch h⟩

/-- Removing agrees with counting in every store. -/
def AlwaysAgrees : Prop := ∀ (env : Env) (w : World) (p : PlayerId) (itemId : Nat) (subType : Int)
  (amount : UInt32), Stored env w → amount ≠ 0 → Agrees env w p itemId subType amount

/-! ### A bag in a bag -/

def bagEnv : Env := Env.quiet sampleItems

def looseItems : World :=
  World.ofItems [sampleItem bag 1, sampleItem bag 1, sampleItem bread 1]

def bagOnBack : World := addThing looseItems 0 CONST_SLOT_BACKPACK 0

def bagInBag : World := Container.addThing bagEnv bagOnBack 0 0 1

/-- The bag on the back has another bag and a loaf of bread in it. -/
def packed : World := Container.addThing bagEnv bagInBag 0 0 2

theorem looseItems_all {P : Item → Prop}
    (hblank : P (World.blank.item 0)) (hbag : P (sampleItem bag 1))
    (hbread : P (sampleItem bread 1)) (r : ItemRef) : P (looseItems.item r) :=
  World.ofItems_forall hblank (by simp [hbag, hbread]) r

theorem contents_looseItems (c : Cylinder) : looseItems.contents c = [] := by
  cases c with
  | container r =>
    exact looseItems_all (P := fun it =>
      ((it.getContainer.getD ⟨.container, 0, [], 0⟩).itemlist = [])) (by decide) (by decide)
      (by decide) r
  | player p => rfl
  | tile pos => rfl

theorem housed_looseItems : Housed looseItems := by
  have hnone : ∀ r, looseItems.getParentContainer r = none := by
    intro r
    unfold World.getParentContainer
    rw [show (looseItems.item r).parent = none from
      looseItems_all (P := fun it => it.parent = none) (by decide) (by decide) (by decide) r]
    rfl
  refine ⟨fun {c r} hr => ?_, fun c => ?_, fun {c r} hr => ?_, fun a ha => ?_, fun {r c} hr => ?_,
    fun {r c} hr => ?_⟩
  · rw [contents_looseItems] at hr
    cases hr
  · rw [contents_looseItems]
    exact List.nodup_nil
  · rw [contents_looseItems] at hr
    cases hr
  · obtain ⟨b, -, hb⟩ := Relation.TransGen.tail'_iff.mp ha
    rw [Forest.IsParent, hnone] at hb
    cases hb
  · rw [hnone] at hr
    cases hr
  · rw [hnone] at hr
    cases hr

/-- An item without a parent is below no other. -/
theorem not_above_root {w : World} {item self : ItemRef} (hne : item ≠ self)
    (h : w.getParentContainer self = none) :
    ¬ Forest.AboveOrSelf w.getParentContainer item self := by
  intro habove
  rcases Relation.ReflTransGen.cases_tail habove with heq | ⟨b, -, hb⟩
  · exact hne heq.symm
  · rw [Forest.IsParent, h] at hb
    cases hb

theorem onBack_put : Put looseItems bagOnBack (.player 0) 0 := addThing_put (by decide) rfl

theorem inBag_put : Put bagOnBack bagInBag (.container 0) 1 :=
  Container.addThing_put (by decide) (by decide)

theorem packed_put : Put bagInBag packed (.container 0) 2 :=
  Container.addThing_put (by decide) (by decide)

theorem not_mem_bagOnBack {c : Cylinder} {r : ItemRef} (hne : r ≠ 0) :
    r ∉ bagOnBack.contents c := by
  intro hr
  rcases onBack_put.mem_iff.mp hr with ⟨heq, -⟩ | hr
  · exact hne heq
  · rw [contents_looseItems] at hr
    cases hr

theorem not_mem_bagInBag {c : Cylinder} : 2 ∉ bagInBag.contents c := by
  intro hr
  rcases inBag_put.mem_iff.mp hr with ⟨heq, -⟩ | hr
  · exact absurd heq (by decide)
  · exact not_mem_bagOnBack (by decide) hr

theorem housed_packed : Housed packed := by
  have hback : Housed bagOnBack := by
    refine onBack_put.housed housed_looseItems (by decide) (fun c hc => ?_) fun _ h => nomatch h
    rw [contents_looseItems] at hc
    cases hc
  have hbag : Housed bagInBag := by
    refine inBag_put.housed hback (by decide) (fun c => not_mem_bagOnBack (by decide)) ?_
    intro self h
    obtain rfl := Cylinder.container.inj h
    exact ⟨by decide, by decide, not_above_root (by decide) (by decide)⟩
  refine packed_put.housed hbag (by decide) (fun c => not_mem_bagInBag) fun self h => ?_
  obtain rfl := Cylinder.container.inj h
  exact ⟨by decide, by decide, not_above_root (by decide) (by decide)⟩

theorem stored_packed : Stored bagEnv packed := by
  have hrecord : ∀ r, (packed.item r).record = (looseItems.item r).record := fun r =>
    (packed_put.record r).trans ((inBag_put.record r).trans (onBack_put.record r))
  refine ⟨housed_packed, fun r => ?_, fun r hstack => ?_⟩
  · unfold Item.getItemCount
    rw [count_of_record (hrecord r)]
    exact looseItems_all (P := fun it => it.count < 256) (by decide) (by decide) (by decide) r
  · have hplain : (looseItems.item r).isStackable bagEnv.items = false :=
      looseItems_all (P := fun it => it.isStackable bagEnv.items = false) (by decide) (by decide)
        (by decide) r
    unfold Item.isStackable at hstack hplain
    rw [id_of_record (hrecord r), hplain] at hstack
    cases hstack

theorem agrees_bread : Agrees bagEnv packed 0 bread.id (-1) 1 := by
  refine (agrees_iff stored_packed (by decide) (by decide) ?_).mpr ⟨.inl (by decide), ?_⟩
  all_goals
    intro itemList h
    have htaken : taken bagEnv packed 0 bread.id (-1) 1 = some [2] := by decide
    obtain rfl := Option.some.inj (htaken.symm.trans h)
  · decide
  · refine ⟨fun c hc r hr => ?_, by decide⟩
    have hempty : packed.contents (.container 2) = [] := by decide
    rw [List.mem_singleton.mp hc, hempty] at hr
    cases hr

/-- Two bags are counted, and one is found. -/
theorem not_alwaysAgrees : ¬ AlwaysAgrees := by
  intro h
  have hagrees := (h bagEnv packed 0 bag.id (-1) 2 stored_packed (by decide)).1
  exact absurd (hagrees.mpr (by decide)) (by decide)

end Eloth.Player
