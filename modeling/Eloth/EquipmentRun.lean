import Eloth.EquipmentBooks
import Eloth.Sample

/-!
# Runs of the equipment

Items come into the slots, leave them, are moved and transformed, and the default stats change. The
modifiers stay what the equipment adds as long as no step meets one of the cases in which something
else is taken off than was added.
-/

namespace Eloth.PlayerEquipment

variable {env : EquipEnv} {p p' : PlayerEquipment} {r : ItemRef} {slot : Nat}

/-! ## Steps -/

/-- What holds between the operations. -/
structure Kept (env : EquipEnv) (p : PlayerEquipment) : Prop where
  lawful : p.Lawful env
  placed : Placed p
  worn : ∀ slot, p.inventoryAbilities slot = true → ∃ r, p.inventory slot = some r

/-- An item leaves an enabled slot, and there is an event that takes it off. -/
def Leaves (env : EquipEnv) (p : PlayerEquipment) (slot n : Nat) : Prop :=
  p.inventoryAbilities slot = true →
    fires env.deEquipEvents n slot = true ∧ OthersApart env p slot n

/-- The conditions on an item that is transformed. -/
def TransformFits (env : EquipEnv) (p : PlayerEquipment) (slot : Nat) (r : ItemRef) (newId : Nat)
    (newCount : Int) : Prop :=
  let n := (p.item r).id
  match transformBranch env.items (p.item r) newId newCount with
  | .keep => True
  | .readd => Leaves env p slot n
  | .internalRemoveItem => Leaves env p slot n ∨ (p.item r).getItemCount = 0 ∨ !(p.item r).canRemove
  | .updateThing _ =>
    (p.inventoryAbilities slot = true → fires env.deEquipEvents n slot = false →
      updatedId env.items n newId n = n) ∧
    (p.inventoryAbilities slot = true → fires env.deEquipEvents n slot = true →
      OthersApart env p slot n ∧ Turns env p n ∧
        (env.transformDeEquipTo n ≠ 0 → (env.items.get n).id ≠ (env.items.get newId).id →
          fires env.equipEvents (env.transformDeEquipTo n) slot = false)) ∧
    ((p.inventoryAbilities slot = true → fires env.deEquipEvents n slot = true) →
      Settled env p.getDefaultStats (updatedId env.items n newId n))
  | .replaceThing newItem =>
    Leaves env p slot n ∧
    (p.inventoryAbilities slot = false → Settled env p.getDefaultStats newItem.id ∧
      (fires env.deEquipEvents n slot = true → fires env.equipEvents newItem.id slot = false))

/-- The conditions under which an operation keeps the modifiers in agreement with the equipment. -/
def Fits (env : EquipEnv) (p : PlayerEquipment) : Op → Prop
  | .onPlayerEquip slot => ∀ r, p.inventory slot = some r → p.inventoryAbilities slot = false →
      Settled env p.getDefaultStats (p.item r).id
  | .onPlayerDeEquip slot => ∀ r, p.inventory slot = some r → p.inventoryAbilities slot = true →
      fires env.deEquipEvents (p.item r).id slot = true →
      OthersApart env p slot (p.item r).id ∧ Turns env p (p.item r).id
  | .addThing _ it => Settled env p.getDefaultStats it.id
  | .removeThing slot => ∀ r, p.inventory slot = some r → Leaves env p slot (p.item r).id
  | .internalMoveItem fromSlot _ => ∀ r, p.inventory fromSlot = some r →
      Leaves env p fromSlot (p.item r).id ∧
      (p.inventoryAbilities fromSlot = true → Turns env p (p.item r).id) ∧
      Settled env p.getDefaultStats (p.item r).id
  | .transformItem slot newId newCount => ∀ r, p.inventory slot = some r →
      TransformFits env p slot r newId newCount
  | .changeStats healthMax manaMax magLevel level => ∀ slot n, p.enabledId slot = some n → ∀ m,
      ability env (p.changeStats healthMax manaMax magLevel level).getDefaultStats m n =
        ability env p.getDefaultStats m n

section Steps

variable {fuel : Nat} {q : PlayerEquipment} {n place : Nat}

theorem Reworn.worn (h : Reworn place r q p') (hr : q.inventory place = some r)
    (hworn : ∀ s, q.inventoryAbilities s = true → ∃ x, q.inventory s = some x) (s : Nat)
    (hs : p'.inventoryAbilities s = true) : ∃ x, p'.inventory s = some x := by
  rw [h.inventory]
  by_cases heq : s = place
  · exact ⟨r, heq ▸ hr⟩
  · rw [h.inventoryAbilities s heq] at hs
    exact hworn s hs

theorem Kept.equip (h : Kept env p) (hr : p.inventory slot = some r)
    (hsettled : p.inventoryAbilities slot = false → Settled env p.getDefaultStats (p.item r).id)
    (happly : p.onPlayerEquip env (transformer env fuel) r slot = some p') : Kept env p' := by
  cases henabled : p.inventoryAbilities slot with
  | true =>
    rw [onPlayerEquip_enabled henabled happly]
    exact h
  | false =>
    obtain ⟨hbooks, hreworn, -⟩ := onPlayerEquip_keeps (transformer_keeps fuel) h.placed hr
      (hsettled henabled) h.lawful.books happly
    exact ⟨hbooks.lawful, hreworn.placed h.placed, hreworn.worn hr h.worn⟩

theorem worn_setItemAbility_false (h : Kept env p) (s : Nat)
    (hs : (p.setItemAbility slot false).inventoryAbilities s = true) :
    ∃ x, p.inventory s = some x := by
  by_cases heq : s = slot
  · subst heq
    rw [setItemAbility_self] at hs
    cases hs
  · have hkept : (p.setItemAbility slot false).inventoryAbilities s = p.inventoryAbilities s :=
      Function.update_of_ne heq _ _
    exact h.worn s (hkept ▸ hs)

/-- The item of an enabled slot is taken off and stays there. -/
theorem Kept.deEquip (h : Kept env p) (hr : p.inventory slot = some r)
    (henabled : p.inventoryAbilities slot = true)
    (hfires : fires env.deEquipEvents (p.item r).id slot = true)
    (hothers : OthersApart env p slot (p.item r).id) (hturns : Turns env p (p.item r).id)
    (happly : p.onPlayerDeEquip env (transformer env fuel) r slot = some p') :
    Kept env p' ∧ Reworn slot r (p.setItemAbility slot false) p' ∧
      ((p'.item r).id = (p.item r).id ∧ p'.inventoryAbilities slot = false ∨
        env.transformDeEquipTo (p.item r).id ≠ 0 ∧
          Chain env (env.transformDeEquipTo (p.item r).id) (p'.item r).id ∧
          (fires env.equipEvents (env.transformDeEquipTo (p.item r).id) slot = false →
            p'.inventoryAbilities slot = false)) := by
  have hbare : Bare env (p.setItemAbility slot false) (p.item r).id :=
    h.lawful.bare (h.placed.inSlots slot r hr).1 (enabledId_of_enabled henabled hr)
      (enabledId_setItemAbility_false p slot) rfl rfl rfl hothers
  obtain ⟨hlawful, hreworn, hend⟩ := deEquip_inside h.placed hr (setItemAbility_self slot false)
    hbare hturns henabled hfires happly
  exact ⟨⟨hlawful, hreworn.placed ⟨h.placed.inSlots, h.placed.distinct⟩,
    hreworn.worn hr (worn_setItemAbility_false h)⟩, hreworn, hend⟩

theorem enabledId_setInventory_none (p : PlayerEquipment) (slot : Nat) :
    (p.setInventory slot none).enabledId = Function.update p.enabledId slot none := by
  funext s
  by_cases hs : s = slot
  · subst hs
    have hnone : (p.setInventory s none).inventory s = none := Function.update_self _ _ _
    rw [Function.update_self, enabledId, hnone]
    exact ite_self _
  · have hkept : (p.setInventory slot none).inventory s = p.inventory s :=
      Function.update_of_ne hs _ _
    rw [Function.update_of_ne hs, enabledId, enabledId, hkept]
    rfl

theorem Placed.remove (h : Placed p) (slot : Nat) : Placed (p.setInventory slot none) := by
  have hkept : ∀ s x, (p.setInventory slot none).inventory s = some x → p.inventory s = some x := by
    intro s x hx
    by_cases hs : s = slot
    · subst hs
      rw [show (p.setInventory s none).inventory s = none from Function.update_self _ _ _] at hx
      cases hx
    · rwa [show (p.setInventory slot none).inventory s = p.inventory s from
        Function.update_of_ne hs _ _] at hx
  exact ⟨fun s x hx => h.inSlots s x (hkept s x hx),
    fun s s' x hx hx' => h.distinct s s' x (hkept s x hx) (hkept s' x hx')⟩

theorem getThingIndex_eq_none (h : ∀ s, p.inventory s ≠ some r) : p.getThingIndex r = none :=
  List.find?_eq_none.mpr fun s _ hs => h s (of_decide_eq_true hs)

theorem Placed.removed (h : Placed p) (hr : p.inventory slot = some r) :
    (p.setInventory slot none).getThingIndex r = none := by
  refine getThingIndex_eq_none fun s hs => ?_
  by_cases heq : s = slot
  · subst heq
    rw [show (p.setInventory s none).inventory s = none from Function.update_self _ _ _] at hs
    cases hs
  · rw [show (p.setInventory slot none).inventory s = p.inventory s from
      Function.update_of_ne heq _ _] at hs
    exact heq (h.distinct s slot r hs hr)

/-- An item leaves the inventory. -/
theorem Kept.remove (h : Kept env p) (hr : p.inventory slot = some r)
    (hleaves : Leaves env p slot (p.item r).id)
    (happly : p.removeThing env (transformer env fuel) r slot = some p') : Kept env p' := by
  rw [PlayerEquipment.removeThing] at happly
  have hslot := (h.placed.inSlots slot r hr).1
  have hplaced := h.placed.remove slot
  have hid := enabledId_setInventory_none p slot
  cases henabled : p.inventoryAbilities slot with
  | false =>
    rw [onPlayerDeEquip_disabled (p := p.setInventory slot none) henabled] at happly
    obtain rfl := Option.some.inj happly
    have hsame : (p.setInventory slot none).enabledId = p.enabledId := by
      rw [hid, ← enabledId_of_disabled henabled, Function.update_eq_self]
    refine ⟨(h.lawful.books.same hsame rfl rfl rfl).lawful, hplaced, fun s hs => ?_⟩
    have hne : s ≠ slot := by
      rintro rfl
      rw [show (p.setInventory s none).inventoryAbilities s = p.inventoryAbilities s from rfl,
        henabled] at hs
      cases hs
    rw [show (p.setInventory slot none).inventory s = p.inventory s from
      Function.update_of_ne hne _ _]
    exact h.worn s hs
  | true =>
    obtain ⟨hfires, hothers⟩ := hleaves henabled
    have hn := enabledId_of_enabled henabled hr
    have hid' : ((p.setInventory slot none).setItemAbility slot false).enabledId =
        Function.update p.enabledId slot none := by
      rw [enabledId_setItemAbility_false, hid, Function.update_idem]
    have hbare : Bare env ((p.setInventory slot none).setItemAbility slot false) (p.item r).id :=
      h.lawful.bare hslot hn hid' rfl rfl rfl hothers
    obtain ⟨hlawful, hadjusted⟩ := deEquip_elsewhere (p := p.setInventory slot none)
      (h.placed.removed hr) hbare henabled hfires happly
    refine ⟨hlawful, (hadjusted.reworn slot r).placed
      ⟨hplaced.inSlots, hplaced.distinct⟩, fun s hs => ?_⟩
    rw [hadjusted.inventoryAbilities] at hs
    have hne : s ≠ slot := by
      rintro rfl
      rw [setItemAbility_self] at hs
      cases hs
    rw [hadjusted.inventory, show ((p.setInventory slot none).setItemAbility slot false).inventory s
      = p.inventory s from Function.update_of_ne hne _ _]
    exact worn_setItemAbility_false h s hs

/-- An item may change if it keeps its type, or if its slot is not enabled. -/
theorem Kept.setItem (h : Kept env p) (hr : p.inventory slot = some r) {it : Item}
    (hit : it.id = (p.item r).id ∨ p.inventoryAbilities slot = false) :
    Kept env (p.setItem r it) := by
  have hreworn := setItem_reworn (p := p) (r := r) slot it
  refine ⟨?_, hreworn.placed h.placed, fun s hs => h.worn s hs⟩
  rcases hit with hid | hdisabled
  · have hitem : ∀ x, ((p.setItem r it).item x).id = (p.item x).id := by
      intro x
      by_cases hx : x = r
      · rw [hx, setItem_self, hid]
      · rw [hreworn.item x hx]
    have hsame : (p.setItem r it).enabledId = p.enabledId := by
      funext s
      rw [enabledId, enabledId]
      simp only [hitem]
      rfl
    exact (h.lawful.books.same hsame rfl rfl rfl).lawful
  · exact (h.lawful.books.setItem h.placed hr hdisabled it).lawful

/-- An item gets a new type in place. -/
theorem Kept.update (h : Kept env p) (hr : p.inventory slot = some r) {newId : Nat}
    {newCount count : Int}
    (hbranch : transformBranch env.items (p.item r) newId newCount = .updateThing count)
    (hfits : TransformFits env p slot r newId newCount)
    (happly : (p.onPlayerDeEquip env (transformer env fuel) r slot).bind (fun q =>
      (q.updateThing env r (p.item r).id newId count).onPlayerEquip env (transformer env fuel) r
        slot) = some p') : Kept env p' := by
  rw [TransformFits, hbranch] at hfits
  obtain ⟨hunfired, hfired, hsettled⟩ := hfits
  obtain ⟨q, hq, happly⟩ := Option.bind_eq_some_iff.mp happly
  by_cases hoff : p.inventoryAbilities slot = true ∧
      fires env.deEquipEvents (p.item r).id slot = true
  · obtain ⟨henabled, hfires⟩ := hoff
    obtain ⟨hothers, hturns, hsilent⟩ := hfired henabled hfires
    obtain ⟨hkept, hreworn, hend⟩ := h.deEquip hr henabled hfires hothers hturns hq
    have hr' : q.inventory slot = some r := by
      rw [hreworn.inventory]
      exact hr
    obtain ⟨it, hit, hid⟩ := updateThing_spec env (hkept.placed.getThingIndex hr')
      (p.item r).id newId count
    rw [hit] at happly
    have hself : ((q.setItem r it).item r).id = it.id := by
      rw [setItem_self]
    have hstats : (q.setItem r it).getDefaultStats = p.getDefaultStats := hreworn.stats
    by_cases hsame : (env.items.get (p.item r).id).id = (env.items.get newId).id
    · -- The id that was read after the item was taken off is written back.
      rw [updatedId, if_neg (not_not.mpr hsame)] at hid
      refine (hkept.setItem hr' (.inl hid)).equip hr' (fun _ => ?_) happly
      rw [hself, hstats, hid]
      rcases hend with ⟨hsameId, -⟩ | ⟨hto, hchain, -⟩
      · have hsettled' := hsettled fun _ => hfires
        rw [updatedId, if_neg (not_not.mpr hsame)] at hsettled'
        rwa [hsameId]
      · exact fun n' hn' => (hturns hto).2.1 n' (hchain.trans hn')
    · rw [updatedId, if_pos hsame] at hid
      have hdisabled : q.inventoryAbilities slot = false := by
        rcases hend with ⟨-, hdisabled⟩ | ⟨hto, -, hquiet⟩
        · exact hdisabled
        · exact hquiet (hsilent hto hsame)
      refine (hkept.setItem hr' (.inr hdisabled)).equip hr' (fun _ => ?_) happly
      have hsettled' := hsettled fun _ => hfires
      rw [updatedId, if_pos hsame] at hsettled'
      rwa [hself, hstats, hid]
  · have hsame : q = p := by
      rcases onPlayerDeEquip_cases hq with ⟨hsame, -⟩ | ⟨henabled, -⟩
      · exact hsame
      · have hunfires : fires env.deEquipEvents (p.item r).id slot = false :=
          Bool.eq_false_iff.mpr fun hfires => hoff ⟨henabled, hfires⟩
        exact onPlayerDeEquip_silent hunfires hq
    subst hsame
    obtain ⟨it, hit, hid⟩ := updateThing_spec env (h.placed.getThingIndex hr)
      (q.item r).id newId count
    rw [hit] at happly
    have hchange : it.id = (q.item r).id ∨ q.inventoryAbilities slot = false := by
      cases henabled : q.inventoryAbilities slot with
      | false => exact .inr rfl
      | true =>
        refine .inl (hid.trans (hunfired henabled ?_))
        exact Bool.eq_false_iff.mpr fun hfires => hoff ⟨henabled, hfires⟩
    refine (h.setItem hr hchange).equip hr (fun hdisabled => ?_) happly
    have hdisabled' : q.inventoryAbilities slot = false := hdisabled
    have hsettled' := hsettled fun henabled => by
      rw [hdisabled'] at henabled
      cases henabled
    rwa [setItem_self, hid]

/-! ## New items -/

/-- An item that is created for a slot of the inventory. -/
def put (p : PlayerEquipment) (slot : Nat) (it : Item) : PlayerEquipment :=
  (p.alloc it).setInventory slot (some p.next)

theorem put_inventory_self (p : PlayerEquipment) (slot : Nat) (it : Item) :
    (p.put slot it).inventory slot = some p.next :=
  Function.update_self _ _ _

theorem put_inventory_of_ne {s : Nat} (hs : s ≠ slot) (it : Item) :
    (p.put slot it).inventory s = p.inventory s :=
  Function.update_of_ne hs _ _

theorem put_item_self (p : PlayerEquipment) (slot : Nat) (it : Item) :
    (p.put slot it).item p.next = it :=
  Function.update_self _ _ _

theorem put_item_of_ne {x : ItemRef} (hx : x ≠ p.next) (it : Item) :
    (p.put slot it).item x = p.item x :=
  Function.update_of_ne hx _ _

theorem Placed.put (h : Placed p) (hslot : slot ∈ inventorySlots) (it : Item) :
    Placed (p.put slot it) := by
  refine ⟨fun s x hx => ?_, fun s s' x hx hx' => ?_⟩
  · by_cases hs : s = slot
    · subst hs
      rw [put_inventory_self] at hx
      exact ⟨hslot, Option.some.inj hx ▸ Nat.lt_succ_self p.next⟩
    · rw [put_inventory_of_ne hs] at hx
      obtain ⟨hin, hlt⟩ := h.inSlots s x hx
      exact ⟨hin, Nat.lt_succ_of_lt hlt⟩
  · by_cases hs : s = slot <;> by_cases hs' : s' = slot
    · rw [hs, hs']
    · subst hs
      rw [put_inventory_self] at hx
      rw [put_inventory_of_ne hs'] at hx'
      exact absurd (h.inSlots s' x hx').2 (Option.some.inj hx ▸ Nat.lt_irrefl _)
    · subst hs'
      rw [put_inventory_self] at hx'
      rw [put_inventory_of_ne hs] at hx
      exact absurd (h.inSlots s x hx).2 (Option.some.inj hx' ▸ Nat.lt_irrefl _)
    · rw [put_inventory_of_ne hs] at hx
      rw [put_inventory_of_ne hs'] at hx'
      exact h.distinct s s' x hx hx'

theorem enabledId_put_of_ne (h : Placed p) {s : Nat} (hs : s ≠ slot) (it : Item) :
    (p.put slot it).enabledId s = p.enabledId s := by
  rw [enabledId, enabledId, put_inventory_of_ne hs]
  cases hx : p.inventory s with
  | none => rfl
  | some x =>
    rw [Option.map_some, Option.map_some, put_item_of_ne (Nat.ne_of_lt (h.inSlots s x hx).2)]
    rfl

/-- A new item in a slot that is not enabled. -/
theorem Kept.put (h : Kept env p) (hslot : slot ∈ inventorySlots)
    (hdisabled : p.inventoryAbilities slot = false) (it : Item) : Kept env (p.put slot it) := by
  have hsame : (p.put slot it).enabledId = p.enabledId := by
    funext s
    by_cases hs : s = slot
    · subst hs
      rw [enabledId_of_disabled hdisabled]
      exact enabledId_of_disabled (p := p.put s it) hdisabled
    · exact enabledId_put_of_ne h.placed hs it
  refine ⟨(h.lawful.books.same hsame rfl rfl rfl).lawful, h.placed.put hslot it, fun s hs => ?_⟩
  by_cases heq : s = slot
  · exact ⟨p.next, heq ▸ put_inventory_self p slot it⟩
  · rw [put_inventory_of_ne heq]
    exact h.worn s hs

/-- A new item takes the place of another one. -/
theorem Kept.replace (h : Kept env p) (hr : p.inventory slot = some r) {newItem : Item}
    (hleaves : Leaves env p slot (p.item r).id)
    (hdisabled : p.inventoryAbilities slot = false →
      Settled env p.getDefaultStats newItem.id ∧
        (fires env.deEquipEvents (p.item r).id slot = true →
          fires env.equipEvents newItem.id slot = false))
    (happly : ((p.put slot newItem).onPlayerEquip env (transformer env fuel) p.next slot).bind
      (fun q => q.onPlayerDeEquip env (transformer env fuel) r slot) = some p') : Kept env p' := by
  obtain ⟨hslot, hlt⟩ := h.placed.inSlots slot r hr
  have hne : r ≠ p.next := Nat.ne_of_lt hlt
  obtain ⟨q, hq, happly⟩ := Option.bind_eq_some_iff.mp happly
  cases henabled : p.inventoryAbilities slot with
  | true =>
    obtain rfl := onPlayerEquip_enabled (p := p.put slot newItem) henabled hq
    obtain ⟨hfires, hothers⟩ := hleaves henabled
    have hitem : (p.put slot newItem).item r = p.item r := put_item_of_ne hne newItem
    have hid : ((p.put slot newItem).setItemAbility slot false).enabledId =
        Function.update p.enabledId slot none := by
      rw [enabledId_setItemAbility_false]
      funext s
      by_cases hs : s = slot
      · rw [hs, Function.update_self, Function.update_self]
      · rw [Function.update_of_ne hs, Function.update_of_ne hs, enabledId_put_of_ne h.placed hs]
    have hbare : Bare env ((p.put slot newItem).setItemAbility slot false)
        ((p.put slot newItem).item r).id := by
      rw [hitem]
      exact h.lawful.bare hslot (enabledId_of_enabled henabled hr) hid rfl rfl rfl hothers
    have hindex : (p.put slot newItem).getThingIndex r = none := by
      refine getThingIndex_eq_none fun s hs => ?_
      by_cases heq : s = slot
      · subst heq
        rw [put_inventory_self] at hs
        exact hne (Option.some.inj hs).symm
      · rw [put_inventory_of_ne heq] at hs
        exact heq (h.placed.distinct s slot r hs hr)
    obtain ⟨hlawful, hadjusted⟩ := deEquip_elsewhere hindex hbare henabled
      (by rw [hitem]; exact hfires) happly
    have hplaced := h.placed.put hslot newItem
    refine ⟨hlawful, (hadjusted.reworn slot r).placed
      ⟨hplaced.inSlots, hplaced.distinct⟩, fun s hs => ?_⟩
    rw [hadjusted.inventoryAbilities] at hs
    rw [hadjusted.inventory]
    by_cases heq : s = slot
    · exact ⟨p.next, heq ▸ put_inventory_self p slot newItem⟩
    · obtain ⟨x, hx⟩ := worn_setItemAbility_false h s hs
      exact ⟨x, (put_inventory_of_ne heq newItem).trans hx⟩
  | false =>
    obtain ⟨hsettled, hquiet⟩ := hdisabled henabled
    have hput := h.put hslot henabled newItem
    have hself := put_inventory_self p slot newItem
    have hsettled' : Settled env (p.put slot newItem).getDefaultStats
        ((p.put slot newItem).item p.next).id := by
      rw [put_item_self]
      exact hsettled
    have hkept := hput.equip hself (fun _ => hsettled') hq
    obtain ⟨-, hreworn, -⟩ := onPlayerEquip_keeps (transformer_keeps fuel) hput.placed hself
      hsettled' hput.lawful.books hq
    have hitem : q.item r = p.item r := by
      rw [hreworn.item r hne, put_item_of_ne hne]
    by_cases hfires : fires env.deEquipEvents (p.item r).id slot = true
    · have hsilent : fires env.equipEvents ((p.put slot newItem).item p.next).id slot = false := by
        rw [put_item_self]
        exact hquiet hfires
      obtain rfl := onPlayerEquip_silent hsilent hq
      rw [onPlayerDeEquip_disabled (p := p.put slot newItem) henabled] at happly
      exact Option.some.inj happly ▸ hkept
    · have hsilent : fires env.deEquipEvents (q.item r).id slot = false := by
        rw [hitem]
        exact Bool.eq_false_iff.mpr hfires
      exact onPlayerDeEquip_silent hsilent happly ▸ hkept

theorem Kept.transformItem (h : Kept env p) (hr : p.inventory slot = some r) {newId : Nat}
    {newCount : Int} (hfits : TransformFits env p slot r newId newCount)
    (happly : p.transformItem env fuel r newId newCount = some p') : Kept env p' := by
  cases fuel with
  | zero => cases happly
  | succ fuel =>
    rw [PlayerEquipment.transformItem, transformItemAux, h.placed.getThingIndex hr] at happly
    dsimp only at happly
    cases hbranch : transformBranch env.items (p.item r) newId newCount with
    | keep =>
      rw [hbranch] at happly
      exact Option.some.inj happly ▸ h
    | readd =>
      rw [hbranch] at happly
      rw [TransformFits, hbranch] at hfits
      exact h.remove hr hfits happly
    | internalRemoveItem =>
      rw [hbranch] at happly
      rw [TransformFits, hbranch] at hfits
      dsimp only at happly
      rw [internalRemoveItem] at happly
      split_ifs at happly with hrefused
      · exact Option.some.inj happly ▸ h
      · exact h.remove hr (hfits.resolve_right hrefused) happly
    | updateThing count =>
      rw [hbranch] at happly
      exact h.update hr hbranch hfits happly
    | replaceThing newItem =>
      rw [hbranch] at happly
      rw [TransformFits, hbranch] at hfits
      exact h.replace hr hfits.1 hfits.2 happly

/-! ## Moves -/

/-- The item goes from one slot to another one. -/
def shifted (p : PlayerEquipment) (r : ItemRef) (fromSlot toSlot : Nat) : PlayerEquipment :=
  (p.setInventory fromSlot none).setInventory toSlot (some r)

variable {fromSlot toSlot : Nat}

theorem shifted_inventory_to (p : PlayerEquipment) (r : ItemRef) (fromSlot toSlot : Nat) :
    (p.shifted r fromSlot toSlot).inventory toSlot = some r :=
  Function.update_self _ _ _

theorem shifted_inventory_of_ne {s : Nat} (hs : s ≠ toSlot) :
    (p.shifted r fromSlot toSlot).inventory s = (p.setInventory fromSlot none).inventory s :=
  Function.update_of_ne hs _ _

theorem Placed.shifted (h : Placed p) (hr : p.inventory fromSlot = some r)
    (hto : toSlot ∈ inventorySlots) : Placed (p.shifted r fromSlot toSlot) := by
  have hremoved := h.remove fromSlot
  have hgone : ∀ s, (p.setInventory fromSlot none).inventory s ≠ some r := by
    intro s hs
    have hindex := hremoved.getThingIndex hs
    rw [h.removed hr] at hindex
    cases hindex
  refine ⟨fun s x hx => ?_, fun s s' x hx hx' => ?_⟩
  · by_cases hs : s = toSlot
    · subst hs
      rw [shifted_inventory_to] at hx
      exact ⟨hto, Option.some.inj hx ▸ (h.inSlots fromSlot r hr).2⟩
    · rw [shifted_inventory_of_ne hs] at hx
      exact hremoved.inSlots s x hx
  · by_cases hs : s = toSlot <;> by_cases hs' : s' = toSlot
    · rw [hs, hs']
    · subst hs
      rw [shifted_inventory_to] at hx
      rw [shifted_inventory_of_ne hs'] at hx'
      exact absurd hx' (Option.some.inj hx ▸ hgone s')
    · subst hs'
      rw [shifted_inventory_to] at hx'
      rw [shifted_inventory_of_ne hs] at hx
      exact absurd hx (Option.some.inj hx' ▸ hgone s)
    · rw [shifted_inventory_of_ne hs] at hx
      rw [shifted_inventory_of_ne hs'] at hx'
      exact hremoved.distinct s s' x hx hx'

/-- The slot that the item goes to is not enabled. -/
theorem enabledId_shifted (hto : p.inventoryAbilities toSlot = false) :
    (p.shifted r fromSlot toSlot).enabledId = Function.update p.enabledId fromSlot none := by
  rw [← enabledId_setInventory_none]
  funext s
  by_cases hs : s = toSlot
  · subst hs
    exact (enabledId_of_disabled (p := p.shifted r fromSlot s) hto).trans
      (enabledId_of_disabled (p := p.setInventory fromSlot none) hto).symm
  · rw [enabledId, enabledId, shifted_inventory_of_ne hs]
    rfl

theorem worn_shifted (h : Kept env p) (hto : p.inventory toSlot = none) (s : Nat)
    (hs : p.inventoryAbilities s = true) (hne : s ≠ fromSlot) :
    ∃ x, (p.shifted r fromSlot toSlot).inventory s = some x := by
  obtain ⟨x, hx⟩ := h.worn s hs
  have hne' : s ≠ toSlot := by
    rintro rfl
    rw [hto] at hx
    cases hx
  refine ⟨x, ?_⟩
  rw [shifted_inventory_of_ne hne']
  exact (Function.update_of_ne hne _ _).trans hx

theorem Kept.move (h : Kept env p) (hr : p.inventory fromSlot = some r)
    (hslot : toSlot ∈ inventorySlots) (hto : p.inventory toSlot = none)
    (hleaves : Leaves env p fromSlot (p.item r).id)
    (hturns : p.inventoryAbilities fromSlot = true → Turns env p (p.item r).id)
    (hsettled : Settled env p.getDefaultStats (p.item r).id)
    (happly : (p.shifted r fromSlot toSlot).notifyMove env (transformer env fuel) r fromSlot =
      some p') : Kept env p' := by
  have htoDisabled : p.inventoryAbilities toSlot = false := by
    refine Bool.eq_false_iff.mpr fun henabled => ?_
    obtain ⟨x, hx⟩ := h.worn toSlot henabled
    rw [hto] at hx
    cases hx
  have hne : fromSlot ≠ toSlot := by
    rintro rfl
    rw [hto] at hr
    cases hr
  have hplaced : Placed (p.shifted r fromSlot toSlot) := h.placed.shifted hr hslot
  have hself := shifted_inventory_to p r fromSlot toSlot
  have hid : (p.shifted r fromSlot toSlot).enabledId =
      Function.update p.enabledId fromSlot none := enabledId_shifted htoDisabled
  rw [notifyMove] at happly
  obtain ⟨q, hq, happly⟩ := Option.bind_eq_some_iff.mp happly
  -- After the first notification the item lies in its new slot, perhaps as another type.
  suffices hkept : Kept env q ∧ q.inventory toSlot = some r ∧
      Settled env q.getDefaultStats (q.item r).id by
    obtain ⟨hkept, hr', hsettled'⟩ := hkept
    rw [hkept.placed.getThingIndex hr'] at happly
    exact hkept.equip hr' (fun _ => hsettled') happly
  cases henabled : p.inventoryAbilities fromSlot with
  | false =>
    rw [onPlayerDeEquip_disabled (p := p.shifted r fromSlot toSlot) henabled] at hq
    obtain rfl := Option.some.inj hq
    have hsame : (p.shifted r fromSlot toSlot).enabledId = p.enabledId := by
      rw [hid, ← enabledId_of_disabled henabled, Function.update_eq_self]
    refine ⟨⟨(h.lawful.books.same hsame rfl rfl rfl).lawful, hplaced, fun s hs => ?_⟩, hself,
      hsettled⟩
    refine worn_shifted h hto s hs ?_
    rintro rfl
    rw [show (p.shifted r s toSlot).inventoryAbilities s = p.inventoryAbilities s from rfl,
      henabled] at hs
    cases hs
  | true =>
    obtain ⟨hfires, hothers⟩ := hleaves henabled
    have hid' : ((p.shifted r fromSlot toSlot).setItemAbility fromSlot false).enabledId =
        Function.update p.enabledId fromSlot none := by
      rw [enabledId_setItemAbility_false, hid, Function.update_idem]
    have hbare : Bare env ((p.shifted r fromSlot toSlot).setItemAbility fromSlot false)
        (p.item r).id :=
      h.lawful.bare (h.placed.inSlots fromSlot r hr).1 (enabledId_of_enabled henabled hr) hid' rfl
        rfl rfl hothers
    have hdisabled : ((p.shifted r fromSlot toSlot).setItemAbility fromSlot
        false).inventoryAbilities toSlot = false :=
      (Function.update_of_ne (Ne.symm hne) _ _).trans htoDisabled
    obtain ⟨hlawful, hreworn, hend⟩ := deEquip_inside hplaced hself hdisabled hbare
      (hturns henabled) henabled hfires hq
    have hworn : ∀ s, ((p.shifted r fromSlot toSlot).setItemAbility fromSlot
        false).inventoryAbilities s = true →
        ∃ x, ((p.shifted r fromSlot toSlot).setItemAbility fromSlot false).inventory s =
          some x := by
      intro s hs
      have hne' : s ≠ fromSlot := by
        rintro rfl
        rw [setItemAbility_self] at hs
        cases hs
      refine worn_shifted h hto s ?_ hne'
      exact (Function.update_of_ne hne' _ _).symm.trans hs
    refine ⟨⟨hlawful, hreworn.placed ⟨hplaced.inSlots, hplaced.distinct⟩,
      hreworn.worn hself hworn⟩, ?_, ?_⟩
    · rw [hreworn.inventory]
      exact hself
    · rw [hreworn.stats]
      rcases hend with ⟨hsame, -⟩ | ⟨hnonzero, hchain, -⟩
      · rw [hsame]
        exact hsettled
      · exact fun n' hn' => ((hturns henabled) hnonzero).2.1 n' (hchain.trans hn')

/-! ## Runs -/

theorem Kept.changeStats (h : Kept env p) {healthMax manaMax magLevel : Int32} {level : Nat}
    (hfits : Fits env p (.changeStats healthMax manaMax magLevel level)) :
    Kept env (p.changeStats healthMax manaMax magLevel level) := by
  have hcontribution : ∀ m, (p.changeStats healthMax manaMax magLevel level).contribution env m =
      p.contribution env m := by
    intro m
    funext s
    rw [contribution, contribution, show (p.changeStats healthMax manaMax magLevel level).enabledId
      s = p.enabledId s from rfl]
    cases hn : p.enabledId s with
    | none => rfl
    | some n => exact hfits s n hn m
  refine ⟨⟨fun m => ?_, h.lawful.suppressions_iff⟩, ⟨h.placed.inSlots, h.placed.distinct⟩, h.worn⟩
  rw [hcontribution]
  exact h.lawful.var_eq m

theorem Kept.step (h : Kept env p) {op : Op} (hfits : Fits env p op)
    (happly : p.apply env fuel op = some p') : Kept env p' := by
  cases op with
  | onPlayerEquip slot =>
    obtain ⟨r, hr, happly⟩ := Option.bind_eq_some_iff.mp happly
    exact h.equip hr (hfits r hr) happly
  | onPlayerDeEquip slot =>
    obtain ⟨r, hr, happly⟩ := Option.bind_eq_some_iff.mp happly
    by_cases hoff : p.inventoryAbilities slot = true ∧
        fires env.deEquipEvents (p.item r).id slot = true
    · obtain ⟨hothers, hturns⟩ := hfits r hr hoff.1 hoff.2
      exact (h.deEquip hr hoff.1 hoff.2 hothers hturns happly).1
    · rcases onPlayerDeEquip_cases happly with ⟨rfl, -⟩ | ⟨henabled, -⟩
      · exact h
      · have hsilent : fires env.deEquipEvents (p.item r).id slot = false :=
          Bool.eq_false_iff.mpr fun hfires => hoff ⟨henabled, hfires⟩
        exact onPlayerDeEquip_silent hsilent happly ▸ h
  | addThing slot it =>
    rw [apply] at happly
    split_ifs at happly with hfree
    obtain ⟨hslot, hnone⟩ := hfree
    have hdisabled : p.inventoryAbilities slot = false := by
      refine Bool.eq_false_iff.mpr fun henabled => ?_
      obtain ⟨x, hx⟩ := h.worn slot henabled
      rw [hnone] at hx
      cases hx
    refine (h.put hslot hdisabled it).equip (put_inventory_self p slot it) (fun _ => ?_) happly
    rw [put_item_self]
    exact hfits
  | removeThing slot =>
    obtain ⟨r, hr, happly⟩ := Option.bind_eq_some_iff.mp happly
    exact h.remove hr (hfits r hr) happly
  | internalMoveItem fromSlot toSlot =>
    obtain ⟨r, hr, happly⟩ := Option.bind_eq_some_iff.mp happly
    split_ifs at happly with hfree
    obtain ⟨hleaves, hturns, hsettled⟩ := hfits r hr
    exact h.move hr hfree.1 hfree.2 hleaves hturns hsettled happly
  | transformItem slot newId newCount =>
    obtain ⟨r, hr, happly⟩ := Option.bind_eq_some_iff.mp happly
    exact h.transformItem hr (hfits r hr) happly
  | changeStats healthMax manaMax magLevel level =>
    exact Option.some.inj happly ▸ h.changeStats hfits

theorem Fresh.kept (h : Fresh p) : Kept env p := by
  have hid : ∀ slot, p.enabledId slot = none := fun slot =>
    enabledId_of_disabled (h.inventoryAbilities slot)
  have htotal : ∀ m, total (p.contribution env m) = 0 := by
    intro m
    have hzero : p.contribution env m = fun _ => 0 := by
      funext slot
      rw [contribution, hid]
    rw [hzero]
    rfl
  refine ⟨⟨fun m => ?_, fun bit => ⟨fun hbit => ?_, ?_⟩⟩, ⟨h.inSlots, h.distinct⟩,
    fun slot hs => ?_⟩
  · rw [htotal]
    cases m with
    | skill i => exact h.varSkills i
    | specialSkill i => exact h.varSpecialSkills i
    | stat i => exact h.varStats i
    | speed => exact h.varSpeed
  · rw [h.conditionSuppressions] at hbit
    simp at hbit
  · rintro ⟨slot, n, hs, -⟩
    rw [hid] at hs
    cases hs
  · rw [h.inventoryAbilities] at hs
    cases hs

theorem Lawful.of_disabled (h : p.Lawful env)
    (hdisabled : ∀ slot, p.inventoryAbilities slot = false) :
    (∀ m, p.var m = 0) ∧ p.conditionSuppressions = 0 := by
  have hid : ∀ slot, p.enabledId slot = none := fun slot => enabledId_of_disabled (hdisabled slot)
  constructor
  · intro m
    have hzero : p.contribution env m = fun _ => 0 := by
      funext slot
      rw [contribution, hid]
    rw [h.var_eq, hzero]
    rfl
  · refine BitVec.eq_of_getLsbD_eq fun bit hbit => ?_
    rw [BitVec.ofNat_eq_ofNat, BitVec.getLsbD_zero]
    refine Bool.eq_false_iff.mpr fun hset => ?_
    obtain ⟨slot, n, hs, -⟩ := (h.suppressions_iff bit).mp hset
    rw [hid] at hs
    cases hs

/-- In a run whose steps all meet the conditions, the modifiers are what the equipment adds. -/
theorem equipment_lawful (env : EquipEnv) (fuel : Nat) (p : PlayerEquipment)
    (h : Run.ReachableBy (system env fuel) (Fits env) p) :
    p.Lawful env ∧ ((∀ slot, p.inventoryAbilities slot = false) →
      (∀ m, p.var m = 0) ∧ p.conditionSuppressions = 0) := by
  have hinit : ∀ p, (system env fuel).init p → Kept env p := fun _ hfresh => Fresh.kept hfresh
  have hkept : Kept env p := h.invariant hinit fun _ _ _ hkept hfits happly =>
    Kept.step hkept hfits happly
  exact ⟨hkept.lawful, hkept.lawful.of_disabled⟩

end Steps

/-! ## A ring and a helmet -/

def ring : ItemType := { ItemType.default with id := 2165, decayTo := -1 }

/-- The ring as it is worn. -/
def wornRing : ItemType := { ItemType.default with id := 2202, decayTo := -1 }

def helmet : ItemType := { ItemType.default with id := 2471 }

def ringEvent (slot : Nat) : MoveEvent :=
  { slot := slot, scripted := false, equipFunction := true, wieldInfo := 0, vocEquipMap := []
    reqLevel := 0, reqMagLevel := 0, premium := false }

/-- The worn ring makes faster, and the helmet gives half of the health points again. -/
def wardrobe : EquipEnv :=
  { items := Items.ofEntries [ring, wornRing, helmet]
    abilities := fun id =>
      if id = wornRing.id then some { speed := 30 }
      else if id = helmet.id then some { statsPercent := fun i =>
        if i = STAT_MAXHITPOINTS then 150 else 0 }
      else none
    transformEquipTo := fun id => if id = ring.id then wornRing.id else 0
    transformDeEquipTo := fun id => if id = wornRing.id then ring.id else 0
    equipEvents := fun id =>
      [ringEvent (if id = helmet.id then SLOTP_HEAD else SLOTP_RING)]
    deEquipEvents := fun id =>
      [ringEvent (if id = helmet.id then SLOTP_HEAD else SLOTP_RING)]
    percentOf := fun base percent =>
      Int32.ofInt ((base.toInt * (percent.toInt - 100)).tdiv 100) }

def newcomer : PlayerEquipment :=
  { modifiers :=
      { healthMax := 150, health := 150, manaMax := 5, mana := 5, hasInfiniteMana := false
        varSkills := fun _ => 0, varSpecialSkills := fun _ => 0, varStats := fun _ => 0
        canUseDefense := true, equipment := {}, conditions := [] }
    varSpeed := 0, conditionSuppressions := 0, magLevel := 0, level := 1, vocation := 0
    isPremium := false, ignoreWeaponCheck := false, inventory := fun _ => none
    inventoryAbilities := fun _ => false, item := fun _ => Item.new wardrobe.items 0 0 .item
    next := 0 }

theorem newcomer_fresh : Fresh newcomer where
  varSkills _ := rfl
  varSpecialSkills _ := rfl
  varStats _ := rfl
  varSpeed := rfl
  conditionSuppressions := rfl
  inventoryAbilities _ := rfl
  inSlots _ _ h := nomatch h
  distinct _ _ _ h := nomatch h

/-- The ring is put on and turns into the worn ring. -/
def ringWearer : Option PlayerEquipment :=
  newcomer.apply wardrobe 3 (.addThing CONST_SLOT_RING (Item.new wardrobe.items ring.id 0 .item))

theorem equipment_lawful_ring : ∃ p, ringWearer = some p ∧ p.var .speed = 30 ∧
    p.Lawful wardrobe := by
  have hsettled : Settled wardrobe newcomer.getDefaultStats ring.id := by
    intro n _ hne
    have hn : n = ring.id := by
      by_contra hn
      exact hne (if_neg hn)
    subst hn
    refine ⟨⟨fun m => ?_, rfl⟩, .inr (.inr ⟨rfl, rfl, by decide⟩)⟩
    cases m <;> rfl
  obtain ⟨p, hp⟩ : ∃ p, ringWearer = some p := Option.isSome_iff_exists.mp (by decide)
  have hspeed : p.var .speed = 30 := by
    have hdone : ringWearer.map (fun p => p.var .speed) = some 30 := by decide
    rw [hp] at hdone
    exact Option.some.inj hdone
  exact ⟨p, hp, hspeed, (equipment_lawful wardrobe 3 p
    (.step (.init newcomer_fresh) (i := .addThing CONST_SLOT_RING
      (Item.new wardrobe.items ring.id 0 .item)) hsettled hp)).1⟩

/-- The helmet is put on at 150 health points and taken off at 250. -/
def helmetOff : Option PlayerEquipment :=
  (newcomer.apply wardrobe 3
    (.addThing CONST_SLOT_HEAD (Item.new wardrobe.items helmet.id 0 .item))).bind fun p =>
      (p.apply wardrobe 3 (.changeStats 250 5 0 10)).bind fun p =>
        p.apply wardrobe 3 (.removeThing CONST_SLOT_HEAD)

/-- The bonus is taken off as it would be at 250. -/
theorem exists_not_lawful : ∃ p, Run.Reachable (system wardrobe 3) p ∧
    (∀ slot ∈ inventorySlots, p.inventoryAbilities slot = false) ∧
    p.var (.stat STAT_MAXHITPOINTS) = -50 ∧ ¬p.Lawful wardrobe := by
  obtain ⟨p, hp⟩ : ∃ p, helmetOff = some p := Option.isSome_iff_exists.mp (by decide)
  have hslots : helmetOff.map (fun p => inventorySlots.map p.inventoryAbilities) =
      some (inventorySlots.map fun _ => false) := by decide
  have hvar : helmetOff.map (fun p => p.var (.stat STAT_MAXHITPOINTS)) = some (-50) := by decide
  have htotal : helmetOff.map (fun p =>
      total (p.contribution wardrobe (.stat STAT_MAXHITPOINTS))) = some 0 := by decide
  rw [hp] at hslots hvar htotal
  rw [helmetOff] at hp
  obtain ⟨worn, hworn, hrest⟩ := Option.bind_eq_some_iff.mp hp
  obtain ⟨grown, hgrown, hoff⟩ := Option.bind_eq_some_iff.mp hrest
  have hbonus : p.var (.stat STAT_MAXHITPOINTS) = -50 := Option.some.inj hvar
  have hnothing : total (p.contribution wardrobe (.stat STAT_MAXHITPOINTS)) = 0 :=
    Option.some.inj htotal
  refine ⟨p, (((Run.ReachableBy.init newcomer_fresh).step trivial hworn).step trivial hgrown).step
    trivial hoff, List.map_inj_left.mp (Option.some.inj hslots), hbonus, fun hlawful => ?_⟩
  have heq := hlawful.var_eq (.stat STAT_MAXHITPOINTS)
  rw [hbonus, hnothing] at heq
  exact absurd heq (by decide)

end Eloth.PlayerEquipment
