import Eloth.DecayLists
import Eloth.MoveParts

/-!
# New entries of the decay lists

Every operation enters its own item or items that it has created, and takes a reference for each
entry. None of them takes an entry out again: a removed item stays where it is registered.
-/

namespace Eloth

/-- What stands in front of the old entries are items with the property and new items, each with
a reference of its own. -/
structure Registers (p : ItemRef → Prop) (w w' : World) : Prop where
  next_le : w.next ≤ w'.next
  decayItems : w'.decayItems = w.decayItems
  lastBucket : w'.lastBucket = w.lastBucket
  released : w.toReleaseItems <+: w'.toReleaseItems
  entries : ∃ new, w'.toDecayItems = new ++ w.toDecayItems ∧
    (∀ r ∈ new, r < w'.next ∧ (p r ∨ w.next ≤ r)) ∧
      ∀ r, w'.referenceCounter r =
        (if w.next ≤ r ∧ r < w'.next then 1 else w.referenceCounter r) + new.count r

section Registers

variable {env : Env} {p q : ItemRef → Prop} {w w₁ w' : World} {r item : ItemRef}

theorem Registers.of_quiet (h : Quiet w w') : Registers p w w' := by
  have hnext : w'.next = w.next := congrArg DecayLists.next h.decays
  refine ⟨hnext.ge, congrArg DecayLists.decayItems h.decays,
    congrArg DecayLists.lastBucket h.decays, h.released, [],
    congrArg DecayLists.toDecayItems h.decays, (fun _ hr => nomatch hr), fun r => ?_⟩
  rw [if_neg fun hr => absurd (hr.1.trans_lt (hr.2.trans_eq hnext)) (lt_irrefl _), List.count_nil,
    Int.natCast_zero, add_zero]
  exact congrFun (congrArg DecayLists.referenceCounter h.decays) r

theorem Registers.trans (h : Registers p w w₁) (h' : Registers q w₁ w')
    (hq : ∀ r, q r → p r ∨ w.next ≤ r) : Registers p w w' := by
  obtain ⟨new, htoDecay, hnew, hcounter⟩ := h.entries
  obtain ⟨new', htoDecay', hnew', hcounter'⟩ := h'.entries
  have hnext := h.next_le
  have hnext' := h'.next_le
  refine ⟨hnext.trans hnext', h'.decayItems.trans h.decayItems, h'.lastBucket.trans h.lastBucket,
    h.released.trans h'.released, new' ++ new, by rw [htoDecay', htoDecay, List.append_assoc],
    fun r hr => ?_, fun r => ?_⟩
  · obtain hr | hr := List.mem_append.mp hr
    · obtain ⟨hlt, hmine | hfresh⟩ := hnew' r hr
      · exact ⟨hlt, hq r hmine⟩
      · exact ⟨hlt, .inr (hnext.trans hfresh)⟩
    · exact ⟨(hnew r hr).1.trans_le hnext', (hnew r hr).2⟩
  · rw [hcounter', hcounter, List.count_append, Int.natCast_add]
    by_cases hlate : w₁.next ≤ r
    · have hnone : new.count r = 0 :=
        List.count_eq_zero.mpr fun hr => absurd (hnew r hr).1 (not_lt.mpr hlate)
      by_cases hlt : r < w'.next
      · rw [if_pos ⟨hlate, hlt⟩, if_pos ⟨hnext.trans hlate, hlt⟩, hnone]
        ring
      · rw [if_neg fun hr => hlt hr.2, if_neg fun hr => absurd hr.2 (not_lt.mpr hlate),
          if_neg fun hr => hlt hr.2, hnone]
        ring
    · have hearly : r < w₁.next := not_le.mp hlate
      rw [if_neg fun hr => hlate hr.1]
      by_cases hfresh : w.next ≤ r
      · rw [if_pos ⟨hfresh, hearly⟩, if_pos ⟨hfresh, hearly.trans_le hnext'⟩]
        ring
      · rw [if_neg fun hr => hfresh hr.1, if_neg fun hr => hfresh hr.1]
        ring

/-- The same entries, for a first step that creates nothing. -/
theorem Registers.trans_self (h : Registers p w w₁) (h' : Registers p w₁ w') :
    Registers p w w' := h.trans h' fun _ => .inl

theorem Registers.mono (h : Registers q w w') (hq : ∀ r, q r → p r) : Registers p w w' := by
  obtain ⟨new, htoDecay, hnew, hcounter⟩ := h.entries
  exact ⟨h.next_le, h.decayItems, h.lastBucket, h.released, new, htoDecay,
    fun r hr => ⟨(hnew r hr).1, (hnew r hr).2.imp_left (hq r)⟩, hcounter⟩

theorem Registers.quiet (h : Registers p w w₁) (h' : Quiet w₁ w') : Registers p w w' :=
  h.trans_self (.of_quiet h')

theorem Quiet.registers (h : Quiet w w₁) (h' : Registers p w₁ w') : Registers p w w' :=
  (Registers.of_quiet h).trans_self h'

theorem Registers.mem_toDecayItems (hw : Registers p w w') (hp : ¬ p r) (hr : r < w.next)
    (h : r ∈ w'.toDecayItems) : r ∈ w.toDecayItems := by
  obtain ⟨new, htoDecay, hnew, -⟩ := hw.entries
  rw [htoDecay, List.mem_append] at h
  exact h.resolve_left fun hmem => (hnew r hmem).2.elim hp (not_le.mpr hr)

theorem Quiet.next (h : Quiet w w') : w'.next = w.next := congrArg DecayLists.next h.decays

theorem registers_alloc (w : World) (it : Item) : Registers p w (w.alloc it) := by
  refine ⟨Nat.le_succ _, rfl, rfl, List.prefix_rfl, [], rfl, (fun _ hr => nomatch hr), fun r => ?_⟩
  change Function.update w.referenceCounter w.next 1 r = _
  rw [List.count_nil, Int.natCast_zero, add_zero]
  by_cases hr : r = w.next
  · rw [hr, Function.update_self, if_pos ⟨le_rfl, Nat.lt_succ_self _⟩]
  · rw [Function.update_of_ne hr]
    exact (if_neg fun hnew => hr (Nat.le_antisymm (Nat.lt_succ_iff.mp hnew.2) hnew.1)).symm

theorem registers_pushToDecay (hr : r < w.next) (hp : p r) : Registers p w (w.pushToDecay r) := by
  refine ⟨le_rfl, rfl, rfl, List.prefix_rfl, [r], rfl, fun x hx => ?_, fun x => ?_⟩
  · obtain rfl := List.mem_singleton.mp hx
    exact ⟨hr, .inl hp⟩
  · change Function.update w.referenceCounter r (w.referenceCounter r + 1) x = _
    rw [if_neg fun hx => absurd (hx.1.trans_lt hx.2) (lt_irrefl w.next)]
    by_cases hx : x = r
    · rw [hx, Function.update_self, List.count_singleton_self, Int.natCast_one]
    · rw [Function.update_of_ne hx, List.count_singleton, if_neg (by simpa using Ne.symm hx)]
      simp

theorem quiet_modifyItem (w : World) (r : ItemRef) (f : Item → Item) :
    Quiet w (w.modifyItem r f) := .same rfl rfl

/-- A copy is a new item, whether it is registered or not. -/
theorem registers_cloneItem {copy : ItemRef} (h : w.cloneItem env r = some (copy, w')) :
    Registers p w w' ∧ copy = w.next ∧ copy < w'.next := by
  unfold World.cloneItem at h
  obtain ⟨it, -, hcopy⟩ := Option.map_eq_some_iff.mp h
  obtain ⟨rfl, rfl⟩ := Prod.mk.inj hcopy
  have halloc : Registers p w (w.alloc it) := registers_alloc w it
  have hlt : w.next < (w.alloc it).next := Nat.lt_succ_self _
  split_ifs
  · have hpush := @registers_pushToDecay (· = w.next) (w.alloc it) w.next hlt rfl
    exact ⟨halloc.trans hpush fun x hx => .inr (Nat.le_of_eq hx.symm), rfl, hlt⟩
  · exact ⟨halloc, rfl, hlt⟩

namespace Game

theorem registers_registerDecay (hr : r < w.next) (hp : p r) :
    Registers p w (registerDecay w r) := by
  unfold registerDecay
  split_ifs
  · exact (quiet_modifyItem w r _).registers (registers_pushToDecay hr hp)
  · exact .of_quiet (.refl w)

theorem registers_registerAdded (hr : r < w.next) (hp : p r) :
    Registers p w (registerAdded w r) := by
  unfold registerAdded
  split_ifs
  · exact (quiet_modifyItem w r _).registers (registers_pushToDecay hr hp)
  · exact .of_quiet (.refl w)

/-! ## Removing -/

theorem canDecay_of_isRemoved (h : w.isRemoved r = true) : w.canDecay env r = false := by
  rw [World.canDecay, h]
  rfl

/-- The item cannot decay once it is removed, so that no bucket is searched for it. -/
theorem quiet_internalRemoveItem (env : Env) (w : World) (item : ItemRef) (count : Option Nat)
    (test : Bool) (flags : Nat) : Quiet w (internalRemoveItem env w item count test flags).2 := by
  unfold internalRemoveItem
  split
  · exact .refl w
  · next cylinder _ =>
    dsimp only
    split_ifs with hret hcan htest hremoved hdecay
    · exact .refl w
    · exact .refl w
    · exact .refl w
    · rw [canDecay_of_isRemoved hremoved] at hdecay
      cases hdecay
    · exact (Cylinder.quiet_removeThing env w cylinder item _).trans
        ((quiet_releaseItem _ item).trans (Cylinder.quiet_refreshWeight env _ cylinder))
    · exact (Cylinder.quiet_removeThing env w cylinder item _).trans
        (Cylinder.quiet_refreshWeight env _ cylinder)

/-! ## Moving -/

theorem quiet_carriage (env : Env) : Carriage env Quiet where
  refl := .refl
  trans := .trans
  refreshWeight := Cylinder.quiet_refreshWeight env
  recount w c item := Cylinder.quiet_updateThing env w c item _
  releaseItem := quiet_releaseItem
  removeThing := Cylinder.quiet_removeThing env
  addThing := Cylinder.quiet_addThing env
  addThingAnywhere := Cylinder.quiet_addThingAnywhere env

/-- What goes on to the destination is the item or a new one. -/
theorem registers_moveItem {newCount : Nat} {moved : Option ItemRef} (hitem : item < w.next)
    (h : moveItem env w item newCount = some (moved, w')) : Registers p w w' ∧
      ∀ r, moved = some r → r < w'.next ∧ (r = item ∨ w.next ≤ r) := by
  unfold moveItem at h
  split_ifs at h
  · obtain ⟨⟨copy, w₁⟩, hclone, hmoved⟩ := Option.map_eq_some_iff.mp h
    obtain ⟨hregisters, rfl, hlt⟩ := @registers_cloneItem env p w w₁ item copy hclone
    obtain ⟨rfl, rfl⟩ := Prod.mk.inj hmoved
    exact ⟨hregisters.quiet (quiet_modifyItem _ _ _),
      fun r hr => Option.some.inj hr ▸ ⟨hlt, .inr le_rfl⟩⟩
  · obtain ⟨rfl, rfl⟩ := Prod.mk.inj (Option.some.inj h)
    exact ⟨.of_quiet (.refl w), fun _ hr => nomatch hr⟩
  · obtain ⟨rfl, rfl⟩ := Prod.mk.inj (Option.some.inj h)
    exact ⟨.of_quiet (.refl w), fun r hr => Option.some.inj hr ▸ ⟨hitem, .inl rfl⟩⟩

theorem registers_carry {mv : Move} {d : Destination} {toItem moved : Option ItemRef} {m : Nat}
    (hitem : mv.item < w.next) (h : carry env w mv d toItem m = some (moved, w')) :
    Registers p w w' ∧ ∀ r, moved = some r → r < w'.next ∧ (r = mv.item ∨ w.next ≤ r) := by
  unfold carry at h
  dsimp only at h
  obtain ⟨⟨moved', w₁⟩, hmove, hrest⟩ := Option.map_eq_some_iff.mp h
  obtain ⟨rfl, rfl⟩ := Prod.mk.inj hrest
  have hbefore := (quiet_carriage env).merged w mv d.cylinder m
  obtain ⟨hregisters, hmoved⟩ := @registers_moveItem env p _ w₁ _ _ moved'
    ((hbefore _ _).next ▸ hitem) hmove
  have hafter (itemIndex : Int) := (quiet_carriage env).delivered w₁ mv d itemIndex moved'
  refine ⟨((hbefore _ _).registers hregisters).quiet (hafter _ _), fun r hr => ?_⟩
  rw [(hbefore _ _).next] at hmoved
  exact (hafter _ _).next ▸ hmoved r hr

theorem registers_transfer {mv : Move} {d : Destination} {toItem : Option ItemRef}
    {ret : ReturnValue} (hitem : mv.item < w.next)
    (h : transfer env w mv d toItem = some (ret, w')) : Registers (· = mv.item) w w' := by
  unfold transfer at h
  dsimp only at h
  split_ifs at h
  · obtain ⟨-, rfl⟩ := Prod.mk.inj (Option.some.inj h)
    exact .of_quiet (.refl w)
  · obtain ⟨-, rfl⟩ := Prod.mk.inj (Option.some.inj h)
    exact .of_quiet (.refl w)
  · obtain ⟨-, rfl⟩ := Prod.mk.inj (Option.some.inj h)
    exact .of_quiet (.refl w)
  · obtain ⟨⟨moved, w₁⟩, hcarry, hrest⟩ := Option.map_eq_some_iff.mp h
    obtain ⟨hregisters, hmoved⟩ :=
      @registers_carry env (· = mv.item) _ w₁ _ _ _ moved _ hitem hcarry
    dsimp only at hrest
    split_ifs at hrest
    · obtain ⟨-, rfl⟩ := Prod.mk.inj hrest
      exact hregisters
    · cases moved with
      | none =>
        obtain ⟨-, rfl⟩ := Prod.mk.inj hrest
        exact hregisters
      | some r =>
        obtain ⟨-, rfl⟩ := Prod.mk.inj hrest
        obtain ⟨hlt, hr⟩ := hmoved r rfl
        exact hregisters.trans (@registers_registerDecay (· = r) w₁ r hlt rfl)
          fun x hx => hx ▸ hr

theorem registers_internalMoveItem {mv : Move} {ret : ReturnValue} (hitem : mv.item < w.next)
    (h : internalMoveItem env w mv = some (ret, w')) : Registers (· = mv.item) w w' := by
  unfold internalMoveItem at h
  dsimp only at h
  split_ifs at h
  · obtain ⟨-, rfl⟩ := Prod.mk.inj (Option.some.inj h)
    exact .of_quiet (.refl w)
  · obtain ⟨-, rfl⟩ := Prod.mk.inj (Option.some.inj h)
    exact .of_quiet (.refl w)
  · cases hjoins : tryAdmit env w mv (destination env w mv) with
    | none =>
      rw [hjoins] at h
      cases h
    | some result =>
      obtain ⟨ret', admitted⟩ := result
      have hquiet := (quiet_carriage env).tryAdmit hjoins
      rw [hjoins] at h
      dsimp only at h
      split_ifs at h
      · obtain ⟨-, rfl⟩ := Prod.mk.inj (Option.some.inj h)
        exact .of_quiet hquiet
      · exact hquiet.registers (registers_transfer (hquiet.next ▸ hitem) h)

/-! ## Adding -/

theorem quiet_addWhole (env : Env) (w : World) (d : Destination) (item : ItemRef) :
    Quiet w (addWhole env w d item) :=
  (Cylinder.quiet_addThing env w d.cylinder d.index item).trans
    ((quiet_carriage env).notifyAdded _ d.cylinder (some item))

theorem registers_addRemainder {again : World → ItemRef → Option Added} {d : Destination}
    {toItem : ItemRef} {count : Nat} {added : Added}
    (hagain : ∀ w r added, r < w.next → again w r = some added →
      Registers (· = r) w added.world)
    (h : addRemainder env again w d item toItem count = some added) :
    Registers p w added.world := by
  unfold addRemainder at h
  split_ifs at h
  · cases hclone : w.cloneItem env item with
    | none =>
      rw [hclone] at h
      cases h
    | some result =>
      obtain ⟨copy, w₁⟩ := result
      obtain ⟨hregisters, rfl, hlt⟩ := @registers_cloneItem env p w w₁ item copy hclone
      rw [hclone] at h
      obtain ⟨added', hcall, hadded⟩ := Option.map_eq_some_iff.mp h
      have hcounted := quiet_modifyItem w₁ w.next fun it => it.setItemCount count
      have hplaced := (hregisters.quiet hcounted).trans
        (hagain _ _ added' (hcounted.next ▸ hlt) hcall) fun r hr => .inr hr.ge
      split_ifs at hadded <;> subst hadded
      · exact hplaced.quiet (quiet_releaseItem _ _)
      · exact hplaced
  · obtain rfl := Option.some.inj h
    exact .of_quiet (quiet_addWhole env w d item)
  · obtain rfl := Option.some.inj h
    exact .of_quiet ((quiet_releaseItem w item).trans
      ((quiet_carriage env).notifyAdded (w.releaseItem item) d.cylinder (some toItem)))

theorem registers_place {again : World → ItemRef → Option Added} {d : Destination}
    {maxQueryCount : Nat} {added : Added}
    (hagain : ∀ w r added, r < w.next → again w r = some added →
      Registers (· = r) w added.world)
    (h : place env again w d item maxQueryCount = some added) : Registers p w added.world := by
  unfold place at h
  dsimp only at h
  split at h
  · exact (Cylinder.quiet_updateThing env w d.cylinder _ _ _).registers
      (registers_addRemainder hagain h)
  · obtain rfl := Option.some.inj h
    exact .of_quiet (quiet_addWhole env w d item)

theorem registers_internalAddItemAux {toCylinder : Cylinder} {flags : Nat} {test : Bool}
    (fuel : Nat) (w : World) (item : ItemRef) (index : Int) (added : Added)
    (hitem : item < w.next)
    (h : internalAddItemAux env toCylinder flags test fuel w item index = some added) :
    Registers (· = item) w added.world := by
  induction fuel generalizing flags test w item index added with
  | zero => cases h
  | succ fuel ih =>
    rw [internalAddItemAux] at h
    dsimp only at h
    split_ifs at h
    · obtain rfl := Option.some.inj h
      exact .of_quiet (.refl w)
    · obtain rfl := Option.some.inj h
      exact .of_quiet (.refl w)
    · obtain rfl := Option.some.inj h
      exact .of_quiet (.refl w)
    · obtain ⟨placed, hplace, rfl⟩ := Option.map_eq_some_iff.mp h
      have hplaced : Registers (· = item) w placed.world :=
        registers_place (fun w r added hr hcall => ih w r _ added hr hcall) hplace
      exact hplaced.trans_self
        (registers_registerAdded (hitem.trans_le hplaced.next_le) rfl)

/-! ## Transforming -/

/-- The result is the item itself or one that was created. -/
structure Transforms (item : ItemRef) (w : World) (result : Option ItemRef × World) : Prop where
  registers : Registers (fun _ => False) w result.2
  result : ∀ r, result.1 = some r → r < result.2.next ∧ (r = item ∨ w.next ≤ r)

theorem Transforms.of_quiet (h : Quiet w w') (hitem : item < w.next) {result : Option ItemRef}
    (hresult : ∀ r, result = some r → r = item) : Transforms item w (result, w') := by
  refine ⟨.of_quiet h, fun r hr => ?_⟩
  obtain rfl := hresult r hr
  exact ⟨h.next ▸ hitem, .inl rfl⟩

theorem quiet_replaceItem (env : Env) (w : World) (cylinder : Cylinder) (itemIndex : Int)
    (item newItem : ItemRef) : Quiet w (replaceItem env w cylinder itemIndex item newItem) := by
  have hreplace := (Cylinder.quiet_replaceThing env w cylinder itemIndex newItem).trans
    (Cylinder.quiet_refreshWeight env _ cylinder)
  exact hreplace.trans (Quiet.of_same ((Cylinder.quiet_refreshWeight env _ cylinder).trans
    (quiet_releaseItem _ item)) rfl rfl)

theorem transforms_created (env : Env) (w : World) (item : ItemRef) (new : Item)
    (cylinder : Cylinder) (itemIndex : Int) :
    Transforms item w
      (some w.next, replaceItem env (w.alloc new) cylinder itemIndex item w.next) := by
  have hquiet := quiet_replaceItem env (w.alloc new) cylinder itemIndex item w.next
  refine ⟨(registers_alloc w new).quiet hquiet, fun r hr => ?_⟩
  obtain rfl := Option.some.inj hr
  exact ⟨hquiet.next ▸ Nat.lt_succ_self _, .inr le_rfl⟩

theorem transforms_readdItem {cylinder : Cylinder} {newId : Nat} {newCount : Int}
    (hitem : item < w.next) :
    Transforms item w (readdItem env w cylinder item newId newCount) := by
  unfold readdItem
  dsimp only
  have hquiet := ((Cylinder.quiet_removeThing env w cylinder item
    (w.item item).getItemCount).trans (Cylinder.quiet_refreshWeight env _ cylinder)).trans
      (Quiet.of_same (Cylinder.quiet_addThingAnywhere env
        (retype env (Cylinder.postRemoveNotification env
          (Cylinder.removeThing env w cylinder item (w.item item).getItemCount) cylinder) item newId
            newCount) cylinder item) rfl rfl)
  split
  · exact .of_quiet (hquiet.trans (quiet_releaseItem _ item)) hitem fun _ hr => nomatch hr
  · exact .of_quiet (hquiet.trans (Cylinder.quiet_refreshWeight env _ _)) hitem
      fun _ hr => (Option.some.inj hr).symm

theorem transforms_updateItemType {cylinder : Cylinder} {newId : Nat} {newCount : Int}
    (hitem : item < w.next) :
    Transforms item w (updateItemType env w cylinder item newId newCount) := by
  unfold updateItemType
  dsimp only
  have hremoved := Cylinder.quiet_refreshWeight env w cylinder
  have hsubtype := fun (cond : Prop) [Decidable cond] =>
    hremoved.trans (Quiet.ite cond (quiet_modifyItem _ item
      fun it => it.setDefaultSubtype env.items))
  exact .of_quiet ((hsubtype _).trans ((Cylinder.quiet_updateThing env _ cylinder item _ _).trans
    (Cylinder.quiet_refreshWeight env _ cylinder))) hitem fun _ hr => (Option.some.inj hr).symm

theorem transforms_replaceItemType {cylinder : Cylinder} {itemIndex : Int} {newId : Nat}
    {newCount : Int} (hitem : item < w.next) :
    Transforms item w (replaceItemType env w cylinder itemIndex item newId newCount) := by
  unfold replaceItemType
  split
  · exact .of_quiet (.refl w) hitem fun _ hr => nomatch hr
  · next new _ =>
    have hcreated := transforms_created env w item new cylinder itemIndex
    obtain ⟨hlt, -⟩ := hcreated.result w.next rfl
    have hregister := @registers_registerDecay (· = w.next) _ w.next hlt rfl
    refine ⟨hcreated.registers.trans hregister fun r hr => .inr (Nat.le_of_eq hr.symm),
      fun r hr => ?_⟩
    obtain rfl := Option.some.inj hr
    exact ⟨hlt.trans_le hregister.next_le, .inr le_rfl⟩

theorem transforms_consumeItem {again : World → Nat → Option ItemRef × World}
    {cylinder : Cylinder} {itemIndex : Int} {newId : Nat} (hitem : item < w.next)
    (hagain : ∀ id, Transforms item w (again w id)) :
    Transforms item w (consumeItem env again w cylinder itemIndex item newId) := by
  have hremove : Transforms item w (none, (internalRemoveItem env w item none false 0).2) :=
    .of_quiet (quiet_internalRemoveItem env w item none false 0) hitem fun _ hr => nomatch hr
  unfold consumeItem
  dsimp only
  generalize (if (env.items.get (w.item item).id).id = (env.items.get newId).id then
    (w.item item).getDecayTo env.items else (newId : Int)) = newItemId
  split_ifs
  · exact hremove
  · exact hremove
  · split
    · exact .of_quiet (.refl w) hitem fun _ hr => nomatch hr
    · next new _ => exact transforms_created env w item new cylinder itemIndex
  · exact hagain _

theorem transforms_transformItemAux {again : World → Nat → Option ItemRef × World}
    {newId : Nat} {newCount : Int} (hitem : item < w.next)
    (hagain : ∀ id, Transforms item w (again w id)) :
    Transforms item w (transformItemAux env again w item newId newCount) := by
  have hsame : Transforms item w (some item, w) :=
    .of_quiet (.refl w) hitem fun _ hr => (Option.some.inj hr).symm
  unfold transformItemAux
  dsimp only
  split
  · exact hsame
  · split
    · exact .of_quiet (.refl w) hitem fun _ hr => nomatch hr
    · split_ifs
      · exact hsame
      · exact hsame
      · exact hsame
      · exact transforms_readdItem hitem
      · exact transforms_consumeItem hitem hagain
      · exact transforms_updateItemType hitem
      · exact transforms_replaceItemType hitem

theorem transforms_transformItem {newId : Nat} {newCount : Int} (hitem : item < w.next) :
    Transforms item w (transformItem env w item newId newCount) :=
  transforms_transformItemAux hitem fun _ => transforms_transformItemAux hitem fun _ =>
    .of_quiet (.refl w) hitem fun _ hr => (Option.some.inj hr).symm

/-! ## Decay -/

theorem startDecay_none (env : Env) (fuel : Nat) (w : World) : startDecay env fuel w none = w := by
  cases fuel <;> rfl

/-- The decay of the result of a transformation. -/
theorem Transforms.registers_startDecay {result : Option ItemRef × World}
    (h : Transforms item w result) (fuel : Nat)
    (hdecay : ∀ w r, r < w.next → Registers (· = r) w (startDecay env fuel w (some r))) :
    Registers (· = item) w (startDecay env fuel result.2 result.1) := by
  have hregisters : Registers (· = item) w result.2 := h.registers.mono fun _ h => h.elim
  cases hresult : result.1 with
  | none =>
    rw [startDecay_none]
    exact hregisters
  | some newItem =>
    obtain ⟨hlt, hnew⟩ := h.result newItem hresult
    exact hregisters.trans (hdecay result.2 newItem hlt) fun r hr => hr ▸ hnew

theorem registers_startDecay (fuel : Nat) (w : World) (item : ItemRef) (hitem : item < w.next) :
    Registers (· = item) w (startDecay env fuel w (some item)) := by
  induction fuel generalizing w item with
  | zero => exact .of_quiet (.refl w)
  | succ fuel ih =>
    rw [startDecay]
    split_ifs
    · exact .of_quiet (.refl w)
    · exact .of_quiet (.refl w)
    · exact (quiet_modifyItem w item _).registers (registers_pushToDecay hitem rfl)
    · exact (transforms_transformItem hitem).registers_startDecay fuel fun w r => ih w r
    · exact .of_quiet (quiet_internalRemoveItem env w item none false 0)

theorem registers_internalDecayItem (fuel : Nat) (hitem : item < w.next) :
    Registers (· = item) w (internalDecayItem env fuel w item) := by
  unfold internalDecayItem
  split_ifs
  · exact (transforms_transformItem hitem).registers_startDecay fuel
      fun w r => registers_startDecay fuel w r
  · exact .of_quiet (quiet_internalRemoveItem env w item none false 0)

end Game

end Registers

end Eloth
