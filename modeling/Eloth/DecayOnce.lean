import Eloth.DecayMarks
import Eloth.DecayTime
import Eloth.MoveRoom

/-!
# Items that are registered once

An item that is registered carries the mark of a decaying item, and an operation that looks at the
mark does not register the item again. `internalAddItem` does not look at it, and a new type may take
the mark off a registered item.
-/

namespace Eloth

open Game

namespace Item

variable {items : Items} {a b it copy : Item} {t t' : AttrType} {n newid address : Nat}

/-- The item has the mark of a decaying item, and some duration is left. -/
def Ticks (it : Item) : Prop := it.getDecaying = DECAYING_TRUE ∧ 0 < it.getDuration

/-- An item that keeps its duration and its mark when its id changes. -/
def KeepsMark (items : Items) (id newid : Nat) : Prop :=
  let it := items.get newid
  if it.decayTime * 1000 % 2 ^ 32 = 0 then it.stopTime = true ∨ 0 ≤ it.decayTo
  else (items.get id).stopTime = true

instance (id newid : Nat) : Decidable (KeepsMark items id newid) :=
  inferInstanceAs (Decidable (if _ = 0 then _ ∨ _ else _))

/-- The item has no duration, and its type gives it none. -/
def Lasting (items : Items) (it : Item) : Prop :=
  it.getDuration = 0 ∧ it.getDefaultDuration items = 0

theorem attr_of_attributes (h : a.attributes = b.attributes) (t : AttrType) :
    a.attr t = b.attr t := by
  rw [attr, attr, h]

theorem getDuration_congr (h : a.attr .duration = b.attr .duration) :
    a.getDuration = b.getDuration := by
  rw [getDuration, getDuration, getIntAttr, getIntAttr, h]

theorem ticks_congr (hmark : a.attr .decayState = b.attr .decayState)
    (hduration : a.attr .duration = b.attr .duration) : a.Ticks ↔ b.Ticks := by
  rw [Ticks, Ticks, getDuration_congr hduration, getDecaying, getDecaying, getIntAttr, getIntAttr,
    hmark]

theorem attr_removeAttribute_of_ne (h : t' ≠ t) : (it.removeAttribute t).attr t' = it.attr t' := by
  unfold removeAttribute attr
  cases it.attributes with
  | none => rfl
  | some attributes => exact Function.update_of_ne h _ _

theorem attr_setSubType (hfluid : t ≠ .fluidType) (hcharges : t ≠ .charges) :
    (it.setSubType items n).attr t = it.attr t := by
  unfold setSubType
  dsimp only
  split_ifs
  · exact it.attr_setIntAttr_of_ne _ hfluid
  · rfl
  · exact it.attr_setIntAttr_of_ne _ hcharges
  · rfl

theorem attr_setDefaultSubtype (hcharges : t ≠ .charges) :
    (it.setDefaultSubtype items).attr t = it.attr t := by
  unfold setDefaultSubtype
  dsimp only
  split_ifs
  · rfl
  · exact (it.setItemCount 1).attr_setIntAttr_of_ne _ hcharges
  · rfl

theorem Ticks.setSubType (h : it.Ticks) (n : Nat) : (it.setSubType items n).Ticks :=
  (ticks_congr (attr_setSubType (by decide) (by decide))
    (attr_setSubType (by decide) (by decide))).mpr h

theorem Ticks.setDefaultSubtype (h : it.Ticks) : (it.setDefaultSubtype items).Ticks :=
  (ticks_congr (attr_setDefaultSubtype (by decide)) (attr_setDefaultSubtype (by decide))).mpr h

theorem attr_of_equals (h : a.equals b = true) (t : AttrType) : a.attr t = b.attr t := by
  have hall : t ∈ AttrType.all := by cases t <;> decide
  exact (of_decide_eq_true h).2 t hall

theorem ticks_setDecaying (h : 0 < it.getDuration) : (it.setDecaying DECAYING_TRUE).Ticks := by
  refine ⟨?_, (it.getDuration_setDecaying _).symm ▸ h⟩
  rw [getDecaying, getIntAttr, setDecaying, attr_setIntAttr_self]

theorem hasAttribute_of_ticks (h : it.Ticks) : it.hasAttribute .duration = true := by
  by_contra hnone
  have hattr : it.attr .duration = none := by simpa [hasAttribute] using hnone
  have hzero : it.getDuration = 0 := by rw [getDuration, getIntAttr, hattr]; rfl
  exact absurd h.2 (by omega)

theorem Ticks.setID (h : it.Ticks) (hkeeps : KeepsMark items it.id newid) :
    (it.setID items newid).Ticks := by
  have hsame : ∀ t, t ≠ AttrType.corpseOwner →
      (({ it with id := newid } : Item).removeAttribute .corpseOwner).attr t = it.attr t :=
    fun t ht => attr_removeAttribute_of_ne ht
  have hduration : (({ it with id := newid } : Item).removeAttribute .corpseOwner).hasAttribute
      .duration = true := by
    rw [hasAttribute, hsame _ (by decide)]
    exact hasAttribute_of_ticks h
  unfold Item.setID
  dsimp only
  unfold KeepsMark at hkeeps
  dsimp only at hkeeps
  have hclear : ¬((items.get newid).decayTime * 1000 % 2 ^ 32 = 0 ∧
      (items.get newid).stopTime = false ∧ (items.get newid).decayTo < 0) := by
    rintro ⟨hnew, hstop, hdecayTo⟩
    rw [if_pos hnew] at hkeeps
    rcases hkeeps with hstop' | hdecayTo'
    · exact absurd hstop (by simp [hstop'])
    · omega
  rw [if_neg hclear]
  have hreset : ¬(0 < (items.get newid).decayTime * 1000 % 2 ^ 32 ∧
      ((items.get it.id).stopTime = false ∨
        (({ it with id := newid } : Item).removeAttribute .corpseOwner).hasAttribute .duration =
          false)) := by
    rintro ⟨hnew, hstop | hnone⟩
    · rw [if_neg (Nat.ne_of_gt hnew)] at hkeeps
      exact absurd hstop (by simp [hkeeps])
    · exact absurd hduration (by simp [hnone])
  rw [if_neg hreset]
  exact (ticks_congr (hsame _ (by decide)) (hsame _ (by decide))).mpr h

theorem ticks_clone (h : it.clone items address = some copy) (hsome : it.attributes.isSome)
    (hduration : 0 < copy.getDuration) : copy.Ticks := by
  obtain ⟨made, -, rfl⟩ := Option.map_eq_some_iff.mp h
  obtain ⟨attributes, hattributes⟩ := Option.isSome_iff_exists.mp hsome
  rw [hattributes] at hduration ⊢
  dsimp only at hduration ⊢
  split_ifs at hduration ⊢ with hgoesOn
  · exact ticks_setDecaying hgoesOn
  · exact absurd hduration hgoesOn

theorem getDuration_new {count : Nat} {cls : ItemClass}
    (h : (items.get n).decayTime * 1000 % 2 ^ 32 = 0) :
    (Item.new items n count cls).getDuration = 0 := by
  have hbare : ∀ it : Item, it.attr .duration = none → it.getDuration = 0 := by
    intro it hnone
    rw [getDuration, getIntAttr, hnone]
    rfl
  refine hbare _ ?_
  unfold Item.new setDefaultDuration getDefaultDuration
  dsimp only
  split_ifs
  all_goals first
    | exact absurd h ‹_›
    | rfl

/-- The clone is made anew if the original has no attributes, or else it takes them over. -/
theorem clone_cases (hstack : it.isStackable items = true)
    (h : it.clone items address = some copy) :
    (∃ count, copy = Item.new items it.id count .item) ∨
      copy.attr .duration = (it.attr .duration).map (copyValue address) := by
  obtain ⟨made, hmade, rfl⟩ := Option.map_eq_some_iff.mp h
  cases hattributes : it.attributes with
  | none =>
    rw [CreateItem_of_stackable hstack] at hmade
    exact .inl ⟨_, (Option.some.inj hmade).symm⟩
  | some attributes =>
    have hattr : it.attr .duration = attributes .duration := by rw [attr, hattributes]
    rw [hattr]
    dsimp only
    refine .inr ?_
    split_ifs
    · rw [setDecaying, attr_setIntAttr_of_ne _ _ (by decide)]
      rfl
    · rfl

theorem getDuration_copy (h : copy.attr .duration = (it.attr .duration).map (copyValue address)) :
    copy.getDuration = it.getDuration := by
  rw [getDuration, getDuration, getIntAttr, getIntAttr, h]
  cases it.attr .duration with
  | none => rfl
  | some v => cases v <;> rfl

theorem Lasting.clone (h : it.Lasting items) (hstack : it.isStackable items = true)
    (hclone : it.clone items address = some copy) : copy.Lasting items := by
  have hid : copy.id = it.id := clone_id hstack hclone
  refine ⟨?_, by rw [getDefaultDuration, hid]; exact h.2⟩
  obtain ⟨count, rfl⟩ | hcopied := clone_cases hstack hclone
  · exact getDuration_new h.2
  · exact (getDuration_copy hcopied).trans h.1

/-- A type without a decay time sets no duration. -/
theorem Lasting.retype (h : it.Lasting items) (n : Nat) :
    ((it.setID items it.id).setSubType items n).Lasting items := by
  refine ⟨?_, by rw [getDefaultDuration, setSubType_setID_id]; exact h.2⟩
  have hnew : ¬0 < (items.get it.id).decayTime * 1000 % 2 ^ 32 := by
    have hdefault := h.2
    rw [getDefaultDuration] at hdefault
    omega
  rw [getDuration_congr (attr_setSubType (by decide) (by decide)), Item.setID,
    if_neg fun hreset => hnew hreset.1]
  split_ifs
  · have hnone : (((it.removeAttribute .decayState).removeAttribute .duration).removeAttribute
        .corpseOwner).attr .duration = none := by
      rw [attr_removeAttribute_of_ne (by decide)]
      unfold removeAttribute attr
      cases it.attributes with
      | none => rfl
      | some attributes => exact Function.update_self _ _ _
    rw [getDuration, getIntAttr, show Item.attr _ .duration = none from hnone]
    rfl
  · rw [getDuration_congr (attr_removeAttribute_of_ne (by decide))]
    exact h.1

end Item

namespace DecayState

/-- How often an item is registered, while the loop goes through what is left of the bucket. -/
def listed (loop : List ItemRef) (w : World) (r : ItemRef) : Nat :=
  w.toDecayItems.count r + bucketCount w r + loop.count r

/-- Every item that is registered exists, is registered once and ticks. -/
structure Once (loop : List ItemRef) (w : World) : Prop where
  le_one : ∀ r, listed loop w r ≤ 1
  lt : ∀ r, 0 < listed loop w r → r < w.next
  ticks : ∀ r, 0 < listed loop w r → (w.item r).Ticks

section Once

variable {env : Env} {loop : List ItemRef} {w w' : World} {r item copy : ItemRef}

theorem listed_of_quiet (h : Quiet w w') : listed loop w' r = listed loop w r := by
  have htoDecay : w'.toDecayItems = w.toDecayItems := congrArg DecayLists.toDecayItems h.decays
  rw [listed, listed, htoDecay, bucketCount_of_decayItems (congrArg DecayLists.decayItems h.decays)]

theorem listed_of_registers {p : ItemRef → Prop} (h : Registers p w w') (hp : ¬ p r)
    (hr : r < w.next) : listed loop w' r = listed loop w r := by
  obtain ⟨new, htoDecay, hnew, -⟩ := h.entries
  have hnone : new.count r = 0 :=
    List.count_eq_zero.mpr fun hmem => (hnew r hmem).2.elim hp (not_le.mpr hr)
  rw [listed, listed, htoDecay, List.count_append, hnone, Nat.zero_add,
    bucketCount_of_decayItems h.decayItems]

namespace Once

theorem listed_eq_zero (h : Once loop w) (hno : ¬(w.item r).Ticks) : listed loop w r = 0 := by
  by_contra hlisted
  exact hno (h.ticks r (Nat.pos_of_ne_zero hlisted))

theorem of_quiet (h : Once loop w) (hquiet : Quiet w w')
    (hticks : ∀ r, 0 < listed loop w r → (w.item r).Ticks → (w'.item r).Ticks) :
    Once loop w' := by
  refine ⟨fun r => ?_, fun r hr => ?_, fun r hr => ?_⟩
  · rw [listed_of_quiet hquiet]
    exact h.le_one r
  · rw [listed_of_quiet hquiet] at hr
    rw [hquiet.next]
    exact h.lt r hr
  · rw [listed_of_quiet hquiet] at hr
    exact hticks r hr (h.ticks r hr)

theorem same (h : Once loop w) (hquiet : Quiet w w') (hmarks : w'.marks = w.marks) :
    Once loop w' := by
  refine h.of_quiet hquiet fun r _ hticks => ?_
  have hattr := Item.attr_of_attributes (attributes_of_marks (congrFun hmarks r))
  exact (Item.ticks_congr (hattr _) (hattr _)).mpr hticks

theorem modifyItem (h : Once loop w) {f : Item → Item}
    (hf : 0 < listed loop w r → (w.item r).Ticks → (f (w.item r)).Ticks) :
    Once loop (w.modifyItem r f) := by
  refine h.of_quiet (quiet_modifyItem w r f) fun x hx hticks => ?_
  by_cases hxr : x = r
  · subst hxr
    rw [World.modifyItem_item_self]
    exact hf hx hticks
  · rwa [World.modifyItem_item_ne hxr]

theorem setItemCount (h : Once loop w) (r : ItemRef) (n : Nat) :
    Once loop (w.modifyItem r fun it => it.setItemCount n) :=
  h.same (quiet_modifyItem w r _) marks_setItemCount

theorem alloc (h : Once loop w) (it : Item) : Once loop (w.alloc it) := by
  refine ⟨h.le_one, fun r hr => (h.lt r hr).trans (Nat.lt_succ_self _), fun r hr => ?_⟩
  rw [show (w.alloc it).item r = w.item r from
    Function.update_of_ne (Nat.ne_of_lt (h.lt r hr)) _ _]
  exact h.ticks r hr

/-- One more entry, for an item that has none. -/
theorem enter (h : Once loop w) (hr : r < w.next) (hnone : listed loop w r = 0)
    (hticks : (w.item r).Ticks) (hnext : w'.next = w.next) (hitem : w'.item = w.item)
    (hlisted : ∀ x, listed loop w' x = [r].count x + listed loop w x) : Once loop w' := by
  have hcases (x : ItemRef) : x = r ∨ listed loop w' x = listed loop w x := by
    by_cases hx : x = r
    · exact .inl hx
    · refine .inr ?_
      rw [hlisted, List.count_eq_zero.mpr (by simpa using hx), Nat.zero_add]
  refine ⟨fun x => ?_, fun x hx => ?_, fun x hx => ?_⟩
  · obtain rfl | hsame := hcases x
    · rw [hlisted, hnone, List.count_singleton_self]
    · rw [hsame]
      exact h.le_one x
  · rw [hnext]
    obtain rfl | hsame := hcases x
    · exact hr
    · exact h.lt x (hsame ▸ hx)
  · rw [hitem]
    obtain rfl | hsame := hcases x
    · exact hticks
    · exact h.ticks x (hsame ▸ hx)

theorem pushToDecay (h : Once loop w) (hr : r < w.next) (hnone : listed loop w r = 0)
    (hticks : (w.item r).Ticks) : Once loop (w.pushToDecay r) := by
  refine h.enter hr hnone hticks rfl rfl fun x => ?_
  change (r :: w.toDecayItems).count x + bucketCount w x + loop.count x = _
  rw [← List.singleton_append, List.count_append, listed]
  ring

/-- An item without an entry gets the mark with its entry. -/
theorem register (h : Once loop w) (hr : r < w.next) (hnone : listed loop w r = 0)
    (hduration : 0 < (w.item r).getDuration) :
    Once loop ((w.modifyItem r fun it => it.setDecaying DECAYING_TRUE).pushToDecay r) := by
  have hmarked : Once loop (w.modifyItem r fun it => it.setDecaying DECAYING_TRUE) :=
    h.modifyItem fun _ _ => Item.ticks_setDecaying hduration
  refine hmarked.pushToDecay hr ((listed_of_quiet (quiet_modifyItem w r _)).trans hnone) ?_
  rw [World.modifyItem_item_self]
  exact Item.ticks_setDecaying hduration

theorem updateThing (h : Once loop w) {c : Cylinder} {itemId count : Nat}
    (hkeeps : 0 < listed loop w item → Item.KeepsMark env.items (w.item item).id itemId) :
    Once loop (Cylinder.updateThing env w c item itemId count) := by
  have hquiet := Cylinder.quiet_updateThing env w c item itemId count
  obtain hmarks | hmarks := marks_updateThing env w c item itemId count
  · exact h.same hquiet hmarks
  · have hretyped : Once loop (w.modifyItem item fun it =>
        (it.setID env.items itemId).setSubType env.items count) := by
      refine h.modifyItem fun hlisted hticks => ?_
      exact (hticks.setID (hkeeps hlisted)).setSubType count
    refine h.of_quiet hquiet fun r hr _ => ?_
    have hsame := Item.attr_of_attributes (attributes_of_marks (congrFun hmarks r))
    refine (Item.ticks_congr (hsame _) (hsame _)).mpr (hretyped.ticks r ?_)
    rwa [listed_of_quiet (quiet_modifyItem w item _)]

end Once

/-- A clone is a new item, which is registered once if it has a duration to go on with. -/
theorem Once.cloneItem (h : Once loop w) (hclone : w.cloneItem env item = some (copy, w')) :
    Once loop w' := by
  unfold World.cloneItem at hclone
  obtain ⟨it, hit, hpair⟩ := Option.map_eq_some_iff.mp hclone
  obtain ⟨-, rfl⟩ := Prod.mk.inj hpair
  have halloc := h.alloc it
  split_ifs with hduration
  · refine halloc.pushToDecay (Nat.lt_succ_self _) ?_ ?_
    · by_contra hlisted
      exact absurd (h.lt w.next (Nat.pos_of_ne_zero hlisted)) (lt_irrefl _)
    · rw [show (w.alloc it).item w.next = it from Function.update_self _ _ _]
      exact Item.ticks_clone hit hduration.1 hduration.2
  · exact halloc

/-! ## Moving -/

theorem once_registerDecay (h : Once loop w) (hr : r < w.next) : Once loop (registerDecay w r) := by
  unfold registerDecay
  split_ifs with hdecay
  · exact h.register hr (h.listed_eq_zero fun hticks => hdecay.2 hticks.1) hdecay.1
  · exact h

theorem once_moveItem {newCount : Nat} {moved : Option ItemRef} (h : Once loop w)
    (hmove : moveItem env w item newCount = some (moved, w')) : Once loop w' := by
  unfold moveItem at hmove
  split_ifs at hmove
  · obtain ⟨⟨copy, w₁⟩, hclone, hmoved⟩ := Option.map_eq_some_iff.mp hmove
    obtain ⟨-, rfl⟩ := Prod.mk.inj hmoved
    exact (h.cloneItem hclone).setItemCount copy newCount
  · obtain ⟨-, rfl⟩ := Prod.mk.inj (Option.some.inj hmove)
    exact h
  · obtain ⟨-, rfl⟩ := Prod.mk.inj (Option.some.inj hmove)
    exact h

theorem equals_of_marks (h : w'.marks = w.marks) (a b : ItemRef) :
    (w'.item a).equals (w'.item b) = (w.item a).equals (w.item b) := by
  have hattr := fun x => Item.attr_of_attributes (attributes_of_marks (congrFun h x))
  unfold Item.equals
  simp only [id_of_marks (congrFun h a), id_of_marks (congrFun h b), hattr]

/-- The item keeps the mark under the new id if it is registered. -/
def Keeps (env : Env) (loop : List ItemRef) (w : World) (r : ItemRef) (newid : Nat) : Prop :=
  0 < listed loop w r → Item.KeepsMark env.items (w.item r).id newid

theorem Keeps.of_quiet {newid : Nat} (h : Keeps env loop w r newid) (hquiet : Quiet w w')
    (hid : (w'.item r).id = (w.item r).id) : Keeps env loop w' r newid := by
  rw [Keeps, listed_of_quiet hquiet, hid]
  exact h

theorem once_carry {mv : Move} {d : Destination} {toItem moved : Option ItemRef} {m : Nat}
    (h : Once loop w)
    (hgrows : ∀ t, toItem = some t → (w.item mv.item).isStackable env.items = true →
      (w.item mv.item).equals (w.item t) = true → Keeps env loop w t (w.item t).id)
    (hcarry : carry env w mv d toItem m = some (moved, w')) : Once loop w' := by
  unfold carry at hcarry
  dsimp only at hcarry
  obtain ⟨⟨moved', w₁⟩, hmove, hpair⟩ := Option.map_eq_some_iff.mp hcarry
  obtain ⟨rfl, rfl⟩ := Prod.mk.inj hpair
  have hremoved := Cylinder.quiet_removeThing env w mv.fromCylinder mv.item m
  have hmarks : (Cylinder.removeThing env w mv.fromCylinder mv.item m).marks = w.marks :=
    marks_removeThing
  have hmerged : Once loop (mergeStack env (Cylinder.removeThing env w mv.fromCylinder mv.item m)
      d.cylinder (if (w.item mv.item).isStackable env.items = true then
        mergeCount (Cylinder.removeThing env w mv.fromCylinder mv.item m) mv.item toItem m else 0)
      (if (w.item mv.item).isStackable env.items = true then
        updateItem (Cylinder.removeThing env w mv.fromCylinder mv.item m) mv.item toItem
          else none)) := by
    split_ifs with hstack
    · cases hmerge : updateItem (Cylinder.removeThing env w mv.fromCylinder mv.item m) mv.item
        toItem with
      | none => exact h.same hremoved hmarks
      | some t =>
        obtain ⟨hfound, hequals⟩ := Option.filter_eq_some_iff.mp hmerge
        rw [equals_of_marks hmarks] at hequals
        have hid := id_of_marks (congrFun hmarks t)
        refine (h.same hremoved hmarks).updateThing ?_
        have hkeeps := (hgrows t hfound hstack hequals).of_quiet hremoved hid
        rw [Keeps, hid] at hkeeps
        rw [hid]
        exact hkeeps
    · exact h.same hremoved hmarks
  have hcopied := once_moveItem hmerged hmove
  exact hcopied.same ((quiet_carriage env).delivered w₁ mv d _ _ _) (marks_delivered _ _ _)

theorem once_transfer {mv : Move} {d : Destination} {toItem : Option ItemRef} {ret : ReturnValue}
    (h : Once loop w) (hitem : mv.item < w.next)
    (hgrows : Carries env w mv d → ∀ t, toItem = some t →
      (w.item mv.item).isStackable env.items = true →
      (w.item mv.item).equals (w.item t) = true → Keeps env loop w t (w.item t).id)
    (htransfer : transfer env w mv d toItem = some (ret, w')) : Once loop w' := by
  unfold transfer at htransfer
  dsimp only at htransfer
  split_ifs at htransfer with hmax hremove hinside
  · obtain ⟨-, rfl⟩ := Prod.mk.inj (Option.some.inj htransfer)
    exact h
  · obtain ⟨-, rfl⟩ := Prod.mk.inj (Option.some.inj htransfer)
    exact h
  · obtain ⟨-, rfl⟩ := Prod.mk.inj (Option.some.inj htransfer)
    exact h
  · have hcarries : Carries env w mv d := ⟨hmax, not_not.mp hremove, by simpa using hinside⟩
    obtain ⟨⟨moved, w₁⟩, hcarry, hend⟩ := Option.map_eq_some_iff.mp htransfer
    have hcarried := once_carry h (hgrows hcarries) hcarry
    obtain ⟨-, hmoved⟩ := registers_carry (p := fun _ => True) hitem hcarry
    dsimp only at hend
    split_ifs at hend
    · obtain ⟨-, rfl⟩ := Prod.mk.inj hend
      exact hcarried
    · cases moved with
      | none =>
        obtain ⟨-, rfl⟩ := Prod.mk.inj hend
        exact hcarried
      | some r =>
        obtain ⟨-, rfl⟩ := Prod.mk.inj hend
        exact once_registerDecay hcarried (hmoved r rfl).1

/-- The checks of a move that stacks units with the item at the destination. -/
structure Merges (env : Env) (w : World) (mv : Move) (t : ItemRef) : Prop where
  allowed : eventAllows env w mv mv.item mv.fromCylinder mv.toCylinder = true
  other : (destination env w mv).destItem ≠ some mv.item
  admitted : tryAdmit env w mv (destination env w mv) = some (.noError, ⟨w, some t⟩)
  carries : Carries env w mv (destination env w mv)
  stackable : (w.item mv.item).isStackable env.items = true
  equals : (w.item mv.item).equals (w.item t) = true

theorem once_internalMoveItem {mv : Move} {ret : ReturnValue} (h : Once loop w)
    (hitem : mv.item < w.next) (hgrows : ∀ t, Merges env w mv t → Keeps env loop w t (w.item t).id)
    (hmove : internalMoveItem env w mv = some (ret, w')) : Once loop w' := by
  obtain ⟨-, rfl⟩ | ⟨hallowed, hother, ret', admitted, hadmitted, -, hend⟩ :=
    internalMoveItem_cases hmove
  · exact h
  have hquiet := (quiet_carriage env).tryAdmit hadmitted
  obtain ⟨toItem, -, rfl, -⟩ | ⟨-, rfl, -⟩ := tryAdmit_cases hadmitted
  · have hexchanged := h.same hquiet (marks_exchange toItem (destination env w mv).cylinder)
    obtain ⟨-, rfl⟩ | ⟨-, htransfer⟩ := hend
    · exact hexchanged
    · refine once_transfer hexchanged (hquiet.next ▸ hitem) (fun _ t ht => ?_) htransfer
      cases ht
  · obtain ⟨-, rfl⟩ | ⟨rfl, htransfer⟩ := hend
    · exact h
    · refine once_transfer h hitem (fun hcarries t ht hstack hequals => ?_) htransfer
      refine hgrows t ⟨hallowed, hother, ?_, hcarries, hstack, hequals⟩
      rw [hadmitted, show (destination env w mv).destItem = some t from ht]

/-! ## Adding -/

/-- The checks of `internalAddItem`. -/
def Admits (env : Env) (w : World) (toCylinder : Cylinder) (item : ItemRef) (index : Int)
    (flags : Nat) : Prop :=
  let count := (w.item item).getItemCount
  let d := Cylinder.queryDestination env w toCylinder index item none flags
  Cylinder.queryAdd env w d.cylinder d.index item count d.flags none = .noError ∧
    (Cylinder.queryMaxCount env w toCylinder INDEX_WHEREEVER item count d.flags).1 = .noError

/-- The clone that takes the units that the stack at the destination does not take. -/
def remainder (env : Env) (w : World) (d : Destination) (item : ItemRef) (maxQueryCount : Nat) :
    Option (ItemRef × World) :=
  let it := w.item item
  match d.destItem.filter fun t => it.isStackable env.items && it.equals (w.item t) with
  | none => none
  | some toItem =>
    let m := min it.getItemCount maxQueryCount
    let n := min ((100 + 2 ^ 32 - (w.item toItem).getItemCount) % 2 ^ 32) m
    let w := Cylinder.updateThing env w d.cylinder toItem (w.item toItem).id
      ((w.item toItem).getItemCount + n)
    if 0 < m - n ∧ (w.item item).getItemCount ≠ m - n then
      (w.cloneItem env item).map fun (copy, w) =>
        (copy, w.modifyItem copy fun it => it.setItemCount (m - n))
    else none

theorem once_registerAdded (h : Once loop w) (hr : r < w.next) (hnone : listed loop w r = 0) :
    Once loop (registerAdded w r) := by
  unfold registerAdded
  split_ifs with hduration
  · exact h.register hr hnone hduration
  · exact h

theorem once_addWhole (h : Once loop w) (d : Destination) (item : ItemRef) :
    Once loop (addWhole env w d item) :=
  h.same (quiet_addWhole env w d item) (marks_notifyAdded.trans marks_addThing)

theorem once_place {again : World → ItemRef → Option Added} {d : Destination}
    {maxQueryCount : Nat} {added : Added} (h : Once loop w)
    (hgrows : ∀ t, d.destItem = some t → (w.item item).isStackable env.items = true →
      (w.item item).equals (w.item t) = true → Keeps env loop w t (w.item t).id)
    (hagain : ∀ copy w₁ added, remainder env w d item maxQueryCount = some (copy, w₁) →
      Once loop w₁ → again w₁ copy = some added → Once loop added.world)
    (hplace : place env again w d item maxQueryCount = some added) : Once loop added.world := by
  unfold place at hplace
  unfold remainder at hagain
  dsimp only at hplace hagain
  cases hfound : d.destItem.filter fun t =>
      (w.item item).isStackable env.items && (w.item item).equals (w.item t) with
  | none =>
    rw [hfound] at hplace
    obtain rfl := Option.some.inj hplace
    exact once_addWhole h d item
  | some toItem =>
    rw [hfound] at hplace hagain
    dsimp only at hplace hagain
    obtain ⟨hdest, hstacks⟩ := Option.filter_eq_some_iff.mp hfound
    rw [Bool.and_eq_true] at hstacks
    have hgrown : Once loop (Cylinder.updateThing env w d.cylinder toItem (w.item toItem).id
        ((w.item toItem).getItemCount + min ((100 + 2 ^ 32 -
          (w.item toItem).getItemCount) % 2 ^ 32)
            (min (w.item item).getItemCount maxQueryCount))) :=
      h.updateThing (hgrows toItem hdest hstacks.1 hstacks.2)
    unfold addRemainder at hplace
    split_ifs at hplace with hover hpart
    · rw [if_pos ⟨hover, hpart⟩] at hagain
      cases hclone : World.cloneItem _ env item with
      | none =>
        rw [hclone] at hplace
        cases hplace
      | some result =>
        obtain ⟨copy, w₁⟩ := result
        rw [hclone] at hplace hagain
        obtain ⟨added', hcall, hend⟩ := Option.map_eq_some_iff.mp hplace
        have hplaced := hagain copy _ added' rfl ((hgrown.cloneItem hclone).setItemCount copy _)
          hcall
        split_ifs at hend <;> subst hend
        · exact hplaced.same (quiet_releaseItem _ _) rfl
        · exact hplaced
    · obtain rfl := Option.some.inj hplace
      exact once_addWhole hgrown d item
    · obtain rfl := Option.some.inj hplace
      refine (hgrown.same (quiet_releaseItem _ item) rfl).same
        ((quiet_carriage env).notifyAdded _ d.cylinder (some toItem)) marks_notifyAdded

/-- One call, for an item that has no entry. -/
theorem once_add {toCylinder : Cylinder} {flags fuel : Nat} {test : Bool} {index : Int}
    {added : Added} (h : Once loop w) (hitem : item < w.next)
    (hnone : test = false → Admits env w toCylinder item index flags → listed loop w item = 0)
    (hgrows : test = false → Admits env w toCylinder item index flags → ∀ t,
      (Cylinder.queryDestination env w toCylinder index item none flags).destItem = some t →
      (w.item item).isStackable env.items = true →
      (w.item item).equals (w.item t) = true → Keeps env loop w t (w.item t).id)
    (hagain : test = false → Admits env w toCylinder item index flags →
      let d := Cylinder.queryDestination env w toCylinder index item none flags
      ∀ copy w₁ added, remainder env w d item (Cylinder.queryMaxCount env w toCylinder
          INDEX_WHEREEVER item (w.item item).getItemCount d.flags).2 = some (copy, w₁) →
        Once loop w₁ → internalAddItemAux env toCylinder d.flags false fuel w₁ copy
          INDEX_WHEREEVER = some added → Once loop added.world)
    (hadd : internalAddItemAux env toCylinder flags test (fuel + 1) w item index = some added) :
    Once loop added.world := by
  rw [internalAddItemAux] at hadd
  dsimp only at hadd
  split_ifs at hadd with hadmitted hmax htest
  · obtain rfl := Option.some.inj hadd
    exact h
  · obtain rfl := Option.some.inj hadd
    exact h
  · obtain rfl := Option.some.inj hadd
    exact h
  · have htest' : test = false := by simpa using htest
    have hadmits : Admits env w toCylinder item index flags :=
      ⟨not_not.mp hadmitted, not_not.mp hmax⟩
    obtain ⟨placed, hplace, rfl⟩ := Option.map_eq_some_iff.mp hadd
    have hplaced := once_place h (hgrows htest' hadmits) (hagain htest' hadmits) hplace
    have hregisters : Registers (fun _ => False) w placed.world :=
      registers_place (fun w r added hr hcall =>
        registers_internalAddItemAux fuel w r INDEX_WHEREEVER added hr hcall) hplace
    refine once_registerAdded hplaced (hitem.trans_le hregisters.next_le) ?_
    rw [listed_of_registers hregisters id hitem]
    exact hnone htest' hadmits

theorem remainder_spec {d : Destination} {maxQueryCount : Nat}
    (h : remainder env w d item maxQueryCount = some (copy, w')) :
    (w.item item).isStackable env.items = true ∧ ∃ t count n w₁,
      (Cylinder.updateThing env w d.cylinder t (w.item t).id count).cloneItem env item =
        some (copy, w₁) ∧ w' = w₁.modifyItem copy fun it => it.setItemCount n := by
  unfold remainder at h
  dsimp only at h
  split at h
  · cases h
  · next t hfound =>
    obtain ⟨-, hstacks⟩ := Option.filter_eq_some_iff.mp hfound
    split_ifs at h
    obtain ⟨⟨copy', w₁⟩, hclone, hpair⟩ := Option.map_eq_some_iff.mp h
    obtain ⟨rfl, rfl⟩ := Prod.mk.inj hpair
    exact ⟨(Bool.and_eq_true_iff.mp hstacks).1, t, _, _, w₁, hclone, rfl⟩

theorem lasting_of_marks (h : w'.marks r = w.marks r) (hlasting : (w.item r).Lasting env.items) :
    (w'.item r).Lasting env.items := by
  rw [Item.Lasting, Item.getDefaultDuration, id_of_marks h,
    Item.getDuration_congr (Item.attr_of_attributes (attributes_of_marks h) _)]
  exact hlasting

/-- A stack that grows gets its own type again. -/
theorem lasting_updateThing {c : Cylinder} {t : ItemRef} {count : Nat}
    (h : (w.item item).Lasting env.items) :
    ((Cylinder.updateThing env w c t (w.item t).id count).item item).Lasting env.items := by
  by_cases hne : item = t
  · subst hne
    obtain hmarks | hmarks := marks_updateThing env w c item (w.item item).id count
    · exact lasting_of_marks (congrFun hmarks item) h
    · refine lasting_of_marks (congrFun hmarks item) ?_
      rw [World.modifyItem_item_self]
      exact h.retype count
  · exact lasting_of_marks (marks_updateThing_ne hne) h

theorem item_cloneItem (h : w.cloneItem env item = some (copy, w')) :
    (w.item item).clone env.items w.next = some (w'.item copy) := by
  unfold World.cloneItem at h
  obtain ⟨it, hit, hpair⟩ := Option.map_eq_some_iff.mp h
  obtain ⟨rfl, rfl⟩ := Prod.mk.inj hpair
  have hitem : (w.alloc it).item w.next = it := Function.update_self _ _ _
  rw [hit]
  split_ifs
  · exact congrArg some hitem.symm
  · exact congrArg some hitem.symm

theorem lasting_remainder {d : Destination} {maxQueryCount : Nat}
    (hlasting : (w.item item).Lasting env.items)
    (h : remainder env w d item maxQueryCount = some (copy, w')) :
    copy < w'.next ∧ (w'.item copy).Lasting env.items := by
  obtain ⟨hstack, t, count, n, w₁, hclone, rfl⟩ := remainder_spec h
  obtain ⟨-, -, hlt⟩ := registers_cloneItem (p := fun _ => False) hclone
  refine ⟨hlt, ?_⟩
  have hcopy : (w₁.item copy).Lasting env.items := by
    refine (lasting_updateThing hlasting).clone ?_ (item_cloneItem hclone)
    rw [Item.isStackable, id_updateThing]
    exact hstack
  rw [World.modifyItem_item_self]
  exact hcopy

theorem not_ticks_of_lasting (h : (w.item r).Lasting env.items) : ¬(w.item r).Ticks :=
  fun hticks => absurd hticks.2 (by rw [h.1]; exact lt_irrefl 0)

/-- A stack that equals an item without a duration is not registered. -/
theorem grows_of_equals (h : Once loop w) (hno : ¬(w.item item).Ticks)
    (hequals : (w.item item).equals (w.item r) = true) : Keeps env loop w r (w.item r).id := by
  intro hlisted
  have hattr := Item.attr_of_equals hequals
  exact absurd ((Item.ticks_congr (hattr _) (hattr _)).mpr (h.ticks r hlisted)) hno

/-- Nothing is entered for an item without a duration, however often the rest is added again. -/
theorem once_lasting {toCylinder : Cylinder} {flags fuel : Nat} {test : Bool} {index : Int}
    {added : Added} (h : Once loop w) (hitem : item < w.next)
    (hlasting : (w.item item).Lasting env.items)
    (hadd : internalAddItemAux env toCylinder flags test fuel w item index = some added) :
    Once loop added.world := by
  induction fuel generalizing flags test w item index added with
  | zero => cases hadd
  | succ fuel ih =>
    have hno := not_ticks_of_lasting hlasting
    refine once_add h hitem (fun _ _ => h.listed_eq_zero hno)
      (fun _ _ t _ _ hequals => grows_of_equals h hno hequals)
      (fun _ _ copy w₁ added hremainder honce hcall => ?_) hadd
    obtain ⟨hlt, hcopy⟩ := lasting_remainder hlasting hremainder
    exact ih honce hlt hcopy hcall

theorem internalAddItemAux_refused {toCylinder : Cylinder} {flags fuel : Nat} {index : Int}
    {added : Added} (h : ¬Admits env w toCylinder item index flags)
    (hadd : internalAddItemAux env toCylinder flags false fuel w item index = some added) :
    added.world = w := by
  cases fuel with
  | zero => cases hadd
  | succ fuel =>
    rw [internalAddItemAux] at hadd
    dsimp only at hadd
    rw [if_neg Bool.false_ne_true] at hadd
    split_ifs at hadd with hadmitted hmax
    · rw [← Option.some.inj hadd]
    · rw [← Option.some.inj hadd]
    · exact absurd ⟨not_not.mp hadmitted, not_not.mp hmax⟩ h

/-- What an accepted call of `internalAddItem` may not come upon: an item that is registered
already, a registered stack that loses the mark as it grows, and units with a duration that are left
over and accepted. -/
structure AddsOnce (env : Env) (loop : List ItemRef) (w : World) (toCylinder : Cylinder)
    (item : ItemRef) (d : Destination) : Prop where
  unlisted : listed loop w item = 0
  grows : ∀ t, d.destItem = some t → (w.item item).isStackable env.items = true →
    (w.item item).equals (w.item t) = true → Keeps env loop w t (w.item t).id
  lasting : ∀ copy w', remainder env w d item (Cylinder.queryMaxCount env w toCylinder
      INDEX_WHEREEVER item (w.item item).getItemCount d.flags).2 = some (copy, w') →
    (w'.item copy).Lasting env.items ∨
      ¬Admits env w' toCylinder copy INDEX_WHEREEVER d.flags

theorem once_internalAddItem {toCylinder : Cylinder} {flags : Nat} {test : Bool} {index : Int}
    {added : Added} (h : Once loop w) (hitem : item < w.next)
    (hadds : test = false → Admits env w toCylinder item index flags →
      AddsOnce env loop w toCylinder item
        (Cylinder.queryDestination env w toCylinder index item none flags))
    (hadd : internalAddItem env w toCylinder item index flags test = some added) :
    Once loop added.world := by
  refine once_add h hitem (fun htest hadmits => (hadds htest hadmits).unlisted)
    (fun htest hadmits => (hadds htest hadmits).grows)
    (fun htest hadmits copy w₁ added hremainder honce hcall => ?_) hadd
  obtain hlasting | hrefused := (hadds htest hadmits).lasting copy w₁ hremainder
  · obtain ⟨-, t, count, n, w₂, hclone, rfl⟩ := remainder_spec hremainder
    exact once_lasting honce (registers_cloneItem (p := fun _ => False) hclone).2.2 hlasting hcall
  · rw [internalAddItemAux_refused hrefused hcall]
    exact honce

/-! ## Transforming -/

/-- The id that `transformItem` gives to the item itself, unless the item is used up. -/
def retypedTo (env : Env) (w : World) (item : ItemRef) (newId : Nat) (newCount : Int) :
    Option Nat :=
  let it := w.item item
  if it.id = newId ∧ (newCount = -1 ∨ (newCount = it.getSubType env.items ∧ newCount ≠ 0)) then none
  else
    match it.parent with
    | none => none
    | some cylinder =>
      let curType := env.items.get it.id
      let newType := env.items.get newId
      if Cylinder.getThingIndex env w cylinder item = -1 then none
      else if !it.canTransform then none
      else if newType.id = 0 then none
      else if curType.alwaysOnTop ≠ newType.alwaysOnTop then some newId
      else if curType.type = newType.type then
        if newCount = 0 ∧ (it.isStackable env.items ∨ it.hasAttribute .charges) then none
        else some (if curType.id ≠ newType.id then newId else it.id)
      else none

/-- The item is used up and goes on under the id that it is transformed to. -/
def GoesOn (env : Env) (w : World) (item : ItemRef) (newId : Nat) (newCount : Int) : Prop :=
  newCount = 0 ∧ (w.item item).isStackable env.items = false ∧
    (if (env.items.get (w.item item).id).id = (env.items.get newId).id then
      (w.item item).getDecayTo env.items else (newId : Int)) = newId

theorem once_readdItem {cylinder : Cylinder} {newId : Nat} {newCount : Int} (h : Once loop w)
    (hkeeps : Keeps env loop w item newId) :
    Once loop (readdItem env w cylinder item newId newCount).2 := by
  unfold readdItem
  dsimp only
  have hquiet := (Cylinder.quiet_removeThing env w cylinder item
    (w.item item).getItemCount).trans (Cylinder.quiet_refreshWeight env _ cylinder)
  have hmarks : (Cylinder.postRemoveNotification env (Cylinder.removeThing env w cylinder item
      (w.item item).getItemCount) cylinder).marks = w.marks :=
    marks_refreshWeight.trans marks_removeThing
  have hretyped : Once loop (retype env (Cylinder.postRemoveNotification env
      (Cylinder.removeThing env w cylinder item (w.item item).getItemCount) cylinder) item newId
      newCount) := by
    refine (h.same hquiet hmarks).modifyItem fun hlisted hticks => ?_
    have hset := hticks.setID
      (hkeeps.of_quiet hquiet (id_of_marks (congrFun hmarks item)) hlisted)
    dsimp only
    split_ifs
    · exact hset.setSubType _
    · exact hset
  have hadded := hretyped.same (Cylinder.quiet_addThingAnywhere env _ cylinder item)
    marks_addThingAnywhere
  split
  · exact hadded.same (quiet_releaseItem _ item) rfl
  · exact hadded.same (Cylinder.quiet_refreshWeight env _ _) marks_refreshWeight

theorem once_updateItemType {cylinder : Cylinder} {newId : Nat} {newCount : Int} (h : Once loop w)
    (hkeeps : Keeps env loop w item (if (env.items.get (w.item item).id).id ≠
      (env.items.get newId).id then newId else (w.item item).id)) :
    Once loop (updateItemType env w cylinder item newId newCount).2 := by
  unfold updateItemType
  dsimp only
  have hquiet := Cylinder.quiet_refreshWeight env w cylinder
  have hmarks : (Cylinder.refreshWeight env w cylinder).marks = w.marks := marks_refreshWeight
  have hid := id_of_marks (congrFun hmarks item)
  have hsubtype (P : Prop) [Decidable P] :
      Once loop (if P then (Cylinder.refreshWeight env w cylinder).modifyItem item
          fun it => it.setDefaultSubtype env.items else Cylinder.refreshWeight env w cylinder) ∧
        ∀ newid, Keeps env loop w item newid → Keeps env loop
          (if P then (Cylinder.refreshWeight env w cylinder).modifyItem item
            fun it => it.setDefaultSubtype env.items else Cylinder.refreshWeight env w cylinder)
          item newid := by
    split_ifs
    · refine ⟨(h.same hquiet hmarks).modifyItem fun _ hticks => hticks.setDefaultSubtype,
        fun newid hkeeps => hkeeps.of_quiet (hquiet.trans (quiet_modifyItem _ item _)) ?_⟩
      rw [World.modifyItem_item_self, Item.setDefaultSubtype_id, hid]
    · exact ⟨h.same hquiet hmarks, fun newid hkeeps => hkeeps.of_quiet hquiet hid⟩
  obtain ⟨hready, hsame⟩ := hsubtype ((env.items.get (w.item item).id).id ≠
    (env.items.get newId).id ∧ (env.items.get newId).group ≠ (env.items.get (w.item item).id).group)
  refine (hready.updateThing ?_).same (Cylinder.quiet_refreshWeight env _ cylinder)
    marks_refreshWeight
  rw [show (Cylinder.postRemoveNotification env w cylinder).item item =
    (Cylinder.refreshWeight env w cylinder).item item from rfl, hid]
  exact hsame _ hkeeps

theorem once_created (h : Once loop w) (new : Item) (cylinder : Cylinder) (itemIndex : Int)
    (item : ItemRef) :
    Once loop (replaceItem env (w.alloc new) cylinder itemIndex item w.next) :=
  (h.alloc new).same (quiet_replaceItem env _ cylinder itemIndex item w.next) marks_replaceItem

theorem once_internalRemoveItem (h : Once loop w) (item : ItemRef) (count : Option Nat)
    (test : Bool) (flags : Nat) : Once loop (internalRemoveItem env w item count test flags).2 :=
  h.same (quiet_internalRemoveItem env w item count test flags)
    (marks_internalRemoveItem env w item count test flags)

theorem once_replaceItemType {cylinder : Cylinder} {itemIndex : Int} {newId : Nat}
    {newCount : Int} (h : Once loop w) :
    Once loop (replaceItemType env w cylinder itemIndex item newId newCount).2 := by
  unfold replaceItemType
  split
  · exact h
  · next new _ =>
    exact once_registerDecay (once_created h new cylinder itemIndex item)
      ((transforms_created env w item new cylinder itemIndex).result w.next rfl).1

theorem once_consumeItem {again : World → Nat → Option ItemRef × World} {cylinder : Cylinder}
    {itemIndex : Int} {newId : Nat} (h : Once loop w)
    (hagain : GoesOn env w item newId 0 → Once loop (again w newId).2) :
    Once loop (consumeItem env again w cylinder itemIndex item newId).2 := by
  unfold consumeItem
  unfold GoesOn at hagain
  dsimp only
  generalize (if (env.items.get (w.item item).id).id = (env.items.get newId).id then
    (w.item item).getDecayTo env.items else (newId : Int)) = newItemId at hagain ⊢
  split_ifs with hstack hnegative hother
  · exact once_internalRemoveItem h item none false 0
  · exact once_internalRemoveItem h item none false 0
  · split
    · exact h
    · next new _ => exact once_created h new cylinder itemIndex item
  · have hsame : newItemId = newId := not_not.mp hother
    rw [hsame, Int.toNat_natCast]
    exact hagain ⟨rfl, by simpa using hstack, hsame⟩

theorem once_transformItemAux {again : World → Nat → Option ItemRef × World} {newId : Nat}
    {newCount : Int} (h : Once loop w)
    (hkeeps : ∀ id, retypedTo env w item newId newCount = some id → Keeps env loop w item id)
    (hagain : GoesOn env w item newId newCount → Once loop (again w newId).2) :
    Once loop (transformItemAux env again w item newId newCount).2 := by
  unfold transformItemAux
  unfold retypedTo at hkeeps
  dsimp only at hkeeps ⊢
  by_cases hkept : (w.item item).id = newId ∧ (newCount = -1 ∨
      (newCount = (w.item item).getSubType env.items ∧ newCount ≠ 0))
  · rw [if_pos hkept]
    exact h
  · rw [if_neg hkept] at hkeeps ⊢
    cases hparent : (w.item item).parent with
    | none => exact h
    | some cylinder =>
      rw [hparent] at hkeeps
      dsimp only at hkeeps ⊢
      split_ifs at hkeeps ⊢ with hindex htransform htype htop hsame hused hother
      · exact h
      · exact h
      · exact h
      · exact once_readdItem h (hkeeps newId rfl)
      · obtain ⟨rfl, -⟩ := hused
        exact once_consumeItem h hagain
      · refine once_updateItemType h ?_
        rw [if_pos hother]
        exact hkeeps newId rfl
      · refine once_updateItemType h ?_
        rw [if_neg hother]
        exact hkeeps _ rfl
      · exact once_replaceItemType h

/-- The item gets the id, be it at once or when it goes on after it has been used up. -/
def Retypes (env : Env) (w : World) (item : ItemRef) (newId : Nat) (newCount : Int) (id : Nat) :
    Prop :=
  retypedTo env w item newId newCount = some id ∨
    GoesOn env w item newId newCount ∧ retypedTo env w item newId (-1) = some id

theorem once_transformItem {newId : Nat} {newCount : Int} (h : Once loop w)
    (hkeeps : ∀ id, Retypes env w item newId newCount id → Keeps env loop w item id) :
    Once loop (transformItem env w item newId newCount).2 := by
  refine once_transformItemAux h (fun id hid => hkeeps id (.inl hid)) fun hgoesOn => ?_
  refine once_transformItemAux h (fun id hid => hkeeps id (.inr ⟨hgoesOn, hid⟩)) fun hagain => ?_
  exact absurd hagain.1 (by decide)

/-! ## Decay -/

theorem once_startDecay_result {fuel : Nat} {result : Option ItemRef × World}
    (hresult : Transforms item w result) (h : Once loop result.2)
    (hdecay : ∀ w r, Once loop w → r < w.next → Once loop (startDecay env fuel w (some r))) :
    Once loop (startDecay env fuel result.2 result.1) := by
  cases hnew : result.1 with
  | none =>
    rw [startDecay_none]
    exact h
  | some newItem => exact hdecay result.2 newItem h (hresult.result newItem hnew).1

/-- An item without an entry may get any type. -/
theorem once_transformItem_unlisted {newId : Nat} {newCount : Int} (h : Once loop w)
    (hnone : listed loop w item = 0) :
    Once loop (transformItem env w item newId newCount).2 :=
  once_transformItem h fun _ _ hlisted => absurd hnone (Nat.ne_of_gt hlisted)

theorem once_startDecay (fuel : Nat) (h : Once loop w) (hitem : item < w.next) :
    Once loop (startDecay env fuel w (some item)) := by
  induction fuel generalizing w item with
  | zero => exact h
  | succ fuel ih =>
    rw [startDecay]
    split_ifs with hcannot hmarked hduration hdecayTo
    · exact h
    · exact h
    · exact h.register hitem (h.listed_eq_zero fun hticks => hmarked hticks.1) hduration
    · exact once_startDecay_result (transforms_transformItem hitem)
        (once_transformItem_unlisted h (h.listed_eq_zero fun hticks => hmarked hticks.1))
        fun w r => ih
    · exact once_internalRemoveItem h item none false 0

theorem once_internalDecayItem (fuel : Nat) (h : Once loop w) (hitem : item < w.next)
    (hnone : listed loop w item = 0) : Once loop (internalDecayItem env fuel w item) := by
  unfold internalDecayItem
  split_ifs
  · exact once_startDecay_result (transforms_transformItem hitem)
      (once_transformItem_unlisted h hnone) fun w r => once_startDecay fuel
  · exact once_internalRemoveItem h item none false 0

theorem listed_cons (rest : List ItemRef) (w : World) (r item : ItemRef) :
    listed (item :: rest) w r = [item].count r + listed rest w r := by
  rw [listed, listed, ← List.singleton_append, List.count_append]
  ring

theorem Once.pushBucket (h : Once loop w) {b : Nat} (hb : b < EVENT_DECAY_BUCKETS)
    (hr : r < w.next) (hnone : listed loop w r = 0) (hticks : (w.item r).Ticks) :
    Once loop (pushBucket w b r) := by
  refine h.enter hr hnone hticks rfl rfl fun x => ?_
  rw [listed, listed, bucketCount_pushBucket hb]
  change w.toDecayItems.count x + _ + _ = _
  ring

/-- The entry of a visited item is its only one. -/
theorem Once.tail {rest : List ItemRef} (h : Once (item :: rest) w) :
    Once rest w ∧ listed rest w item = 0 ∧ (w.item item).Ticks := by
  have hle (r : ItemRef) : listed rest w r ≤ listed (item :: rest) w r := by
    rw [listed_cons]
    exact Nat.le_add_left _ _
  have hself := h.le_one item
  rw [listed_cons, List.count_singleton_self] at hself
  have hticks : (w.item item).Ticks := h.ticks item (by
    rw [listed_cons, List.count_singleton_self]
    omega)
  exact ⟨⟨fun r => (hle r).trans (h.le_one r), fun r hr => h.lt r (hr.trans_le (hle r)),
    fun r hr => h.ticks r (hr.trans_le (hle r))⟩, by omega, hticks⟩

/-- The duration that is left of an item that stays in a bucket. -/
theorem ticks_decreaseDuration {it : Item} (h : it.Ticks)
    (hleft : ¬toInt32 it.getDuration -
      min ((EVENT_DECAYINTERVAL * EVENT_DECAY_BUCKETS : Nat) : Int) (toInt32 it.getDuration) ≤ 0) :
    (it.decreaseDuration (min ((EVENT_DECAYINTERVAL * EVENT_DECAY_BUCKETS : Nat) : Int)
      (toInt32 it.getDuration))).Ticks := by
  have hlt := it.getDuration_lt
  have hlong : 1000 < it.getDuration ∧ toInt32 it.getDuration = it.getDuration := by
    rw [EVENT_DECAYINTERVAL, EVENT_DECAY_BUCKETS] at hleft
    unfold toInt32 at hleft ⊢
    split_ifs at hleft ⊢ <;> omega
  have htime : min ((EVENT_DECAYINTERVAL * EVENT_DECAY_BUCKETS : Nat) : Int)
      (toInt32 it.getDuration) = ((1000 : Nat) : Int) := by
    rw [hlong.2, EVENT_DECAYINTERVAL, EVENT_DECAY_BUCKETS]
    omega
  rw [htime]
  refine ⟨?_, ?_⟩
  · have hattr := it.attr_setIntAttr_of_ne (it.getIntAttr .duration + -((1000 : Nat) : Int))
      (show AttrType.decayState ≠ AttrType.duration by decide)
    rw [Item.getDecaying, Item.getIntAttr, Item.decreaseDuration, hattr]
    exact h.1
  · rw [it.getDuration_decreaseDuration hlong.1.le]
    omega

theorem once_checkDecayItem (env : Env) (fuel : Nat) {bucket : Nat}
    (hbucket : bucket < EVENT_DECAY_BUCKETS) {rest : List ItemRef} (h : Once (item :: rest) w) :
    Once rest (checkDecayItem env fuel bucket w item) := by
  have hitem : item < w.next := h.lt item (by
    rw [listed_cons, List.count_singleton_self]
    omega)
  obtain ⟨hrest, hnone, hticks⟩ := h.tail
  have hmodified (f : Item → Item) : Once rest (w.modifyItem item f) :=
    hrest.modifyItem fun hlisted => absurd hnone (Nat.ne_of_gt hlisted)
  have hsame (f : Item → Item) : listed rest (w.modifyItem item f) item = 0 :=
    (listed_of_quiet (quiet_modifyItem w item f)).trans hnone
  have hdecayed (f : Item → Item) :
      Once rest ((internalDecayItem env fuel (w.modifyItem item f) item).releaseItem item) :=
    (once_internalDecayItem fuel (hmodified f) hitem (hsame f)).same (quiet_releaseItem _ item) rfl
  unfold checkDecayItem
  dsimp only
  split_ifs with hcannot hdue hsoon hback
  · exact (hmodified _).same (quiet_releaseItem _ item) rfl
  · exact hdecayed _
  · exact hdecayed _
  · refine (hmodified _).pushBucket (Nat.mod_lt _ (by decide)) hitem (hsame _) ?_
    rw [World.modifyItem_item_self]
    exact ticks_decreaseDuration hticks hdue
  · refine (hmodified _).pushBucket hbucket hitem (hsame _) ?_
    rw [World.modifyItem_item_self]
    exact ticks_decreaseDuration hticks hdue

theorem once_cleanup (h : Once loop w) (hlast : w.lastBucket < EVENT_DECAY_BUCKETS) :
    Once loop (cleanup w) := by
  obtain ⟨hnext, -, htoDecay, -, hbuckets, -⟩ := emptied_cleanup hlast
  have hitem : (cleanup w).item = w.item := (cleanup_frame w 0).1.item
  have hlisted (r : ItemRef) : listed loop (cleanup w) r = listed loop w r := by
    rw [listed, listed, htoDecay, hbuckets, List.count_nil]
    ring
  refine ⟨fun r => ?_, fun r hr => ?_, fun r hr => ?_⟩
  · rw [hlisted]
    exact h.le_one r
  · rw [hnext]
    exact h.lt r (hlisted r ▸ hr)
  · rw [hitem]
    exact h.ticks r (hlisted r ▸ hr)

theorem once_begin {b : Nat} (h : Once [] w) (hb : b < EVENT_DECAY_BUCKETS) :
    Once (w.decayItems b) (setBucket w b []) := by
  have hlisted (r : ItemRef) : listed (w.decayItems b) (setBucket w b []) r = listed [] w r := by
    rw [listed, listed, bucketCount_setBucket (w := w) hb, List.count_nil]
    change w.toDecayItems.count r + _ + _ = _
    ring
  refine ⟨fun r => ?_, fun r hr => ?_, fun r hr => ?_⟩
  · rw [hlisted]
    exact h.le_one r
  · exact h.lt r (hlisted r ▸ hr)
  · exact h.ticks r (hlisted r ▸ hr)

end Once

/-! ## Runs -/

/-- The operation does not register an item a second time, and it takes the mark off no item that
is registered. -/
def Spares (env : Env) (s : DecayState) : DecayOp → Prop
  | .internalAddItem toCylinder item index flags test =>
    test = false → Admits env s.world toCylinder item index flags →
      AddsOnce env (s.loop.getD []) s.world toCylinder item
        (Cylinder.queryDestination env s.world toCylinder index item none flags)
  | .internalMoveItem mv =>
    ∀ t, Merges env s.world mv t → Keeps env (s.loop.getD []) s.world t (s.world.item t).id
  | .transformItem item newId newCount =>
    ∀ id, Retypes env s.world item newId newCount id → Keeps env (s.loop.getD []) s.world item id
  | _ => True

/-- How often the operation counts the duration of the item down. -/
def visits (s : DecayState) (r : ItemRef) : DecayOp → Nat
  | .visit => ((s.loop.getD []).take 1).count r
  | _ => 0

/-- A run in which no `checkDecay` begins, with the number of visits of the item. -/
inductive Checks (env : Env) (fuel : Nat) (r : ItemRef) : DecayState → Nat → DecayState → Prop
  | refl (s : DecayState) : Checks env fuel r s 0 s
  | step {s s' s'' : DecayState} {n : Nat} (h : Checks env fuel r s n s') (op : DecayOp)
      (hbegin : op ≠ .beginCheck) (hop : s'.apply env fuel op = some s'') :
      Checks env fuel r s (n + s'.visits r op) s''

section Runs

variable {env : Env} {fuel : Nat} {s s' : DecayState} {op : DecayOp} {r : ItemRef} {n : Nat}

theorem once_init (h : Initial s) : Once (s.loop.getD []) s.world := by
  obtain ⟨htoDecay, hbuckets, -, hloop, -, -⟩ := h
  have hlisted (r : ItemRef) : listed (s.loop.getD []) s.world r = 0 := by
    rw [listed, htoDecay, hloop, bucketCount_eq_zero.mpr fun b _ => by
      rw [hbuckets]
      exact List.not_mem_nil]
    rfl
  exact ⟨fun r => (hlisted r).le.trans (Nat.zero_le 1),
    fun r hr => absurd (hlisted r) (Nat.ne_of_gt hr),
    fun r hr => absurd (hlisted r) (Nat.ne_of_gt hr)⟩

theorem apply_visit (hop : s.apply env fuel .visit = some s') :
    ∃ item rest, s.loop = some (item :: rest) ∧ s' = s.visitItem env fuel item rest := by
  rw [apply] at hop
  split at hop
  case h_1 item rest hloop => exact ⟨item, rest, hloop, (Option.some.inj hop).symm⟩
  case h_2 => cases hop

theorem apply_endCheck (hop : s.apply env fuel .endCheck = some s') :
    s.loop = some [] ∧
      s' = { s.clean { s.world with lastBucket := s.bucket } with loop := none } := by
  rw [apply] at hop
  split at hop
  case h_1 hloop => exact ⟨hloop, (Option.some.inj hop).symm⟩
  case h_2 => cases hop

theorem once_apply (hinv : Inv s) (h : Once (s.loop.getD []) s.world) (hspares : Spares env s op)
    (hop : s.apply env fuel op = some s') : Once (s'.loop.getD []) s'.world := by
  have hbucket : s.bucket < EVENT_DECAY_BUCKETS := Nat.mod_lt _ (by decide)
  cases op with
  | startDecay item =>
    obtain ⟨hitem, hop⟩ := Option.ite_none_right_eq_some.mp hop
    obtain rfl := Option.some.inj hop
    exact once_startDecay fuel h hitem
  | internalAddItem toCylinder item index flags test =>
    obtain ⟨hitem, hop⟩ := Option.ite_none_right_eq_some.mp hop
    obtain ⟨added, hadd, rfl⟩ := Option.map_eq_some_iff.mp hop
    exact once_internalAddItem h hitem hspares hadd
  | internalMoveItem mv =>
    obtain ⟨hitem, hop⟩ := Option.ite_none_right_eq_some.mp hop
    obtain ⟨⟨ret, w'⟩, hmove, rfl⟩ := Option.map_eq_some_iff.mp hop
    exact once_internalMoveItem h hitem hspares hmove
  | transformItem item newId newCount =>
    obtain ⟨-, hop⟩ := Option.ite_none_right_eq_some.mp hop
    obtain rfl := Option.some.inj hop
    exact once_transformItem h hspares
  | internalRemoveItem item count test flags =>
    obtain rfl := Option.some.inj hop
    exact once_internalRemoveItem h item count test flags
  | cleanup =>
    obtain rfl := Option.some.inj hop
    exact once_cleanup h hinv.lastBucket
  | beginCheck =>
    cases hloop : s.loop with
    | some rest =>
      rw [apply, hloop] at hop
      cases hop
    | none =>
      rw [apply, hloop] at hop
      rw [hloop] at h
      obtain rfl := Option.some.inj hop
      exact once_begin h hbucket
  | visit =>
    obtain ⟨item, rest, hloop, rfl⟩ := apply_visit hop
    rw [hloop] at h
    exact once_checkDecayItem env fuel hbucket h
  | endCheck =>
    obtain ⟨hloop, rfl⟩ := apply_endCheck hop
    rw [hloop] at h
    exact once_cleanup (w := { s.world with lastBucket := s.bucket }) ⟨h.le_one, h.lt, h.ticks⟩
      hbucket

/-- A visit takes the entry out of what is left of the bucket, and nothing is put in. -/
theorem loop_apply (hbegin : op ≠ .beginCheck) (hop : s.apply env fuel op = some s') :
    s.visits r op + (s'.loop.getD []).count r ≤ (s.loop.getD []).count r := by
  cases op with
  | startDecay item =>
    obtain ⟨-, hop⟩ := Option.ite_none_right_eq_some.mp hop
    obtain rfl := Option.some.inj hop
    exact (Nat.zero_add _).le
  | internalAddItem toCylinder item index flags test =>
    obtain ⟨-, hop⟩ := Option.ite_none_right_eq_some.mp hop
    obtain ⟨added, -, rfl⟩ := Option.map_eq_some_iff.mp hop
    exact (Nat.zero_add _).le
  | internalMoveItem mv =>
    obtain ⟨-, hop⟩ := Option.ite_none_right_eq_some.mp hop
    obtain ⟨result, -, rfl⟩ := Option.map_eq_some_iff.mp hop
    exact (Nat.zero_add _).le
  | transformItem item newId newCount =>
    obtain ⟨-, hop⟩ := Option.ite_none_right_eq_some.mp hop
    obtain rfl := Option.some.inj hop
    exact (Nat.zero_add _).le
  | internalRemoveItem item count test flags =>
    obtain rfl := Option.some.inj hop
    exact (Nat.zero_add _).le
  | cleanup =>
    obtain rfl := Option.some.inj hop
    exact (Nat.zero_add _).le
  | beginCheck => exact absurd rfl hbegin
  | visit =>
    obtain ⟨item, rest, hloop, rfl⟩ := apply_visit hop
    rw [visits, hloop]
    have hsplit : ([item] ++ rest).count r = [item].count r + rest.count r :=
      List.count_append
    exact hsplit.ge
  | endCheck =>
    obtain ⟨-, rfl⟩ := apply_endCheck hop
    exact Nat.zero_le _

theorem visits_le (h : Checks env fuel r s n s') :
    n + (s'.loop.getD []).count r ≤ (s.loop.getD []).count r := by
  induction h with
  | refl => exact (Nat.zero_add _).le
  | step _ op hbegin hop ih =>
    have hstep := loop_apply (r := r) hbegin hop
    omega

end Runs

/-! ## A torch that is changed while it burns -/

def unlitTorch : ItemType := { torch with id := 2052, weight := 450, decayTo := -1, decayTime := 0,
                                          stopTime := true }

def burntTorch : ItemType := { torch with id := 2053, weight := 450, decayTime := 300 }

def torchesEnv : Env := Env.quiet (Items.ofEntries [torch, unlitTorch, burntTorch])

theorem initial_torchState : Initial torchState :=
  ⟨rfl, fun _ => rfl, by decide, rfl, rfl, rfl⟩

def burning : DecayState :=
  torchState.become (startDecay torchesEnv 1 torchState.world (some 0))

/-- A script gives the torch the id, and it starts to decay again. -/
def changed (newId : Nat) : DecayState :=
  burning.become (transformItem torchesEnv burning.world 0 newId (-1)).2

def relit (newId : Nat) : DecayState :=
  (changed newId).become (startDecay torchesEnv 1 (changed newId).world (some 0))

/-- A torch that burns on as another type loses the mark, and the next start registers it again. -/
theorem exists_registered_twice :
    ¬∀ (env : Env) (fuel : Nat) (s : DecayState), Run.Reachable (system env fuel) s →
      ∀ r, s.entries r ≤ 1 := by
  intro hall
  have hstart : Run.Reachable (system torchesEnv 1) torchState := .init initial_torchState
  have hburning : Run.Reachable (system torchesEnv 1) burning :=
    hstart.step' (i := DecayOp.startDecay 0) rfl
  have hchanged : Run.Reachable (system torchesEnv 1) (changed 2053) :=
    hburning.step' (i := DecayOp.transformItem 0 2053 (-1)) rfl
  have hrelit : Run.Reachable (system torchesEnv 1) (relit 2053) :=
    hchanged.step' (i := DecayOp.startDecay 0) rfl
  exact absurd (hall torchesEnv 1 (relit 2053) hrelit 0) (by decide)

end DecayState

end Eloth
