import Eloth.ContainerWeight
import Eloth.Sample
import Eloth.Lib.ListSet
import Eloth.Lib.Run

/-!
# Runs of container operations

Every operation on a container, applied to an item that may be placed there, keeps the forest
and the cached weights. Hence, after any sequence of operations, the weight of a container is
that of everything inside it.
-/

namespace Eloth.Container

/-- The forest is well formed and every total weight is the sum over the direct children. -/
structure Cached (env : Env) (w : World) : Prop where
  nested : Nested w
  agree : WeightsAgree env w

/-- The item may enter the container: no container holds it, and it is neither the container nor
one around it. -/
structure Insertable (w : World) (target item : ItemRef) : Prop where
  isContainer : w.isContainer target = true
  free : w.getParentContainer item = none
  outside : ¬ Forest.AboveOrSelf w.getParentContainer item target
  item_lt : item < w.next
  target_lt : target < w.next

section Operations

variable {env : Env} {w w' : World} {self item : ItemRef}

theorem Cached.congr (hw : Cached env w) (hitem : w'.item = w.item) (hnext : w'.next = w.next) :
    Cached env w' := by
  have hlist : ∀ c, w'.itemlist c = w.itemlist c := fun c => by
    simp [World.itemlist, World.container, hitem]
  refine ⟨hw.nested.congr ?_ hlist hnext, fun c => ?_⟩
  · funext r
    simp [World.getParentContainer, hitem]
  · have := hw.agree c
    simpa only [WeightsAgree, childWeight, World.itemlist, World.container, hitem] using this

theorem Cached.of_untraded (hw : Cached env w) (h : w'.untraded = w.untraded) : Cached env w' :=
  hw.congr (item_of_untraded h) (next_of_untraded h)

theorem untraded_notifyHolders (env : Env) (w : World) (self : ItemRef)
    {event : World → PlayerId → World} (h : ∀ w p, (event w p).untraded = w.untraded) :
    (notifyHolders env w self event).untraded = w.untraded := by
  unfold notifyHolders
  split_ifs
  · exact untraded_notify w _ h
  · rfl

/-! ### Adding -/

theorem childWeight_insert (env : Env) {front back : List ItemRef}
    (hlist : w.itemlist self = front ++ back) (hin : w'.itemlist self = front ++ item :: back)
    (hother : ∀ c, c ≠ self → w'.itemlist c = w.itemlist c)
    (hweight : ∀ r, (w'.item r).getWeight env.items = (w.item r).getWeight env.items)
    (c : ItemRef) :
    childWeight env w' c =
      childWeight env w c + if c = self then (w.item item).getWeight env.items else 0 := by
  unfold childWeight
  simp only [hweight]
  by_cases hc : c = self
  · subst hc
    rw [hin, hlist, (List.perm_middle.map _).sum_eq, List.map_cons, List.sum_cons, if_pos rfl,
      add_comm]
  · rw [hother c hc, if_neg hc, add_zero]

theorem Cached.insert (hw : Cached env w) (hins : Insertable w self item)
    (front back : List ItemRef) (hlist : w.itemlist self = front ++ back)
    (hparent : w'.getParentContainer = Function.update w.getParentContainer item (some self))
    (hin : w'.itemlist self = front ++ item :: back)
    (hother : ∀ c, c ≠ self → w'.itemlist c = w.itemlist c) (hnext : w'.next = w.next)
    (hcontainer : w'.isContainer self = true)
    (hown : ∀ r, (w'.item r).ownWeight env.items = (w.item r).ownWeight env.items)
    (htotal : ∀ c, (w'.container c).totalWeight = (w.container c).totalWeight) :
    Cached env (addWeight w' self ((w'.item item).getWeight env.items)) := by
  have hnested : Nested w' := hw.nested.insert hlist hins.free hins.outside hins.item_lt
    hins.target_lt hparent hin hother hnext
  have hweight := getWeight_congr env w w' hown htotal
  refine ⟨hnested.of_skeleton (skeleton_addWeight _ _ _), addWeight_agree hnested hcontainer ?_⟩
  intro c
  rw [htotal, hw.agree c, hweight, childWeight_insert env hlist hin hother hweight c]

theorem pushFront_totalWeight (c : ItemRef) :
    ((pushFront w self item).container c).totalWeight = (w.container c).totalWeight := by
  unfold pushFront
  by_cases hc : c = self
  · subst hc
    cases h : w.isContainer c with
    | true => rw [World.modifyContainer_container_self (by simpa using h), World.setParent_container]
    | false =>
      rw [World.container_of_not_isContainer h, World.container_of_not_isContainer (by simpa using h)]
  · rw [World.modifyContainer_container_ne hc, World.setParent_container]

theorem itemlist_pushFront_self (h : w.isContainer self = true) :
    (pushFront w self item).itemlist self = item :: w.itemlist self := by
  unfold pushFront World.itemlist
  rw [World.modifyContainer_container_self (by simpa using h), World.setParent_container]

theorem itemlist_pushFront_ne {c : ItemRef} (h : c ≠ self) :
    (pushFront w self item).itemlist c = w.itemlist c := by
  unfold pushFront World.itemlist
  rw [World.modifyContainer_container_ne h, World.setParent_container]

theorem internalAddThing_cached (hw : Cached env w) (hins : Insertable w self item) :
    Cached env (internalAddThing env w self item) :=
  hw.insert hins [] (w.itemlist self) rfl
    (by rw [pushFront, getParentContainer_modifyContainer, getParentContainer_setParent]; rfl)
    (itemlist_pushFront_self hins.isContainer) (fun _ hc => itemlist_pushFront_ne hc) rfl
    (by simpa [pushFront] using hins.isContainer)
    (fun r => by rw [pushFront, ownWeight_modifyContainer, ownWeight_setParent])
    pushFront_totalWeight

theorem addThing_cached (hw : Cached env w) (hins : Insertable w self item) (index : Int) :
    Cached env (addThing env w self index item) := by
  unfold addThing
  split_ifs
  · exact hw
  · exact (internalAddThing_cached hw hins).of_untraded
      (untraded_notifyHolders env _ self fun w p => untraded_onAddContainerItem w p item)

def pushBack (w : World) (self item : ItemRef) : World :=
  (w.modifyContainer self fun c => { c with itemlist := c.itemlist ++ [item] }).setParent item
    (some (.container self))

theorem addItemBack_cached (hw : Cached env w) (hins : Insertable w self item) :
    Cached env (addItemBack env w self item) := by
  have hself := World.modifyContainer_container_self
    (g := fun c => { c with itemlist := c.itemlist ++ [item] }) hins.isContainer
  have hne : ∀ c, c ≠ self → (pushBack w self item).container c = w.container c := fun c hc => by
    rw [pushBack, World.setParent_container, World.modifyContainer_container_ne hc]
  have hadded : Cached env (addWeight (pushBack w self item) self
      (((pushBack w self item).item item).getWeight env.items)) := by
    apply hw.insert hins (w.itemlist self) [] (by simp)
    · rw [pushBack, getParentContainer_setParent, getParentContainer_modifyContainer]
      rfl
    · rw [World.itemlist, pushBack, World.setParent_container, hself]
      rfl
    · intro c hc
      rw [World.itemlist, hne c hc]
      rfl
    · rfl
    · simpa [pushBack] using hins.isContainer
    · intro r
      rw [pushBack, ownWeight_setParent, ownWeight_modifyContainer]
    · intro c
      by_cases hc : c = self
      · subst hc
        rw [pushBack, World.setParent_container, hself]
      · rw [hne c hc]
  exact hadded.of_untraded
    (untraded_notifyHolders env _ self fun w p => untraded_onAddContainerItem w p item)

/-! ### Updating -/

theorem getThingIndex_ne (h : getThingIndex w self item ≠ -1) : item ∈ w.itemlist self := by
  unfold getThingIndex at h
  cases hi : (w.itemlist self).idxOf? item with
  | none => simp [hi] at h
  | some i =>
    by_contra hnot
    rw [List.idxOf?_eq_none_iff.mpr hnot] at hi
    cases hi

theorem Cached.update (hw : Cached env w) (hmem : item ∈ w.itemlist self) {f : Item → Item}
    (hcls : ∀ it, (f it).cls = it.cls) (hpar : ∀ it, (f it).parent = it.parent) :
    Cached env (addWeight (w.modifyItem item f) self
      (-(w.item item).getWeight env.items +
        ((w.modifyItem item f).item item).getWeight env.items)) := by
  have hcontainer : ∀ c, (w.modifyItem item f).container c = w.container c := fun c => by
    simp only [World.container, Item.getContainer, World.modifyItem_proj Item.cls hcls]
  have hlist : ∀ c, (w.modifyItem item f).itemlist c = w.itemlist c := fun c =>
    congrArg itemlist (hcontainer c)
  have hnested : Nested (w.modifyItem item f) := by
    refine hw.nested.congr ?_ hlist rfl
    funext r
    simp only [World.getParentContainer, World.modifyItem_proj Item.parent hpar]
  have hself : (w.modifyItem item f).isContainer self = true :=
    World.isContainer_of_mem ((hlist self).symm ▸ hmem)
  refine ⟨hnested.of_skeleton (skeleton_addWeight _ _ _), addWeight_agree hnested hself ?_⟩
  intro c
  have hsum := PointSum.sum_map_add (hw.nested.nodup c)
    (f := fun r => (w.item r).getWeight env.items)
    (g := fun r => ((w.modifyItem item f).item r).getWeight env.items) (a := item)
    (d := -(w.item item).getWeight env.items +
      ((w.modifyItem item f).item item).getWeight env.items)
    (by abel) fun x hx => by rw [World.modifyItem_item_ne hx]
  have hiff : item ∈ w.itemlist c ↔ c = self :=
    ⟨fun h => hw.nested.parent_unique h hmem, fun h => h ▸ hmem⟩
  rw [hcontainer, hw.agree c, childWeight, childWeight, hlist, hsum]
  simp only [hiff]

theorem updateThing_cached (hw : Cached env w) (self item itemId count : Nat) :
    Cached env (updateThing env w self item itemId count) := by
  unfold updateThing
  split_ifs with h
  · exact hw
  · exact (hw.update (getThingIndex_ne h) (fun it => (it.setSubType_setID env.items itemId count).1)
      fun it => (it.setSubType_setID env.items itemId count).2).of_untraded
        (untraded_notifyHolders env _ self fun w p => untraded_onUpdateContainerItem w p _ _ _)

/-! ### Removing -/

theorem Nested.not_above (hw : Nested w) (hmem : item ∈ w.itemlist self) :
    ¬ Forest.AboveOrSelf w.getParentContainer item self := by
  intro h
  exact hw.acyclic item (Relation.TransGen.tail' h ((hw.mem_iff item self).mpr hmem))

theorem childWeight_erase (env : Env) (hmem : item ∈ w.itemlist self)
    (hin : w'.itemlist self = (w.itemlist self).erase item)
    (hother : ∀ c, c ≠ self → w'.itemlist c = w.itemlist c)
    (hweight : ∀ r, (w'.item r).getWeight env.items = (w.item r).getWeight env.items)
    (c : ItemRef) :
    childWeight env w' c + (if c = self then (w.item item).getWeight env.items else 0) =
      childWeight env w c := by
  unfold childWeight
  simp only [hweight]
  by_cases hc : c = self
  · subst hc
    rw [hin, if_pos rfl, ((List.perm_cons_erase hmem).map _).sum_eq, List.map_cons, List.sum_cons,
      add_comm]
  · rw [hother c hc, if_neg hc, add_zero]

def unlink (w : World) (self item : ItemRef) : World :=
  (w.setParent item none).modifyContainer self fun c =>
    { c with itemlist := c.itemlist.erase item }

theorem unlink_container_self (h : w.isContainer self = true) :
    (unlink w self item).container self =
      { w.container self with itemlist := (w.itemlist self).erase item } := by
  rw [unlink, World.modifyContainer_container_self (by simpa using h), World.setParent_container]
  rfl

theorem unlink_container_ne {c : ItemRef} (h : c ≠ self) :
    (unlink w self item).container c = w.container c := by
  rw [unlink, World.modifyContainer_container_ne h, World.setParent_container]

theorem Cached.erase (hw : Cached env w) (hmem : item ∈ w.itemlist self) :
    Cached env (unlink (addWeight w self (-(w.item item).getWeight env.items)) self item) := by
  have hself := World.isContainer_of_mem hmem
  have hskel := skeleton_addWeight w self (-(w.item item).getWeight env.items)
  have hitem := addWeight_item (-(w.item item).getWeight env.items)
    (hw.nested.not_above hmem)
  have hoff := addWeight_offBy (-(w.item item).getWeight env.items)
    (hw.nested.climbable self) hw.nested.acyclic (fun r c hrc => (hw.nested.bounded r c hrc).2)
    hself (weightsAgree_iff.mp hw.agree)
  generalize addWeight w self (-(w.item item).getWeight env.items) = w' at hskel hitem hoff ⊢
  have hnested' : Nested w' := hw.nested.of_skeleton hskel
  have hmem' : item ∈ w'.itemlist self := by rwa [itemlist_of_skeleton hskel]
  have hself' : w'.isContainer self = true := World.isContainer_of_mem hmem'
  have hin : (unlink w' self item).itemlist self = (w'.itemlist self).erase item := by
    rw [World.itemlist, unlink_container_self hself']
  have hother : ∀ c, c ≠ self → (unlink w' self item).itemlist c = w'.itemlist c := fun c hc => by
    rw [World.itemlist, unlink_container_ne hc]
    rfl
  have htotal : ∀ c, ((unlink w' self item).container c).totalWeight =
      (w'.container c).totalWeight := fun c => by
    by_cases hc : c = self
    · subst hc
      rw [unlink_container_self hself']
    · rw [unlink_container_ne hc]
  have hweight := getWeight_congr env w' (unlink w' self item)
    (fun r => by rw [unlink, ownWeight_modifyContainer, ownWeight_setParent]) htotal
  refine ⟨hnested'.erase hmem' ?_ hin hother rfl, fun c => ?_⟩
  · rw [unlink, getParentContainer_modifyContainer, getParentContainer_setParent]
    rfl
  · have herase := childWeight_erase env hmem' hin hother hweight c
    have hc := hoff c
    rw [htotal]
    rw [hitem, ← hc] at herase
    beta_reduce at herase
    have := congrArg (· - (if c = self then (w.item item).getWeight env.items else 0)) herase
    by_cases hcs : c = self
    · simpa [hcs, eq_comm] using this
    · simpa [hcs, eq_comm] using this

theorem Cached.unlink_of_untraded (hw : Cached env (unlink w self item))
    (h : w'.untraded = w.untraded) : Cached env (unlink w' self item) :=
  hw.congr
    (by simp only [unlink, World.modifyContainer, World.setParent, World.modifyItem,
      World.setItem, item_of_untraded h])
    (by simpa only [unlink, World.modifyContainer_next, World.setParent_next] using
      next_of_untraded h)

theorem removeThing_cached (hw : Cached env w) (self item count : Nat) :
    Cached env (removeThing env w self item count) := by
  unfold removeThing
  dsimp only
  split_ifs with h
  · exact hw
  · exact (hw.update (f := fun it => it.setItemCount (reducedCount it.getItemCount count))
      (getThingIndex_ne h) (fun it => it.setItemCount_cls _)
      fun it => it.setItemCount_parent _).of_untraded
        (untraded_notifyHolders env _ self fun w p => untraded_onUpdateContainerItem w p _ _ _)
  · exact (hw.erase (getThingIndex_ne h)).unlink_of_untraded
      (untraded_notifyHolders env _ self fun w p => untraded_onRemoveContainerItem w p self item)

/-! ### Replacing -/

theorem getItemByIndex_split (item : ItemRef) {index : Int} {replaced : ItemRef}
    (h : getItemByIndex w self index = some replaced) :
    ∃ front back, w.itemlist self = front ++ replaced :: back ∧
      (w.itemlist self).set index.toNat item = front ++ item :: back := by
  unfold getItemByIndex at h
  split_ifs at h with hindex
  exact ListSet.set_split h item

/-- The world while the replaced item still points at the container. -/
def swapIn (w : World) (self : ItemRef) (index : Nat) (item : ItemRef) : World :=
  (w.modifyContainer self fun c => { c with itemlist := c.itemlist.set index item }).setParent item
    (some (.container self))

theorem getParentContainer_swapIn (index : Nat) :
    (swapIn w self index item).getParentContainer =
      Function.update w.getParentContainer item (some self) := by
  rw [swapIn, getParentContainer_setParent, getParentContainer_modifyContainer]
  rfl

theorem swapIn_container_self (h : w.isContainer self = true) (index : Nat) :
    (swapIn w self index item).container self =
      { w.container self with itemlist := (w.itemlist self).set index item } := by
  rw [swapIn, World.setParent_container, World.modifyContainer_container_self h]
  rfl

theorem swapIn_container_ne {c : ItemRef} (h : c ≠ self) (index : Nat) :
    (swapIn w self index item).container c = w.container c := by
  rw [swapIn, World.setParent_container, World.modifyContainer_container_ne h]

theorem swapIn_totalWeight (h : w.isContainer self = true) (index : Nat) (c : ItemRef) :
    ((swapIn w self index item).container c).totalWeight = (w.container c).totalWeight := by
  by_cases hc : c = self
  · subst hc
    rw [swapIn_container_self h]
  · rw [swapIn_container_ne hc]

theorem Insertable.above_swapIn (hins : Insertable w self item) {index : Nat} {r : ItemRef}
    (h : Forest.AboveOrSelf (swapIn w self index item).getParentContainer r self) :
    Forest.AboveOrSelf w.getParentContainer r self := by
  rw [getParentContainer_swapIn] at h
  rcases Relation.reflTransGen_iff_eq_or_transGen.mp h with heq | habove
  · exact heq ▸ .refl
  · rcases Forest.above_link hins.outside habove with hold | ⟨_, hitem⟩
    · exact Relation.TransGen.to_reflTransGen hold
    · exact absurd hitem hins.outside

theorem Nested.climbable_swapIn (hw : Nested w) (hins : Insertable w self item) {index : Int}
    {replaced : ItemRef} (hget : getItemByIndex w self index = some replaced) :
    Climbable (swapIn w self index.toNat item) self := by
  obtain ⟨front, back, hlist, hset⟩ := getItemByIndex_split item hget
  have hin : (swapIn w self index.toNat item).itemlist self = front ++ item :: back := by
    rw [World.itemlist, swapIn_container_self hins.isContainer, hset]
  have hother : ∀ c, c ≠ self →
      (swapIn w self index.toNat item).itemlist c = w.itemlist c := fun c hc => by
    rw [World.itemlist, swapIn_container_ne hc]
    rfl
  have hfree : ∀ c, item ∉ w.itemlist c := fun c hc => by
    have := hins.free
    rw [(hw.mem_iff item c).mpr hc] at this
    cases this
  refine ⟨fun r hr c => ?_, fun c => ?_⟩
  · have hold := hins.above_swapIn hr
    have hritem : r ≠ item := fun h => hins.outside (h ▸ hold)
    have hrreplaced : r ≠ replaced := fun h =>
      hw.not_above (by rw [hlist]; simp) (h ▸ hold)
    rw [getParentContainer_swapIn, Function.update_of_ne hritem, hw.mem_iff]
    by_cases hc : c = self
    · subst hc
      rw [hin, hlist]
      simp [hritem, hrreplaced]
    · rw [hother c hc]
  · by_cases hc : c = self
    · subst hc
      have hnodup := hw.nodup c
      have hnot := hfree c
      rw [hlist] at hnodup hnot
      rw [hin, List.perm_middle.nodup_iff, List.nodup_cons]
      rw [List.perm_middle.nodup_iff, List.nodup_cons] at hnodup
      exact ⟨fun h => hnot (by simp only [List.mem_append, List.mem_cons] at h ⊢; tauto),
        hnodup.2⟩
    · rw [hother c hc]
      exact hw.nodup c

theorem swapIn_getWeight (env : Env) (h : w.isContainer self = true) (index : Nat)
    (item r : ItemRef) :
    ((swapIn w self index item).item r).getWeight env.items = (w.item r).getWeight env.items :=
  getWeight_congr env w (swapIn w self index item)
    (fun r => by rw [swapIn, ownWeight_setParent, ownWeight_modifyContainer])
    (swapIn_totalWeight h index) r

theorem swapIn_offBy (hw : Cached env w) (hins : Insertable w self item) {index : Int}
    {replaced : ItemRef} (hget : getItemByIndex w self index = some replaced) :
    OffBy env (swapIn w self index.toNat item) fun c =>
      if c = self then
        -(w.item replaced).getWeight env.items + (w.item item).getWeight env.items
      else 0 := by
  obtain ⟨front, back, hlist, hset⟩ := getItemByIndex_split item hget
  have hweight := swapIn_getWeight env hins.isContainer index.toNat item
  intro c
  rw [swapIn_totalWeight hins.isContainer, hw.agree c]
  unfold childWeight
  simp only [hweight]
  by_cases hc : c = self
  · subst hc
    rw [World.itemlist, World.itemlist, swapIn_container_self hins.isContainer, hset]
    rw [World.itemlist] at hlist
    rw [hlist, (List.perm_middle.map _).sum_eq, (List.perm_middle.map _).sum_eq]
    simp only [List.map_cons, List.sum_cons, if_true]
    abel
  · have : (swapIn w self index.toNat item).itemlist c = w.itemlist c := by
      rw [World.itemlist, swapIn_container_ne hc]
      rfl
    rw [this, if_neg hc, add_zero]

theorem Nested.replace (hw : Nested w) (hins : Insertable w self item) {index : Int}
    {replaced : ItemRef} (hget : getItemByIndex w self index = some replaced) :
    Nested ((swapIn w self index.toNat item).setParent replaced none) := by
  obtain ⟨front, back, hlist, hset⟩ := getItemByIndex_split item hget
  have hmem : replaced ∈ w.itemlist self := by
    rw [hlist]
    simp
  have hnodup := hw.nodup self
  have hne : item ≠ replaced := fun h => by
    have := hins.free
    rw [h, (hw.mem_iff replaced self).mpr hmem] at this
    cases this
  have herased : (w.itemlist self).erase replaced = front ++ back := by
    rw [hlist, List.perm_middle.nodup_iff, List.nodup_cons] at hnodup
    rw [hlist, List.erase_append_right _ fun h => hnodup.1 (by simp [h]), List.erase_cons_head]
  have hunlink : (unlink w self replaced).getParentContainer =
      Function.update w.getParentContainer replaced none := by
    rw [unlink, getParentContainer_modifyContainer, getParentContainer_setParent]
    rfl
  have hin : (unlink w self replaced).itemlist self = front ++ back := by
    rw [World.itemlist, unlink_container_self hins.isContainer, herased]
  have hother : ∀ c, c ≠ self → (unlink w self replaced).itemlist c = w.itemlist c :=
    fun c hc => by
      rw [World.itemlist, unlink_container_ne hc]
      rfl
  have hrest : Nested (unlink w self replaced) :=
    hw.erase hmem hunlink (hin.trans herased.symm) hother rfl
  refine hrest.insert hin ?_ ?_
    hins.item_lt hins.target_lt ?_ ?_ ?_ rfl
  · rw [hunlink, Function.update_of_ne hne]
    exact hins.free
  · rw [hunlink]
    intro h
    refine hins.outside (Relation.ReflTransGen.mono (fun a b hab => ?_) _ _ h)
    by_cases hb : b = replaced
    · subst hb
      simp [Forest.IsParent] at hab
    · simpa [Forest.IsParent, Function.update_of_ne hb] using hab
  · rw [getParentContainer_setParent, getParentContainer_swapIn, hunlink]
    exact Function.update_comm hne (some self) none w.getParentContainer
  · rw [World.setParent_itemlist, World.itemlist, swapIn_container_self hins.isContainer, hset]
  · intro c hc
    rw [World.setParent_itemlist, World.itemlist, swapIn_container_ne hc, hother c hc]
    rfl

theorem WeightsAgree.setParent (h : WeightsAgree env w) (r : ItemRef) (p : Option Cylinder) :
    WeightsAgree env (w.setParent r p) := by
  have hweight := getWeight_congr env w (w.setParent r p)
    (fun x => ownWeight_setParent env w r x p) fun c => by rw [World.setParent_container]
  intro c
  unfold childWeight
  simp only [hweight, World.setParent_itemlist, World.setParent_container]
  exact h c

theorem Cached.setParent_of_untraded {p : Option Cylinder} (hw : Cached env (w.setParent item p))
    (h : w'.untraded = w.untraded) : Cached env (w'.setParent item p) :=
  hw.congr
    (by simp only [World.setParent, World.modifyItem, World.setItem, item_of_untraded h])
    (by simpa only [World.setParent_next] using next_of_untraded h)

def swapped (env : Env) (w : World) (self : ItemRef) (index : Nat) (item replaced : ItemRef) :
    World :=
  addWeight (swapIn w self index item) self
    (-((swapIn w self index item).item replaced).getWeight env.items +
      ((swapIn w self index item).item item).getWeight env.items)

theorem skeleton_swapped (env : Env) (w : World) (self : ItemRef) (index : Nat)
    (item replaced : ItemRef) :
    (swapped env w self index item replaced).skeleton = (swapIn w self index item).skeleton :=
  skeleton_addWeight _ _ _

theorem swapped_agree (hw : Cached env w) (hins : Insertable w self item) {index : Int}
    {replaced : ItemRef} (hget : getItemByIndex w self index = some replaced) :
    WeightsAgree env (swapped env w self index.toNat item replaced) := by
  have hacyclic : Forest.Acyclic (swapIn w self index.toNat item).getParentContainer := by
    rw [getParentContainer_swapIn]
    exact hw.nested.acyclic.link hins.outside
  have hbound : ∀ r c, (swapIn w self index.toNat item).getParentContainer r = some c →
      c < w.next := by
    intro r c hrc
    rw [getParentContainer_swapIn] at hrc
    by_cases hr : r = item
    · subst hr
      rw [Function.update_self] at hrc
      cases hrc
      exact hins.target_lt
    · rw [Function.update_of_ne hr] at hrc
      exact (hw.nested.bounded r c hrc).2
  have hself : (swapIn w self index.toNat item).isContainer self = true := by
    simpa [swapIn] using hins.isContainer
  rw [weightsAgree_iff]
  intro c
  have hoff := addWeight_offBy
    (-((swapIn w self index.toNat item).item replaced).getWeight env.items +
      ((swapIn w self index.toNat item).item item).getWeight env.items)
    (hw.nested.climbable_swapIn hins hget) hacyclic hbound hself (swapIn_offBy hw hins hget) c
  simpa [swapped, swapIn_getWeight env hins.isContainer] using hoff

theorem replaceThing_cached (hw : Cached env w) (hins : Insertable w self item) (index : Int) :
    Cached env (replaceThing env w self index item) := by
  unfold replaceThing
  cases hget : getItemByIndex w self index with
  | none => exact hw
  | some replaced =>
    have hskel := skeleton_swapped env w self index.toNat item replaced
    have hreplace : Cached env
        ((swapped env w self index.toNat item replaced).setParent replaced none) := by
      refine ⟨(hw.nested.replace hins hget).congr ?_ (fun c => ?_)
        (by simpa only [World.setParent_next] using next_of_skeleton hskel),
        (swapped_agree hw hins hget).setParent replaced none⟩
      · rw [getParentContainer_setParent, getParentContainer_setParent,
          getParentContainer_of_skeleton hskel]
      · rw [World.setParent_itemlist, World.setParent_itemlist, itemlist_of_skeleton hskel]
    exact hreplace.setParent_of_untraded (untraded_notifyHolders env _ self fun w p =>
      untraded_onUpdateContainerItem w p self replaced item)

end Operations

/-! ## Runs -/

inductive Op where
  | addThing (target : ItemRef) (index : Int) (item : ItemRef)
  | addItemBack (target item : ItemRef)
  | internalAddThing (target item : ItemRef)
  | updateThing (target item : ItemRef) (itemId count : Nat)
  | replaceThing (target : ItemRef) (index : Int) (item : ItemRef)
  | removeThing (target item : ItemRef) (count : Nat)

def Op.apply (env : Env) (w : World) : Op → World
  | .addThing target index item => Container.addThing env w target index item
  | .addItemBack target item => Container.addItemBack env w target item
  | .internalAddThing target item => Container.internalAddThing env w target item
  | .updateThing target item itemId count => Container.updateThing env w target item itemId count
  | .replaceThing target index item => Container.replaceThing env w target index item
  | .removeThing target item count => Container.removeThing env w target item count

/-- Callers place an item only where it may go. -/
def Op.Valid (w : World) : Op → Prop
  | .addThing target _ item => Insertable w target item
  | .addItemBack target item => Insertable w target item
  | .internalAddThing target item => Insertable w target item
  | .updateThing _ _ _ _ => True
  | .replaceThing target _ item => Insertable w target item
  | .removeThing _ _ _ => True

theorem Op.apply_cached {env : Env} {w : World} (hw : Cached env w) {op : Op}
    (hop : op.Valid w) : Cached env (op.apply env w) := by
  cases op with
  | addThing target index item => exact addThing_cached hw hop index
  | addItemBack target item => exact addItemBack_cached hw hop
  | internalAddThing target item => exact internalAddThing_cached hw hop
  | updateThing target item itemId count => exact updateThing_cached hw target item itemId count
  | replaceThing target index item => exact replaceThing_cached hw hop index
  | removeThing target item count => exact removeThing_cached hw target item count

/-- All containers have just been created, and nothing lies in any of them. -/
structure Fresh (w : World) : Prop where
  unplaced : ∀ r, w.getParentContainer r = none
  itemlist : ∀ c, w.itemlist c = []
  totalWeight : ∀ c, (w.container c).totalWeight = 0

theorem Fresh.cached {w : World} (h : Fresh w) (env : Env) : Cached env w := by
  refine ⟨⟨fun r c => ?_, fun c => ?_, fun a ha => ?_, fun r c hrc => ?_⟩, fun c => ?_⟩
  · simp [h.unplaced, h.itemlist]
  · simp [h.itemlist]
  · obtain ⟨b, -, hb⟩ := Relation.TransGen.tail'_iff.mp ha
    simp [Forest.IsParent, h.unplaced] at hb
  · simp [h.unplaced] at hrc
  · simp [childWeight, h.itemlist, h.totalWeight]

def operations (env : Env) : Run.System World Op where
  init := Fresh
  step w op w' := op.Valid w ∧ w' = op.apply env w

theorem reachable_apply {env : Env} {w : World} (h : Run.Reachable (operations env) w) (op : Op)
    (hop : op.Valid w) : Run.Reachable (operations env) (op.apply env w) :=
  h.step' ⟨hop, rfl⟩

theorem cached_of_reachable {env : Env} {w : World} (h : Run.Reachable (operations env) w) :
    Cached env w := by
  refine Run.Reachable.invariant (I := Cached env) (fun w (hw : Fresh w) => hw.cached env) ?_ h
  rintro w op w' hw ⟨hop, rfl⟩
  exact Op.apply_cached hw hop

/-- The weights of an item and of everything inside it, looking `n` levels deep. -/
def deepWeight (env : Env) (w : World) : Nat → ItemRef → UInt32
  | 0, _ => 0
  | n + 1, r => (w.item r).ownWeight env.items + ((w.itemlist r).map (deepWeight env w n)).sum

theorem Cached.getWeight_eq_deepWeight {env : Env} {w : World} (hw : Cached env w) (r : ItemRef)
    {n : Nat} (hn : w.next < n) : (w.item r).getWeight env.items = deepWeight env w n r := by
  apply hw.nested.acyclic.down_induction (fun a b hab => (hw.nested.bounded a b hab).1)
    (P := fun n r => (w.item r).getWeight env.items = deepWeight env w n r) _ hn
  intro k a ih
  rw [World.getWeight_eq, hw.agree a, deepWeight, childWeight]
  congr 2
  apply List.map_congr_left
  intro b hb
  exact ih b ((hw.nested.mem_iff b a).mpr hb)

/-- After any run every cache holds the weights of the direct children, and the weight of a
container is that of everything inside it. -/
theorem totalWeight_of_reachable {env : Env} {w : World}
    (h : Run.Reachable (operations env) w) :
    (∀ c, (w.container c).totalWeight =
      ((w.itemlist c).map fun r => (w.item r).getWeight env.items).sum) ∧
    ∀ r n, w.next < n → (w.item r).getWeight env.items = deepWeight env w n r :=
  ⟨(cached_of_reachable h).agree, fun r _ hn => (cached_of_reachable h).getWeight_eq_deepWeight r hn⟩

/-! A loaf of bread goes into a bag, and the bag into a backpack. -/

theorem Fresh.ofItems {items : List Item}
    (h : ∀ item ∈ items, World.containerOf item.parent = none ∧
      ∀ c, item.getContainer = some c → c.itemlist = [] ∧ c.totalWeight = 0) :
    Fresh (World.ofItems items) := by
  have hall := World.ofItems_forall (P := fun item => World.containerOf item.parent = none ∧
    ∀ c, item.getContainer = some c → c.itemlist = [] ∧ c.totalWeight = 0)
    ⟨rfl, fun c hc => nomatch hc⟩ h
  have hempty : ∀ r, ((World.ofItems items).container r).itemlist = [] ∧
      ((World.ofItems items).container r).totalWeight = 0 := by
    intro r
    unfold World.container
    cases hc : ((World.ofItems items).item r).getContainer with
    | none => exact ⟨rfl, rfl⟩
    | some c => exact (hall r).2 c hc
  exact ⟨fun r => (hall r).1, fun r => (hempty r).1, fun r => (hempty r).2⟩

theorem Insertable.of_root {w : World} {target item : ItemRef} (hc : w.isContainer target = true)
    (hitem : w.getParentContainer item = none) (htarget : w.getParentContainer target = none)
    (hne : item ≠ target) (hlt : item < w.next ∧ target < w.next) :
    Insertable w target item := by
  refine ⟨hc, hitem, fun h => hne ?_, hlt.1, hlt.2⟩
  rcases Relation.ReflTransGen.cases_tail h with heq | ⟨b, -, hb⟩
  · exact heq.symm
  · rw [Forest.IsParent, htarget] at hb
    cases hb

def sampleBags : World :=
  World.ofItems [sampleItem backpack 1, sampleItem bag 1, sampleItem bread 1]

theorem sampleBags_fresh : Fresh sampleBags := by
  apply Fresh.ofItems
  intro item h
  simp only [List.mem_cons, List.not_mem_nil, or_false] at h
  rcases h with rfl | rfl | rfl
  · exact ⟨rfl, fun c hc => by cases hc; exact ⟨rfl, rfl⟩⟩
  · exact ⟨rfl, fun c hc => by cases hc; exact ⟨rfl, rfl⟩⟩
  · exact ⟨rfl, fun c hc => nomatch hc⟩

theorem totalWeight_of_packed_bread :
    let env := Env.quiet sampleItems
    let w := addThing env (addThing env sampleBags 1 0 2) 0 0 1
    (w.item 0).getWeight env.items = deepWeight env w 4 0 ∧ deepWeight env w 4 0 = 3100 := by
  intro env w
  have hbread : Insertable sampleBags 1 2 :=
    Insertable.of_root (by decide) (by decide) (by decide) (by decide) (by decide)
  have hbag : Insertable (addThing env sampleBags 1 0 2) 0 1 :=
    Insertable.of_root (by decide) (by decide) (by decide) (by decide) (by decide)
  have hstart : Run.Reachable (operations env) sampleBags := .init sampleBags_fresh
  have hpacked : Run.Reachable (operations env) w :=
    reachable_apply (reachable_apply hstart (.addThing 1 0 2) hbread) (.addThing 0 0 1) hbag
  exact ⟨(totalWeight_of_reachable hpacked).2 0 4 (by decide), by decide⟩

end Eloth.Container
