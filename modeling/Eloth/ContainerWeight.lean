import Mathlib.Tactic.Abel
import Eloth.Container
import Eloth.Skeleton
import Eloth.Lib.Forest
import Eloth.Lib.PointSum

/-!
# The cached weights of nested containers

Each container caches the weight of its contents, and every mutator sends the difference it
makes up the chain of parents. Between the change of a list and the arrival of the difference
the caches are off by a known amount at one container; climbing moves that amount to the parent,
and it vanishes at the root.
-/

namespace Eloth.Container

/-- Parent pointers and item lists agree, and the containers form a finite forest. -/
structure Nested (w : World) : Prop where
  mem_iff : ∀ r c, w.getParentContainer r = some c ↔ r ∈ w.itemlist c
  nodup : ∀ c, (w.itemlist c).Nodup
  acyclic : Forest.Acyclic w.getParentContainer
  bounded : ∀ r c, w.getParentContainer r = some c → r < w.next ∧ c < w.next

/-- The weights of the direct children, modulo 2 ^ 32. -/
def childWeight (env : Env) (w : World) (c : ItemRef) : UInt32 :=
  ((w.itemlist c).map fun r => (w.item r).getWeight env.items).sum

/-- Each total weight lacks the amount `e` to be the sum over the direct children. -/
def OffBy (env : Env) (w : World) (e : ItemRef → UInt32) : Prop :=
  ∀ c, (w.container c).totalWeight + e c = childWeight env w c

def WeightsAgree (env : Env) (w : World) : Prop :=
  ∀ c, (w.container c).totalWeight = childWeight env w c

theorem weightsAgree_iff {env : Env} {w : World} :
    WeightsAgree env w ↔ OffBy env w fun _ => 0 := by
  simp [WeightsAgree, OffBy]

theorem Nested.congr {w w' : World} (hw : Nested w)
    (hparent : w'.getParentContainer = w.getParentContainer)
    (hlist : ∀ c, w'.itemlist c = w.itemlist c) (hnext : w'.next = w.next) : Nested w' := by
  refine ⟨fun r c => ?_, fun c => ?_, ?_, fun r c hrc => ?_⟩
  · rw [hparent, hlist]
    exact hw.mem_iff r c
  · rw [hlist]
    exact hw.nodup c
  · rw [hparent]
    exact hw.acyclic
  · rw [hnext]
    exact hw.bounded r c (by rwa [hparent] at hrc)

theorem Nested.of_skeleton {w w' : World} (h : w'.skeleton = w.skeleton) (hw : Nested w) :
    Nested w' :=
  hw.congr (getParentContainer_of_skeleton h) (itemlist_of_skeleton h) (next_of_skeleton h)

theorem Nested.parent_unique {w : World} (hw : Nested w) {r c c' : ItemRef}
    (h : r ∈ w.itemlist c) (h' : r ∈ w.itemlist c') : c = c' := by
  have hc := (hw.mem_iff r c).mpr h
  rw [(hw.mem_iff r c').mpr h'] at hc
  exact (Option.some.inj hc).symm

/-! ## Sending a difference upwards -/

def addTotal (w : World) (self : ItemRef) (diff : UInt32) : World :=
  w.modifyContainer self fun c => { c with totalWeight := c.totalWeight + diff }

section AddTotal

variable (env : Env) (w : World) (self : ItemRef) (diff : UInt32)

theorem skeleton_addTotal : (addTotal w self diff).skeleton = w.skeleton := by
  unfold addTotal World.modifyContainer
  apply skeleton_modifyItem
  cases hcls : (w.item self).cls <;> simp [Item.unweighted, hcls]

theorem addTotal_container (h : w.isContainer self = true) (c : ItemRef) :
    ((addTotal w self diff).container c).totalWeight =
      (w.container c).totalWeight + if c = self then diff else 0 := by
  by_cases hc : c = self
  · subst hc
    rw [addTotal, World.modifyContainer_container_self h, if_pos rfl]
  · rw [addTotal, World.modifyContainer_container_ne hc, if_neg hc, add_zero]

theorem addTotal_getWeight (h : w.isContainer self = true) (r : ItemRef) :
    ((addTotal w self diff).item r).getWeight env.items =
      (w.item r).getWeight env.items + if r = self then diff else 0 := by
  rw [World.getWeight_eq, World.getWeight_eq, addTotal_container w self diff h,
    ownWeight_of_skeleton (skeleton_addTotal w self diff), add_assoc]

theorem addTotal_childWeight (hnodup : ∀ c, (w.itemlist c).Nodup)
    (h : w.isContainer self = true) (c : ItemRef) :
    childWeight env (addTotal w self diff) c =
      childWeight env w c + if self ∈ w.itemlist c then diff else 0 := by
  unfold childWeight
  rw [itemlist_of_skeleton (skeleton_addTotal w self diff)]
  apply PointSum.sum_map_add (hnodup c)
  · rw [addTotal_getWeight env w self diff h, if_pos rfl]
  · intro r hr
    rw [addTotal_getWeight env w self diff h, if_neg hr, add_zero]

end AddTotal

theorem updateItemWeight_succ (diff : UInt32) (fuel : Nat) (w : World) (self : ItemRef) :
    updateItemWeight diff (fuel + 1) w self =
      match w.getParentContainer self with
      | none => addTotal w self diff
      | some above => updateItemWeight diff fuel (addTotal w self diff) above := by
  rw [updateItemWeight, ← getParentContainer_of_skeleton (skeleton_addTotal w self diff)]
  rfl

theorem skeleton_updateItemWeight (diff : UInt32) (fuel : Nat) (w : World) (self : ItemRef) :
    (updateItemWeight diff fuel w self).skeleton = w.skeleton := by
  induction fuel generalizing w self with
  | zero => rfl
  | succ fuel ih =>
    rw [updateItemWeight_succ]
    split
    · exact skeleton_addTotal w self diff
    · exact (ih _ _).trans (skeleton_addTotal w self diff)

/-- Pointers and lists agree for the container and everything above it. -/
structure Climbable (w : World) (start : ItemRef) : Prop where
  mem_iff : ∀ r, Forest.AboveOrSelf w.getParentContainer r start →
    ∀ c, w.getParentContainer r = some c ↔ r ∈ w.itemlist c
  nodup : ∀ c, (w.itemlist c).Nodup

theorem Nested.climbable {w : World} (hw : Nested w) (self : ItemRef) : Climbable w self :=
  ⟨fun r _ c => hw.mem_iff r c, hw.nodup⟩

theorem Climbable.of_skeleton {w w' : World} {self above : ItemRef} (h : w'.skeleton = w.skeleton)
    (hw : Climbable w self) (habove : w.getParentContainer self = some above) :
    Climbable w' above := by
  have hparent := getParentContainer_of_skeleton h
  refine ⟨fun r hr c => ?_, fun c => ?_⟩
  · rw [hparent] at hr ⊢
    rw [itemlist_of_skeleton h]
    exact hw.mem_iff r (hr.tail habove) c
  · rw [itemlist_of_skeleton h]
    exact hw.nodup c

theorem addTotal_offBy {env : Env} {w : World} {self : ItemRef} {e : ItemRef → UInt32}
    (diff : UInt32) (hw : Climbable w self) (hself : w.isContainer self = true)
    (h : OffBy env w e) :
    OffBy env (addTotal w self diff) fun c =>
      e c - (if c = self then diff else 0) +
        if w.getParentContainer self = some c then diff else 0 := by
  intro c
  have hmem : (if self ∈ w.itemlist c then diff else 0) =
      if w.getParentContainer self = some c then diff else 0 :=
    if_congr (hw.mem_iff self .refl c).symm rfl rfl
  rw [addTotal_container w self diff hself, addTotal_childWeight env w self diff hw.nodup hself,
    ← h c, hmem]
  beta_reduce
  abel

theorem updateItemWeight_offBy {env : Env} {diff : UInt32} {fuel : Nat} {w : World}
    {self : ItemRef} {e : ItemRef → UInt32} (hw : Climbable w self)
    (hself : w.isContainer self = true)
    (hfuel : Forest.Stops w.getParentContainer fuel self) (h : OffBy env w e) :
    OffBy env (updateItemWeight diff fuel w self) fun c => e c - if c = self then diff else 0 := by
  induction fuel generalizing w self e with
  | zero => exact hfuel.elim
  | succ fuel ih =>
    have hstep := addTotal_offBy diff hw hself h
    have hskel := skeleton_addTotal w self diff
    rw [updateItemWeight_succ]
    cases hparent : w.getParentContainer self with
    | none => simpa [hparent] using hstep
    | some above =>
      have habove : (addTotal w self diff).isContainer above = true := by
        rw [isContainer_of_skeleton hskel]
        exact World.isContainer_of_mem ((hw.mem_iff self .refl above).mp hparent)
      have hstops : Forest.Stops (addTotal w self diff).getParentContainer fuel above := by
        rw [getParentContainer_of_skeleton hskel]
        exact hfuel above hparent
      have hrest := ih (hw.of_skeleton hskel hparent) habove hstops hstep
      intro c
      have hc := hrest c
      simp only [hparent, Option.some.injEq, eq_comm (a := above)] at hc
      rw [← hc]
      beta_reduce
      abel

theorem updateItemWeight_item {diff : UInt32} {fuel : Nat} {w : World} {self r : ItemRef}
    (hr : ¬ Forest.AboveOrSelf w.getParentContainer r self) :
    (updateItemWeight diff fuel w self).item r = w.item r := by
  induction fuel generalizing w self with
  | zero => rfl
  | succ fuel ih =>
    have hne : r ≠ self := fun h => hr (h ▸ .refl)
    have hitem : (addTotal w self diff).item r = w.item r := by
      unfold addTotal World.modifyContainer
      exact World.modifyItem_item_ne hne
    rw [updateItemWeight_succ]
    cases hparent : w.getParentContainer self with
    | none => exact hitem
    | some above =>
      refine (ih fun h => hr ?_).trans hitem
      rw [getParentContainer_of_skeleton (skeleton_addTotal w self diff)] at h
      exact h.tail hparent

theorem skeleton_addWeight (w : World) (self : ItemRef) (diff : UInt32) :
    (addWeight w self diff).skeleton = w.skeleton :=
  skeleton_updateItemWeight diff _ w self

theorem addWeight_item (diff : UInt32) {w : World} {self r : ItemRef}
    (hr : ¬ Forest.AboveOrSelf w.getParentContainer r self) :
    (addWeight w self diff).item r = w.item r := updateItemWeight_item hr

theorem addWeight_offBy {env : Env} (diff : UInt32) {w : World} {self : ItemRef}
    {e : ItemRef → UInt32} (hw : Climbable w self) (hac : Forest.Acyclic w.getParentContainer)
    (hbound : ∀ r c, w.getParentContainer r = some c → c < w.next)
    (hself : w.isContainer self = true) (h : OffBy env w e) :
    OffBy env (addWeight w self diff) fun c => e c - if c = self then diff else 0 :=
  updateItemWeight_offBy hw hself
    ((hac.stops hbound self).mono (by
      simp only [World.climbFuel]
      omega)) h

theorem addWeight_agree {env : Env} {diff : UInt32} {w : World} {self : ItemRef}
    (hw : Nested w) (hself : w.isContainer self = true)
    (h : OffBy env w fun c => if c = self then diff else 0) :
    WeightsAgree env (addWeight w self diff) := by
  rw [weightsAgree_iff]
  intro c
  simpa using addWeight_offBy diff (hw.climbable self) hw.acyclic
    (fun r c hrc => (hw.bounded r c hrc).2) hself h c

/-! ## Linking and unlinking -/

theorem Nested.insert {w w' : World} {self item : ItemRef} {front back : List ItemRef}
    (hw : Nested w) (hlist : w.itemlist self = front ++ back)
    (hfree : w.getParentContainer item = none)
    (hout : ¬ Forest.AboveOrSelf w.getParentContainer item self)
    (hitem : item < w.next) (hself : self < w.next)
    (hparent : w'.getParentContainer = Function.update w.getParentContainer item (some self))
    (hin : w'.itemlist self = front ++ item :: back)
    (hother : ∀ c, c ≠ self → w'.itemlist c = w.itemlist c) (hnext : w'.next = w.next) :
    Nested w' := by
  have hnone : ∀ c, item ∉ w.itemlist c := fun c hc => by
    rw [(hw.mem_iff item c).mpr hc] at hfree
    cases hfree
  have hperm : (front ++ item :: back).Perm (item :: w.itemlist self) := by
    rw [hlist]
    exact List.perm_middle
  refine ⟨fun r c => ?_, fun c => ?_, ?_, fun r c hrc => ?_⟩
  · rw [hparent]
    by_cases hr : r = item
    · subst hr
      by_cases hc : c = self
      · subst hc
        simp [hin]
      · simp [hother c hc, hnone c, Ne.symm hc]
    · rw [Function.update_of_ne hr, hw.mem_iff]
      by_cases hc : c = self
      · subst hc
        rw [hin, hperm.mem_iff, List.mem_cons]
        simp [hr]
      · rw [hother c hc]
  · by_cases hc : c = self
    · subst hc
      rw [hin, hperm.nodup_iff, List.nodup_cons]
      exact ⟨hnone c, hw.nodup c⟩
    · rw [hother c hc]
      exact hw.nodup c
  · rw [hparent]
    exact hw.acyclic.link hout
  · rw [hnext]
    by_cases hr : r = item
    · subst hr
      rw [hparent, Function.update_self] at hrc
      cases hrc
      exact ⟨hitem, hself⟩
    · rw [hparent, Function.update_of_ne hr] at hrc
      exact hw.bounded r c hrc

theorem Nested.erase {w w' : World} {self item : ItemRef} (hw : Nested w)
    (hmem : item ∈ w.itemlist self)
    (hparent : w'.getParentContainer = Function.update w.getParentContainer item none)
    (hin : w'.itemlist self = (w.itemlist self).erase item)
    (hother : ∀ c, c ≠ self → w'.itemlist c = w.itemlist c) (hnext : w'.next = w.next) :
    Nested w' := by
  refine ⟨fun r c => ?_, fun c => ?_, ?_, fun r c hrc => ?_⟩
  · rw [hparent]
    by_cases hr : r = item
    · subst hr
      by_cases hc : c = self
      · subst hc
        simp [hin, (hw.nodup c).not_mem_erase]
      · have : r ∉ w.itemlist c := fun h => hc (hw.parent_unique h hmem)
        simp [hother c hc, this]
    · rw [Function.update_of_ne hr, hw.mem_iff]
      by_cases hc : c = self
      · subst hc
        rw [hin, (hw.nodup c).mem_erase_iff]
        simp [hr]
      · rw [hother c hc]
  · by_cases hc : c = self
    · subst hc
      rw [hin]
      exact (hw.nodup c).erase item
    · rw [hother c hc]
      exact hw.nodup c
  · rw [hparent]
    exact hw.acyclic.unlink item
  · rw [hnext]
    by_cases hr : r = item
    · subst hr
      simp [hparent] at hrc
    · rw [hparent, Function.update_of_ne hr] at hrc
      exact hw.bounded r c hrc

theorem getParentContainer_setParent (w : World) (r : ItemRef) (p : Option Cylinder) :
    (w.setParent r p).getParentContainer =
      Function.update w.getParentContainer r (World.containerOf p) := by
  funext x
  by_cases hx : x = r
  · subst hx
    simp [World.getParentContainer]
  · simp [World.getParentContainer, hx]

theorem getParentContainer_modifyContainer (w : World) (r : ItemRef) (g : Container → Container) :
    (w.modifyContainer r g).getParentContainer = w.getParentContainer := by
  funext x
  simp [World.getParentContainer]

theorem ownWeight_modifyContainer (env : Env) (w : World) (r x : ItemRef)
    (g : Container → Container) :
    ((w.modifyContainer r g).item x).ownWeight env.items = (w.item x).ownWeight env.items :=
  World.modifyContainer_proj (fun item => item.ownWeight env.items) fun _ _ => rfl

theorem ownWeight_setParent (env : Env) (w : World) (r x : ItemRef) (p : Option Cylinder) :
    ((w.setParent r p).item x).ownWeight env.items = (w.item x).ownWeight env.items :=
  World.setParent_proj (fun item => item.ownWeight env.items) fun _ => rfl

theorem getWeight_congr (env : Env) (w w' : World)
    (hown : ∀ r, (w'.item r).ownWeight env.items = (w.item r).ownWeight env.items)
    (htotal : ∀ c, (w'.container c).totalWeight = (w.container c).totalWeight) (r : ItemRef) :
    (w'.item r).getWeight env.items = (w.item r).getWeight env.items := by
  rw [World.getWeight_eq, World.getWeight_eq, hown, htotal]

end Eloth.Container
