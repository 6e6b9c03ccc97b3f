import Eloth.Tile
import Eloth.Skeleton
import Eloth.Lib.Forest
import Eloth.Lib.Ledger
import Eloth.Lib.ListSet

/-!
# Holdings

Where each item lies, and the ledger of a world: the items, their places, ids and counts. The
operations of the cylinders take an item out of a cylinder, put one into a cylinder, or change
an item in its place.
-/

namespace Eloth

namespace World

variable (w : World)

def contents : Cylinder → List ItemRef
  | .container c => w.itemlist c
  | .player p => inventorySlots.filterMap (w.player p).inventory
  | .tile pos => (w.tile pos).allItems

def place (r : ItemRef) : Option Cylinder := (w.item r).parent.filter fun c => r ∈ w.contents c

def ledger : Ledger Cylinder Nat where
  size := w.next
  place := w.place
  kind r := (w.item r).id
  units r := (w.item r).count

end World

/-- What stacking and the scripts read of an item. -/
def Item.record (item : Item) : Nat × Nat × Option Attributes :=
  (item.id, item.count, item.attributes)

/-- Each item lies in one place at most, its parent pointer names that place, and no container
lies inside itself. -/
structure Housed (w : World) : Prop where
  parent : ∀ {c r}, r ∈ w.contents c → (w.item r).parent = some c
  nodup : ∀ c, (w.contents c).Nodup
  lt : ∀ {c r}, r ∈ w.contents c → r < w.next
  acyclic : Forest.Acyclic w.getParentContainer
  bounded : ∀ {r c}, w.getParentContainer r = some c → r < w.next ∧ c < w.next
  isContainer : ∀ {r c}, w.getParentContainer r = some c → w.isContainer c = true

/-- Classes, capacities and the allocation stay. -/
structure Frame (w w' : World) : Prop where
  isContainer : ∀ r, w'.isContainer r = w.isContainer r
  capacity : ∀ r, (w'.container r).capacity = (w.container r).capacity
  next : w'.next = w.next

/-- An item leaves a cylinder. -/
structure Took (w w' : World) (c : Cylinder) (item : ItemRef) : Prop where
  contents_self : (w.contents c).Perm (item :: w'.contents c)
  contents_ne : ∀ c', c' ≠ c → w'.contents c' = w.contents c'
  parent : ∀ r, (w'.item r).parent = if r = item then none else (w.item r).parent
  record : ∀ r, (w'.item r).record = (w.item r).record
  frame : Frame w w'

/-- An item enters a cylinder. -/
structure Put (w w' : World) (c : Cylinder) (item : ItemRef) : Prop where
  contents_self : (w'.contents c).Perm (item :: w.contents c)
  contents_ne : ∀ c', c' ≠ c → w'.contents c' = w.contents c'
  parent : ∀ r, (w'.item r).parent = if r = item then some c else (w.item r).parent
  record : ∀ r, (w'.item r).record = (w.item r).record
  frame : Frame w w'

/-- An item changes in its place. -/
structure Changed (w w' : World) (item : ItemRef) : Prop where
  contents : ∀ c, w'.contents c = w.contents c
  parent : ∀ r, (w'.item r).parent = (w.item r).parent
  record : ∀ r, r ≠ item → (w'.item r).record = (w.item r).record
  frame : Frame w w'

variable {w w' w'' : World} {c : Cylinder} {item : ItemRef}

/-! ## Skeletons -/

section Skeleton

variable (h : w'.skeleton = w.skeleton)

include h

theorem contents_of_skeleton (c : Cylinder) : w'.contents c = w.contents c := by
  cases c with
  | container r => exact itemlist_of_skeleton h r
  | player p => simp only [World.contents, inventory_of_skeleton h p]
  | tile pos => simp only [World.contents, tile_of_skeleton h]

theorem record_of_skeleton (r : ItemRef) : (w'.item r).record = (w.item r).record := by
  unfold Item.record
  rw [id_of_skeleton h, count_of_skeleton h, attributes_of_skeleton h]

theorem frame_of_skeleton : Frame w w' :=
  ⟨isContainer_of_skeleton h, capacity_of_skeleton h, next_of_skeleton h⟩

end Skeleton

namespace Frame

theorem trans (h : Frame w w') (h' : Frame w' w'') : Frame w w'' :=
  ⟨fun r => (h'.isContainer r).trans (h.isContainer r),
    fun r => (h'.capacity r).trans (h.capacity r), h'.next.trans h.next⟩

end Frame

theorem Took.of_skeleton {w₁ w₂ : World} (h : Took w w' c item) (h₁ : w.skeleton = w₁.skeleton)
    (h₂ : w₂.skeleton = w'.skeleton) : Took w₁ w₂ c item where
  contents_self := by
    rw [← contents_of_skeleton h₁, contents_of_skeleton h₂]
    exact h.contents_self
  contents_ne c' hc := by
    rw [← contents_of_skeleton h₁, contents_of_skeleton h₂, h.contents_ne c' hc]
  parent r := by
    rw [← parent_of_skeleton h₁, parent_of_skeleton h₂, h.parent]
  record r := by
    rw [← record_of_skeleton h₁, record_of_skeleton h₂, h.record]
  frame := ((frame_of_skeleton h₁).trans h.frame).trans (frame_of_skeleton h₂)

theorem Put.of_skeleton {w₁ w₂ : World} (h : Put w w' c item) (h₁ : w.skeleton = w₁.skeleton)
    (h₂ : w₂.skeleton = w'.skeleton) : Put w₁ w₂ c item where
  contents_self := by
    rw [← contents_of_skeleton h₁, contents_of_skeleton h₂]
    exact h.contents_self
  contents_ne c' hc := by
    rw [← contents_of_skeleton h₁, contents_of_skeleton h₂, h.contents_ne c' hc]
  parent r := by
    rw [← parent_of_skeleton h₁, parent_of_skeleton h₂, h.parent]
  record r := by
    rw [← record_of_skeleton h₁, record_of_skeleton h₂, h.record]
  frame := ((frame_of_skeleton h₁).trans h.frame).trans (frame_of_skeleton h₂)

theorem Changed.of_skeleton {w₁ w₂ : World} (h : Changed w w' item)
    (h₁ : w.skeleton = w₁.skeleton) (h₂ : w₂.skeleton = w'.skeleton) : Changed w₁ w₂ item where
  contents c := by
    rw [← contents_of_skeleton h₁, contents_of_skeleton h₂, h.contents]
  parent r := by
    rw [← parent_of_skeleton h₁, parent_of_skeleton h₂, h.parent]
  record r hr := by
    rw [← record_of_skeleton h₁, record_of_skeleton h₂, h.record r hr]
  frame := ((frame_of_skeleton h₁).trans h.frame).trans (frame_of_skeleton h₂)

theorem id_of_record {a b : Item} (h : a.record = b.record) : a.id = b.id := congrArg Prod.fst h

theorem count_of_record {a b : Item} (h : a.record = b.record) : a.count = b.count :=
  congrArg (fun t => t.2.1) h

/-! ## Places -/

namespace Housed

/-- The parent pointer of an item names one place. -/
theorem one_place (hw : Housed w) {r : ItemRef} {c c' : Cylinder} (h : r ∈ w.contents c)
    (h' : r ∈ w.contents c') : c = c' :=
  Option.some.inj ((hw.parent h).symm.trans (hw.parent h'))

theorem place_iff (hw : Housed w) (r : ItemRef) (c : Cylinder) :
    w.place r = some c ↔ r ∈ w.contents c := by
  unfold World.place
  rw [Option.filter_eq_some_iff]
  constructor
  · rintro ⟨-, h⟩
    simpa using h
  · intro h
    exact ⟨hw.parent h, by simpa using h⟩

theorem place_eq_none (hw : Housed w) {r : ItemRef} :
    w.place r = none ↔ ∀ c, r ∉ w.contents c := by
  constructor
  · intro h c hc
    rw [(hw.place_iff r c).mpr hc] at h
    cases h
  · intro h
    cases hp : w.place r with
    | none => rfl
    | some c => exact absurd ((hw.place_iff r c).mp hp) (h c)

theorem place_eq (hw : Housed w) (hw' : Housed w') {r r' : ItemRef}
    (h : ∀ c, r' ∈ w'.contents c ↔ r ∈ w.contents c) : w'.place r' = w.place r := by
  apply Option.ext
  intro c
  rw [hw'.place_iff, hw.place_iff, h]

theorem congr (hw : Housed w) (hcontents : ∀ c, w'.contents c = w.contents c)
    (hparent : ∀ r, (w'.item r).parent = (w.item r).parent) (hframe : Frame w w') :
    Housed w' := by
  have hpc : w'.getParentContainer = w.getParentContainer := by
    funext r
    simp only [World.getParentContainer, hparent]
  refine ⟨fun {c r} h => ?_, fun c => ?_, fun {c r} h => ?_, ?_, fun {r c} h => ?_, fun {r c} h => ?_⟩
  · rw [hcontents] at h
    rw [hparent, hw.parent h]
  · rw [hcontents]
    exact hw.nodup c
  · rw [hcontents] at h
    rw [hframe.next]
    exact hw.lt h
  · rw [hpc]
    exact hw.acyclic
  · rw [hpc] at h
    rw [hframe.next]
    exact hw.bounded h
  · rw [hpc] at h
    rw [hframe.isContainer]
    exact hw.isContainer h

theorem of_skeleton (hw : Housed w) (h : w'.skeleton = w.skeleton) : Housed w' :=
  hw.congr (contents_of_skeleton h) (parent_of_skeleton h) (frame_of_skeleton h)

end Housed

/-! ## What the operations do to the places -/

namespace Took

theorem mem (h : Took w w' c item) : item ∈ w.contents c :=
  h.contents_self.mem_iff.mpr List.mem_cons_self

theorem mem_iff (h : Took w w' c item) (hw : Housed w) {r : ItemRef} {c' : Cylinder} :
    r ∈ w'.contents c' ↔ r ≠ item ∧ r ∈ w.contents c' := by
  by_cases hc : c' = c
  · subst hc
    have hnot : item ∉ w'.contents c' :=
      (List.nodup_cons.mp (h.contents_self.nodup_iff.mp (hw.nodup c'))).1
    rw [h.contents_self.mem_iff, List.mem_cons]
    constructor
    · exact fun hr => ⟨fun he => hnot (he ▸ hr), .inr hr⟩
    · rintro ⟨hne, hr⟩
      exact hr.resolve_left hne
  · rw [h.contents_ne c' hc]
    constructor
    · exact fun hr => ⟨fun he => hc (hw.one_place hr (he ▸ h.mem)), hr⟩
    · exact And.right

theorem getParentContainer (h : Took w w' c item) :
    w'.getParentContainer = Function.update w.getParentContainer item none := by
  funext r
  unfold World.getParentContainer
  rw [h.parent]
  by_cases hr : r = item
  · simp [hr, World.containerOf]
  · simp [hr]

theorem getParentContainer_eq (h : Took w w' c item) {r above : ItemRef}
    (hr : w'.getParentContainer r = some above) : w.getParentContainer r = some above := by
  rw [h.getParentContainer] at hr
  by_cases hne : r = item
  · subst hne
    simp at hr
  · rwa [Function.update_of_ne hne] at hr

theorem housed (h : Took w w' c item) (hw : Housed w) : Housed w' := by
  refine ⟨fun {c' r} hr => ?_, fun c' => ?_, fun {c' r} hr => ?_, ?_, fun {r c'} hr => ?_,
    fun {r c'} hr => ?_⟩
  · obtain ⟨hne, hr⟩ := (h.mem_iff hw).mp hr
    rw [h.parent, if_neg hne, hw.parent hr]
  · by_cases hc : c' = c
    · subst hc
      exact (List.nodup_cons.mp (h.contents_self.nodup_iff.mp (hw.nodup c'))).2
    · rw [h.contents_ne c' hc]
      exact hw.nodup c'
  · rw [h.frame.next]
    exact hw.lt ((h.mem_iff hw).mp hr).2
  · rw [h.getParentContainer]
    exact hw.acyclic.unlink item
  · rw [h.frame.next]
    exact hw.bounded (h.getParentContainer_eq hr)
  · rw [h.frame.isContainer]
    exact hw.isContainer (h.getParentContainer_eq hr)

theorem place (h : Took w w' c item) (hw : Housed w) :
    w'.place = Function.update w.place item none := by
  have hw' := h.housed hw
  funext r
  by_cases hr : r = item
  · subst hr
    rw [Function.update_self, hw'.place_eq_none]
    exact fun c' hc => ((h.mem_iff hw).mp hc).1 rfl
  · rw [Function.update_of_ne hr]
    exact hw.place_eq hw' fun c' => by simp [h.mem_iff hw, hr]

theorem ledger (h : Took w w' c item) (hw : Housed w) :
    w'.ledger = w.ledger.move item none := by
  have hkind : (fun r => (w'.item r).id) = fun r => (w.item r).id :=
    funext fun r => id_of_record (h.record r)
  have hunits : (fun r => (w'.item r).count) = fun r => (w.item r).count :=
    funext fun r => count_of_record (h.record r)
  unfold World.ledger
  rw [h.place hw, h.frame.next, hkind, hunits]
  rfl

end Took

namespace Put

theorem mem_iff (h : Put w w' c item) {r : ItemRef} {c' : Cylinder} :
    r ∈ w'.contents c' ↔ (r = item ∧ c' = c) ∨ r ∈ w.contents c' := by
  by_cases hc : c' = c
  · subst hc
    rw [h.contents_self.mem_iff, List.mem_cons]
    simp
  · rw [h.contents_ne c' hc]
    simp [hc]

theorem getParentContainer (h : Put w w' c item) :
    w'.getParentContainer =
      Function.update w.getParentContainer item (World.containerOf (some c)) := by
  funext r
  unfold World.getParentContainer
  rw [h.parent]
  by_cases hr : r = item
  · simp [hr]
  · simp [hr]

theorem getParentContainer_eq (h : Put w w' c item) {r above : ItemRef}
    (hr : w'.getParentContainer r = some above) :
    (r = item ∧ c = .container above) ∨ w.getParentContainer r = some above := by
  rw [h.getParentContainer] at hr
  by_cases hne : r = item
  · subst hne
    rw [Function.update_self] at hr
    cases c with
    | container self =>
      cases hr
      exact .inl ⟨rfl, rfl⟩
    | player p => cases hr
    | tile pos => cases hr
  · rw [Function.update_of_ne hne] at hr
    exact .inr hr

theorem housed (h : Put w w' c item) (hw : Housed w) (hitem : item < w.next)
    (hfree : ∀ c', item ∉ w.contents c')
    (hout : ∀ self, c = .container self → w.isContainer self = true ∧ self < w.next ∧
      ¬ Forest.AboveOrSelf w.getParentContainer item self) : Housed w' := by
  refine ⟨fun {c' r} hr => ?_, fun c' => ?_, fun {c' r} hr => ?_, ?_, fun {r c'} hr => ?_,
    fun {r c'} hr => ?_⟩
  · rw [h.parent]
    rcases h.mem_iff.mp hr with ⟨rfl, rfl⟩ | hr
    · rw [if_pos rfl]
    · rw [if_neg (fun he : r = item => hfree c' (he ▸ hr)), hw.parent hr]
  · by_cases hc : c' = c
    · subst hc
      rw [h.contents_self.nodup_iff, List.nodup_cons]
      exact ⟨hfree c', hw.nodup c'⟩
    · rw [h.contents_ne c' hc]
      exact hw.nodup c'
  · rw [h.frame.next]
    rcases h.mem_iff.mp hr with ⟨rfl, -⟩ | hr
    · exact hitem
    · exact hw.lt hr
  · rw [h.getParentContainer]
    cases c with
    | container self => exact hw.acyclic.link (hout self rfl).2.2
    | player p => exact hw.acyclic.unlink item
    | tile pos => exact hw.acyclic.unlink item
  · rw [h.frame.next]
    rcases h.getParentContainer_eq hr with ⟨rfl, rfl⟩ | hr
    · exact ⟨hitem, (hout c' rfl).2.1⟩
    · exact hw.bounded hr
  · rw [h.frame.isContainer]
    rcases h.getParentContainer_eq hr with ⟨rfl, rfl⟩ | hr
    · exact (hout c' rfl).1
    · exact hw.isContainer hr

theorem place (h : Put w w' c item) (hw : Housed w) (hw' : Housed w') :
    w'.place = Function.update w.place item (some c) := by
  funext r
  by_cases hr : r = item
  · subst hr
    rw [Function.update_self, hw'.place_iff]
    exact h.mem_iff.mpr (.inl ⟨rfl, rfl⟩)
  · rw [Function.update_of_ne hr]
    exact hw.place_eq hw' fun c' => by simp [h.mem_iff, hr]

theorem ledger (h : Put w w' c item) (hw : Housed w) (hw' : Housed w') :
    w'.ledger = w.ledger.move item (some c) := by
  have hkind : (fun r => (w'.item r).id) = fun r => (w.item r).id :=
    funext fun r => id_of_record (h.record r)
  have hunits : (fun r => (w'.item r).count) = fun r => (w.item r).count :=
    funext fun r => count_of_record (h.record r)
  unfold World.ledger
  rw [h.place hw hw', h.frame.next, hkind, hunits]
  rfl

end Put

namespace Changed

theorem housed (h : Changed w w' item) (hw : Housed w) : Housed w' :=
  hw.congr h.contents h.parent h.frame

theorem place (h : Changed w w' item) : w'.place = w.place := by
  funext r
  simp only [World.place, h.parent, h.contents]

theorem ledger (h : Changed w w' item) (hid : (w'.item item).id = (w.item item).id) :
    w'.ledger = w.ledger.recount item (w'.item item).count := by
  have hkind : (fun r => (w'.item r).id) = fun r => (w.item r).id := by
    funext r
    by_cases hr : r = item
    · rw [hr, hid]
    · exact id_of_record (h.record r hr)
  have hunits : (fun r => (w'.item r).count) =
      Function.update (fun r => (w.item r).count) item (w'.item item).count := by
    funext r
    by_cases hr : r = item
    · subst hr
      rw [Function.update_self]
    · rw [Function.update_of_ne hr]
      exact count_of_record (h.record r hr)
  unfold World.ledger
  rw [h.place, h.frame.next, hkind, hunits]
  rfl

end Changed

end Eloth
