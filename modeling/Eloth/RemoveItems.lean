import Mathlib.Algebra.Order.BigOperators.Group.Finset
import Eloth.AddItem
import Eloth.CylinderEffects
import Eloth.HeldItems

/-!
# Items that are taken from a player

`Player::removeItemOfType` collects items of a type until they make up the amount, and
`Game::internalRemoveItems` takes them away.
-/

namespace Eloth

namespace Game

/-- The loop of `internalRemoveItems` over a stackable type. -/
def removeStacks (env : Env) : List ItemRef → Nat → World → World
  | [], _, w => w
  | item :: itemList, amount, w =>
    if amount < (w.item item).getItemCount then
      (internalRemoveItem env w item (some amount) false 0).2
    else
      removeStacks env itemList (amount - (w.item item).getItemCount)
        (internalRemoveItem env w item none false 0).2

def removeWhole (env : Env) (w : World) (itemList : List ItemRef) : World :=
  itemList.foldl (fun w item => (internalRemoveItem env w item none false 0).2) w

def internalRemoveItems (env : Env) (w : World) (itemList : List ItemRef) (amount : Nat)
    (stackable : Bool) : World :=
  if stackable then removeStacks env itemList amount w else removeWhole env w itemList

end Game

namespace Player

variable (env : Env) (w : World) (p : PlayerId) (itemId : Nat) (subType : Int)

def countOf (r : ItemRef) : UInt32 := (w.item r).countByType env.items subType

/-- An item of the type that counts. -/
def isOfType (r : ItemRef) : Bool := (w.item r).id = itemId && countOf env w subType r != 0

/-- What the loop of `removeItemOfType` finds in a slot. An equipped item of the type is taken, or
passed over, without a look inside. -/
def foundIn (ignoreEquipped : Bool) (item : ItemRef) : List ItemRef :=
  if !ignoreEquipped && (w.item item).id = itemId then
    if countOf env w subType item = 0 then [] else [item]
  else if w.isContainer item then (w.holdingItems item).filter (isOfType env w itemId subType)
  else []

def found (ignoreEquipped : Bool) : List ItemRef :=
  (inventorySlots.filterMap (w.player p).inventory).flatMap
    (foundIn env w itemId subType ignoreEquipped)

/-- Collects items until their count reaches the amount. -/
def collect (amount : UInt32) : List ItemRef → List ItemRef → UInt32 → Option (List ItemRef)
  | [], _, _ => none
  | item :: rest, itemList, count =>
    if amount ≤ count + countOf env w subType item then some (itemList ++ [item])
    else collect amount rest (itemList ++ [item]) (count + countOf env w subType item)

/-- `Player::removeItemOfType`. -/
def removeItemOfType (amount : UInt32) (ignoreEquipped : Bool) : Bool × World :=
  if amount = 0 then (true, w)
  else
    match collect env w subType amount (found env w p itemId subType ignoreEquipped) [] 0 with
    | none => (false, w)
    | some itemList =>
      (true, Game.internalRemoveItems env w itemList amount.toNat
        (env.items.get itemId).stackable)

end Player

variable {env : Env} {w w' w'' : World} {p : PlayerId} {item r : ItemRef} {c : Cylinder}

/-! ## One item -/

theorem Item.canRemove_unweighted (it : Item) : it.unweighted.canRemove = it.canRemove := by
  unfold Item.unweighted Item.canRemove
  cases h : it.cls <;> simp [h]

theorem canRemove_of_skeleton (h : w'.skeleton = w.skeleton) (r : ItemRef) :
    (w'.item r).canRemove = (w.item r).canRemove := by
  rw [← Item.canRemove_unweighted, item_of_skeleton h, Item.canRemove_unweighted]

theorem canRemove_modifyContainer {self : ItemRef} {g : Container → Container}
    (hg : ∀ b, (g b).kind = b.kind) :
    ((w.modifyContainer self g).item r).canRemove = (w.item r).canRemove := by
  refine World.modifyItem_proj Item.canRemove fun it => ?_
  cases h : it.cls <;> simp [Item.canRemove, h, hg]

theorem canRemove_modifyItem {f : Item → Item} (hf : ∀ it, (f it).cls = it.cls) :
    ((w.modifyItem item f).item r).canRemove = (w.item r).canRemove := by
  refine World.modifyItem_proj Item.canRemove fun it => ?_
  unfold Item.canRemove
  rw [hf]

theorem canRemove_setParent {parent : Option Cylinder} :
    ((w.setParent item parent).item r).canRemove = (w.item r).canRemove :=
  canRemove_modifyItem fun _ => rfl

theorem canRemove_removeThing {count : Nat} (hc : ∀ pos, c ≠ .tile pos) :
    ((Cylinder.removeThing env w c item count).item r).canRemove = (w.item r).canRemove := by
  cases c with
  | tile pos => exact absurd rfl (hc pos)
  | player q =>
    unfold Cylinder.removeThing Player.removeThing
    dsimp only
    split_ifs
    · rfl
    · rw [canRemove_of_skeleton
          (skeleton_of_untraded (untraded_onUpdateInventoryItem _ q item item)),
        canRemove_modifyItem fun it => it.setItemCount_cls _]
    · change (((Player.onRemoveInventoryItem w q item).setParent item none).item r).canRemove = _
      rw [canRemove_setParent,
        canRemove_of_skeleton (skeleton_of_untraded (untraded_onRemoveInventoryItem w q item))]
  | container self =>
    unfold Cylinder.removeThing Container.removeThing
    dsimp only
    split_ifs
    · rfl
    · rw [canRemove_of_skeleton (Container.skeleton_addWeight_notify _ _ _ _
          fun w p => untraded_onUpdateContainerItem w p self item item),
        canRemove_modifyItem fun it => it.setItemCount_cls _]
    · refine Eq.trans (canRemove_modifyContainer ?_) ?_
      · exact fun _ => rfl
      rw [canRemove_setParent, canRemove_of_skeleton (Container.skeleton_addWeight_notify _ _ _ _
          fun w p => untraded_onRemoveContainerItem w p self item)]

/-- The worlds hold the same items, up to the weights. -/
structure Alike (w w' : World) : Prop where
  contents : ∀ c, w'.contents c = w.contents c
  parent : ∀ r, (w'.item r).parent = (w.item r).parent
  record : ∀ r, (w'.item r).record = (w.item r).record
  canRemove : ∀ r, (w'.item r).canRemove = (w.item r).canRemove
  frame : Frame w w'

namespace Alike

theorem of_skeleton (h : w'.skeleton = w.skeleton) : Alike w w' :=
  ⟨contents_of_skeleton h, parent_of_skeleton h, record_of_skeleton h, canRemove_of_skeleton h,
    frame_of_skeleton h⟩

theorem trans (h : Alike w w') (h' : Alike w' w'') : Alike w w'' :=
  ⟨fun c => (h'.contents c).trans (h.contents c), fun r => (h'.parent r).trans (h.parent r),
    fun r => (h'.record r).trans (h.record r), fun r => (h'.canRemove r).trans (h.canRemove r),
    h.frame.trans h'.frame⟩

theorem discarded (env : Env) (w : World) (item : ItemRef) : Alike w (if w.isRemoved item then
    (if w.canDecay env item then Game.removeFromFirstBucket w item else w).releaseItem item
    else w) := by
  have hfirst : Alike w (Game.removeFromFirstBucket w item) :=
    ⟨fun c => by cases c <;> rfl, fun _ => rfl, fun _ => rfl, fun _ => rfl,
      fun _ => rfl, fun _ => rfl, rfl⟩
  have hreleased : ∀ w : World, Alike w (w.releaseItem item) := fun w =>
    ⟨fun c => by cases c <;> rfl, fun _ => rfl, fun _ => rfl, fun _ => rfl,
      fun _ => rfl, fun _ => rfl, rfl⟩
  split_ifs
  · exact hfirst.trans (hreleased _)
  · exact hreleased w
  · exact ⟨fun _ => rfl, fun _ => rfl, fun _ => rfl, fun _ => rfl, fun _ => rfl, fun _ => rfl, rfl⟩

theorem refreshWeight : Alike w (Cylinder.refreshWeight env w c) := by
  have hweight : ∀ q, (Player.updateInventoryWeight env w q).skeleton = w.skeleton := by
    intro q
    unfold Player.updateInventoryWeight
    dsimp only
    split_ifs
    · rfl
    · refine congrArg (fun player => { w.skeleton with player := player }) (funext fun x => ?_)
      by_cases hx : x = q
      · subst hx
        simp [World.setPlayer]
      · simp [World.setPlayer, hx]
  unfold Cylinder.refreshWeight
  split
  · split
    · exact of_skeleton (hweight _)
    · exact of_skeleton rfl
  · exact of_skeleton (hweight _)
  · exact of_skeleton rfl

end Alike

namespace Game

/-- A removal that is allowed ends like that from the cylinder of the item. -/
theorem internalRemoveItem_alike {count : Option Nat} (hitem : item ∈ w.contents c)
    (hw : Housed w) (hc : ∀ pos, c ≠ .tile pos) (hremove : (w.item item).canRemove = true)
    (hcount : 0 < count.getD (w.item item).getItemCount)
    (hfits : count.getD (w.item item).getItemCount ≤ (w.item item).getItemCount) :
    Alike (Cylinder.removeThing env w c item (count.getD (w.item item).getItemCount))
      (internalRemoveItem env w item count false 0).2 := by
  have hquery : Cylinder.queryRemove env w c item (count.getD (w.item item).getItemCount)
      (0 ||| FLAG_IGNORENOTMOVEABLE) none = .noError := by
    have hflag : hasBitSet FLAG_IGNORENOTMOVEABLE (0 ||| FLAG_IGNORENOTMOVEABLE) = true := by decide
    cases c with
    | tile pos => exact absurd rfl (hc pos)
    | player q =>
      unfold Cylinder.queryRemove Player.queryRemove
      dsimp only
      rw [if_neg (Player.mem_iff_getThingIndex.mp hitem), if_neg (by omega), hflag]
      simp
    | container self =>
      unfold Cylinder.queryRemove Container.queryRemove
      dsimp only
      rw [if_neg (Container.mem_iff_getThingIndex.mp hitem), if_neg (by omega), hflag]
      simp
  unfold internalRemoveItem
  rw [hw.parent hitem]
  dsimp only
  rw [if_neg (not_not.mpr hquery), hremove]
  exact (Alike.discarded env _ item).trans Alike.refreshWeight

end Game

/-! ## Several items -/

/-- The items are in no place any more, and the others stay where they are. -/
structure Cleared (w w' : World) (gone : List ItemRef) : Prop where
  mem : ∀ c r, r ∈ w'.contents c ↔ r ∉ gone ∧ r ∈ w.contents c
  record : ∀ r, (w'.item r).record = (w.item r).record
  canRemove : ∀ r, (w'.item r).canRemove = (w.item r).canRemove
  housed : Housed w'

theorem Housed.alike (hw : Housed w) (h : Alike w w') : Housed w' :=
  hw.congr h.contents h.parent h.frame

theorem World.Held.stands (h : w.Held p r) : ∃ c, r ∈ w.contents c ∧ ∀ pos, c ≠ .tile pos := by
  cases h with
  | worn h => exact ⟨_, h, fun _ h => nomatch h⟩
  | inside _ h => exact ⟨_, h, fun _ h => nomatch h⟩

namespace Game

/-- An item is removed with all its units. -/
theorem internalRemoveItem_cleared (hw : Housed w)
    (hstands : ∃ c, item ∈ w.contents c ∧ ∀ pos, c ≠ .tile pos)
    (hremove : (w.item item).canRemove = true) (hcount : 0 < (w.item item).getItemCount) :
    Cleared w (internalRemoveItem env w item none false 0).2 [item] := by
  obtain ⟨c, hitem, hc⟩ := hstands
  have halike := @internalRemoveItem_alike env w item c none hitem hw hc hremove hcount le_rfl
  have htook : Took w (Cylinder.removeThing env w c item (w.item item).getItemCount) c item := by
    cases c with
    | tile pos => exact absurd rfl (hc pos)
    | player q => exact Player.removeThing_took hitem fun h => h.2 rfl
    | container self => exact Container.removeThing_took hitem fun h => h.2 rfl
  refine ⟨fun c' r => ?_, fun r => (halike.record r).trans (htook.record r),
    fun r => (halike.canRemove r).trans (canRemove_removeThing hc),
    (htook.housed hw).alike halike⟩
  rw [halike.contents, List.mem_singleton]
  exact htook.mem_iff hw

end Game

namespace Cleared

theorem refl (hw : Housed w) : Cleared w w [] :=
  ⟨fun c r => by simp, fun _ => rfl, fun _ => rfl, hw⟩

theorem trans {gone gone' : List ItemRef} (h : Cleared w w' gone) (h' : Cleared w' w'' gone') :
    Cleared w w'' (gone ++ gone') where
  mem c r := by
    rw [h'.mem, h.mem, List.mem_append, not_or]
    tauto
  record r := (h'.record r).trans (h.record r)
  canRemove r := (h'.canRemove r).trans (h.canRemove r)
  housed := h'.housed

variable {gone : List ItemRef}

theorem held_of_held (h : Cleared w w' gone) (hr : w'.Held p r) : w.Held p r := by
  induction hr with
  | worn h' => exact .worn ((h.mem _ _).mp h').2
  | inside _ h' ih => exact .inside ih ((h.mem _ _).mp h').2

theorem not_mem_of_held (h : Cleared w w' gone) (hr : w'.Held p r) : r ∉ gone := by
  obtain ⟨c, hc, -⟩ := hr.stands
  exact ((h.mem c r).mp hc).1

/-- If all that is in the items goes with them, the player keeps what is not removed. -/
theorem held_iff (h : Cleared w w' gone)
    (hclosed : ∀ c ∈ gone, ∀ r ∈ w.contents (.container c), r ∈ gone) :
    w'.Held p r ↔ w.Held p r ∧ r ∉ gone := by
  refine ⟨fun hr => ⟨h.held_of_held hr, h.not_mem_of_held hr⟩, ?_⟩
  rintro ⟨hr, hnot⟩
  induction hr with
  | worn h' => exact .worn ((h.mem _ _).mpr ⟨hnot, h'⟩)
  | @inside c r _ h' ih =>
    exact .inside (ih fun hc => hnot (hclosed c hc r h')) ((h.mem _ _).mpr ⟨hnot, h'⟩)

end Cleared

namespace Game

theorem removeWhole_cleared {itemList : List ItemRef} (hw : Housed w) (hnodup : itemList.Nodup)
    (hstands : ∀ r ∈ itemList, ∃ c, r ∈ w.contents c ∧ ∀ pos, c ≠ .tile pos)
    (hremove : ∀ r ∈ itemList, (w.item r).canRemove = true)
    (hcount : ∀ r ∈ itemList, 0 < (w.item r).getItemCount) :
    Cleared w (removeWhole env w itemList) itemList := by
  induction itemList generalizing w with
  | nil => exact .refl hw
  | cons item rest ih =>
    obtain ⟨hnot, hnodup⟩ := List.nodup_cons.mp hnodup
    have hfirst := @internalRemoveItem_cleared env w item hw (hstands item List.mem_cons_self)
      (hremove item List.mem_cons_self) (hcount item List.mem_cons_self)
    refine hfirst.trans (ih hfirst.housed hnodup (fun r hr => ?_) (fun r hr => ?_) fun r hr => ?_)
    · obtain ⟨c, hc, htile⟩ := hstands r (List.mem_cons_of_mem item hr)
      refine ⟨c, (hfirst.mem c r).mpr ⟨fun heq => ?_, hc⟩, htile⟩
      exact hnot (List.mem_singleton.mp heq ▸ hr)
    · rw [hfirst.canRemove]
      exact hremove r (List.mem_cons_of_mem item hr)
    · have hsame : ((internalRemoveItem env w item none false 0).2.item r).getItemCount =
          (w.item r).getItemCount := count_of_record (hfirst.record r)
      rw [hsame]
      exact hcount r (List.mem_cons_of_mem item hr)

end Game

/-! ## Units -/

/-- The units of an item, if it has the id. -/
def World.unitsOf (w : World) (itemId : Nat) (r : ItemRef) : Nat :=
  if (w.item r).id = itemId then (w.item r).getItemCount else 0

def World.heldUnits (w : World) (p : PlayerId) (itemId : Nat) : Nat :=
  ((w.heldItems p).map (w.unitsOf itemId)).sum

variable {itemId : Nat}

theorem heldUnits_eq (hw : Housed w) :
    w.heldUnits p itemId = ∑ r ∈ (w.heldItems p).toFinset, w.unitsOf itemId r :=
  (List.sum_toFinset _ (nodup_heldItems hw)).symm

theorem unitsOf_of_record (h : (w'.item r).record = (w.item r).record) :
    w'.unitsOf itemId r = w.unitsOf itemId r := by
  unfold World.unitsOf Item.getItemCount
  rw [id_of_record h, count_of_record h]

/-- The units of what is removed are gone. -/
theorem Cleared.heldUnits {gone : List ItemRef} (h : Cleared w w' gone) (hw : Housed w)
    (hnodup : gone.Nodup) (hheld : ∀ r ∈ gone, w.Held p r)
    (hclosed : ∀ c ∈ gone, ∀ r ∈ w.contents (.container c), r ∈ gone) :
    w'.heldUnits p itemId + (gone.map (w.unitsOf itemId)).sum = w.heldUnits p itemId := by
  have hsets : (w'.heldItems p).toFinset = (w.heldItems p).toFinset \ gone.toFinset := by
    ext r
    simp only [List.mem_toFinset, Finset.mem_sdiff, mem_heldItems h.housed, mem_heldItems hw]
    exact h.held_iff hclosed
  have hsub : gone.toFinset ⊆ (w.heldItems p).toFinset := by
    intro r hr
    rw [List.mem_toFinset] at hr ⊢
    exact (mem_heldItems hw).mpr (hheld r hr)
  rw [heldUnits_eq h.housed, heldUnits_eq hw, hsets, ← List.sum_toFinset _ hnodup,
    ← Finset.sum_sdiff hsub]
  exact congrArg (· + _) (Finset.sum_congr rfl fun r _ => unitsOf_of_record (h.record r))

/-- What is in a removed item is held no more. -/
theorem Cleared.not_held {gone : List ItemRef} {self : ItemRef} (h : Cleared w w' gone)
    (hw : Housed w) (hself : self ∈ gone) (hr : r ∈ w.contents (.container self)) :
    ¬ w'.Held p r := by
  intro hheld
  cases hheld with
  | worn h' => cases hw.one_place hr ((h.mem _ _).mp h').2
  | inside hc h' =>
    obtain rfl := Cylinder.container.inj (hw.one_place hr ((h.mem _ _).mp h').2)
    exact h.not_mem_of_held hc hself

/-- If another item goes with those that are removed, its units are gone too. -/
theorem Cleared.heldUnits_le {gone : List ItemRef} (h : Cleared w w' gone) (hw : Housed w)
    (hnodup : gone.Nodup) (hheld : ∀ r ∈ gone, w.Held p r) (hr : w.Held p r) (hnot : r ∉ gone)
    (hlost : ¬ w'.Held p r) :
    w'.heldUnits p itemId + ((gone.map (w.unitsOf itemId)).sum + w.unitsOf itemId r) ≤
      w.heldUnits p itemId := by
  have hnew : r ∉ gone.toFinset := by simpa using hnot
  have hsub : insert r gone.toFinset ⊆ (w.heldItems p).toFinset := by
    intro x hx
    rw [List.mem_toFinset]
    rcases Finset.mem_insert.mp hx with rfl | hx
    · exact (mem_heldItems hw).mpr hr
    · exact (mem_heldItems hw).mpr (hheld x (List.mem_toFinset.mp hx))
  have hkept : (w'.heldItems p).toFinset ⊆ (w.heldItems p).toFinset \ insert r gone.toFinset := by
    intro x hx
    rw [List.mem_toFinset, mem_heldItems h.housed] at hx
    rw [Finset.mem_sdiff, List.mem_toFinset, mem_heldItems hw, Finset.mem_insert, List.mem_toFinset]
    refine ⟨h.held_of_held hx, ?_⟩
    rintro (rfl | hgone)
    · exact hlost hx
    · exact h.not_mem_of_held hx hgone
  have hsum : ∑ x ∈ (w.heldItems p).toFinset \ insert r gone.toFinset, w.unitsOf itemId x +
      (w.unitsOf itemId r + (gone.map (w.unitsOf itemId)).sum) =
      ∑ x ∈ (w.heldItems p).toFinset, w.unitsOf itemId x := by
    rw [← List.sum_toFinset _ hnodup, ← Finset.sum_insert hnew]
    exact Finset.sum_sdiff hsub
  have hle : ∑ x ∈ (w'.heldItems p).toFinset, w'.unitsOf itemId x ≤
      ∑ x ∈ (w.heldItems p).toFinset \ insert r gone.toFinset, w.unitsOf itemId x := by
    rw [Finset.sum_congr rfl fun x _ => unitsOf_of_record (h.record x)]
    exact Finset.sum_le_sum_of_subset hkept
  rw [heldUnits_eq h.housed, heldUnits_eq hw]
  omega

theorem held_congr (h : ∀ c, w'.contents c = w.contents c) : w'.Held p r ↔ w.Held p r := by
  constructor <;> intro hr
  · induction hr with
    | worn h' => exact .worn (h _ ▸ h')
    | inside _ h' ih => exact .inside ih (h _ ▸ h')
  · induction hr with
    | worn h' => exact .worn ((h _).symm ▸ h')
    | inside _ h' ih => exact .inside ih ((h _).symm ▸ h')

/-- Some units of a stack go, and everything else stays. -/
structure Reduced (w w' : World) (item : ItemRef) (amount : Nat) : Prop where
  contents : ∀ c, w'.contents c = w.contents c
  record : ∀ r, r ≠ item → (w'.item r).record = (w.item r).record
  id : (w'.item item).id = (w.item item).id
  count : (w'.item item).getItemCount + amount = (w.item item).getItemCount
  housed : Housed w'

theorem Container.reducedCount_eq {itemCount count : Nat} (h : count ≤ itemCount)
    (hlt : itemCount < 256) : reducedCount itemCount count = itemCount - count := by
  have hmod : (itemCount + 2 ^ 32 - count % 2 ^ 32) % 2 ^ 32 = itemCount - count := by omega
  unfold reducedCount toInt32
  rw [hmod, if_pos (by omega)]
  omega

namespace Game

theorem internalRemoveItem_reduced {amount : Nat} (hw : Housed w)
    (hstands : ∃ c, item ∈ w.contents c ∧ ∀ pos, c ≠ .tile pos)
    (hremove : (w.item item).canRemove = true) (hstack : (w.item item).isStackable env.items = true)
    (hamount : 0 < amount) (hless : amount < (w.item item).getItemCount)
    (hbyte : (w.item item).getItemCount < 256) :
    Reduced w (internalRemoveItem env w item (some amount) false 0).2 item amount := by
  obtain ⟨c, hitem, hc⟩ := hstands
  have halike := @internalRemoveItem_alike env w item c (some amount) hitem hw hc hremove hamount
    hless.le
  have hpart : (w.item item).isStackable env.items = true ∧ amount ≠ (w.item item).getItemCount :=
    ⟨hstack, by omega⟩
  have hchanged : Changed w (Cylinder.removeThing env w c item amount) item ∧
      ((Cylinder.removeThing env w c item amount).item item).record =
        ((w.item item).setItemCount
          (Container.reducedCount (w.item item).getItemCount amount)).record := by
    cases c with
    | tile pos => exact absurd rfl (hc pos)
    | player q => exact Player.removeThing_part hitem hpart
    | container self => exact Container.removeThing_part hitem hpart
  obtain ⟨hchanged, hrecord⟩ := hchanged
  have hlast := (halike.record item).trans hrecord
  refine ⟨fun c => (halike.contents c).trans (hchanged.contents c),
    fun r hr => (halike.record r).trans (hchanged.record r hr),
    (id_of_record hlast).trans (Item.setItemCount_id _ _), ?_,
    (hchanged.housed hw).alike halike⟩
  have hcount := count_of_record hlast
  rw [Item.setItemCount_count, Container.reducedCount_eq hless.le hbyte] at hcount
  unfold Item.getItemCount at hless hbyte ⊢
  rw [hcount]
  unfold Item.getItemCount
  omega

end Game

/-- The units that are taken off a stack are gone. -/
theorem Reduced.heldUnits {amount : Nat} (h : Reduced w w' item amount) (hw : Housed w)
    (hheld : w.Held p item) (hid : (w.item item).id = itemId) :
    w'.heldUnits p itemId + amount = w.heldUnits p itemId := by
  have hsets : (w'.heldItems p).toFinset = (w.heldItems p).toFinset := by
    ext r
    simp only [List.mem_toFinset, mem_heldItems h.housed, mem_heldItems hw]
    exact held_congr h.contents
  have hmem : item ∈ (w.heldItems p).toFinset :=
    List.mem_toFinset.mpr ((mem_heldItems hw).mpr hheld)
  have hself : w'.unitsOf itemId item + amount = w.unitsOf itemId item := by
    unfold World.unitsOf
    rw [if_pos (h.id.trans hid), if_pos hid]
    exact h.count
  have hrest : ∑ r ∈ (w.heldItems p).toFinset.erase item, w'.unitsOf itemId r =
      ∑ r ∈ (w.heldItems p).toFinset.erase item, w.unitsOf itemId r :=
    Finset.sum_congr rfl fun r hr => unitsOf_of_record (h.record r (Finset.ne_of_mem_erase hr))
  rw [heldUnits_eq h.housed, heldUnits_eq hw, hsets, ← Finset.add_sum_erase _ _ hmem,
    ← Finset.add_sum_erase _ (w.unitsOf itemId) hmem, hrest]
  omega

/-- From the listed items the amount goes, and everything else stays where it is. -/
structure Pays (w w' : World) (p : PlayerId) (itemId amount : Nat) (itemList : List ItemRef) :
    Prop where
  units : w'.heldUnits p itemId + amount = w.heldUnits p itemId
  record : ∀ r, r ∉ itemList → (w'.item r).record = (w.item r).record
  stays : ∀ c r, r ∉ itemList → (r ∈ w'.contents c ↔ r ∈ w.contents c)
  held : ∀ r, r ∉ itemList → (w'.Held p r ↔ w.Held p r)

theorem Cleared.pays {gone : List ItemRef} (h : Cleared w w' gone) (hw : Housed w)
    (hnodup : gone.Nodup) (hheld : ∀ r ∈ gone, w.Held p r)
    (hclosed : ∀ c ∈ gone, ∀ r ∈ w.contents (.container c), r ∈ gone) :
    Pays w w' p itemId (gone.map (w.unitsOf itemId)).sum gone where
  units := h.heldUnits hw hnodup hheld hclosed
  record r _ := h.record r
  stays c r hr := by
    rw [h.mem]
    exact and_iff_right hr
  held r hr := by
    rw [h.held_iff hclosed]
    exact and_iff_left hr

theorem Reduced.pays {amount : Nat} {rest : List ItemRef} (h : Reduced w w' item amount)
    (hw : Housed w) (hheld : w.Held p item) (hid : (w.item item).id = itemId) :
    Pays w w' p itemId amount (item :: rest) where
  units := h.heldUnits hw hheld hid
  record r hr := h.record r fun heq => hr (heq ▸ List.mem_cons_self)
  stays c r _ := by rw [h.contents]
  held r _ := held_congr h.contents

theorem Pays.refl (w : World) (itemList : List ItemRef) : Pays w w p itemId 0 itemList :=
  ⟨rfl, fun _ _ => rfl, fun _ _ _ => Iff.rfl, fun _ _ => Iff.rfl⟩

theorem Pays.cons {amount n : Nat} {rest : List ItemRef} (h : Pays w w' p itemId n [item])
    (h' : Pays w' w'' p itemId amount rest) : Pays w w'' p itemId (amount + n) (item :: rest) where
  units := by
    have hfirst := h.units
    have hrest := h'.units
    omega
  record r hr := by
    rw [List.mem_cons, not_or] at hr
    exact (h'.record r hr.2).trans (h.record r (by simpa using hr.1))
  stays c r hr := by
    rw [List.mem_cons, not_or] at hr
    exact (h'.stays c r hr.2).trans (h.stays c r (by simpa using hr.1))
  held r hr := by
    rw [List.mem_cons, not_or] at hr
    exact (h'.held r hr.2).trans (h.held r (by simpa using hr.1))

namespace Game

/-- What `internalRemoveItems` is given: items of one id that the player holds and that can be
removed. -/
structure Taking (w : World) (p : PlayerId) (itemId : Nat) (itemList : List ItemRef) : Prop where
  nodup : itemList.Nodup
  held : ∀ r ∈ itemList, w.Held p r
  id : ∀ r ∈ itemList, (w.item r).id = itemId
  canRemove : ∀ r ∈ itemList, (w.item r).canRemove = true
  count : ∀ r ∈ itemList, 0 < (w.item r).getItemCount

theorem internalRemoveItem_zero (hw : Housed w)
    (hstands : ∃ c, item ∈ w.contents c ∧ ∀ pos, c ≠ .tile pos) :
    (internalRemoveItem env w item (some 0) false 0).2 = w := by
  obtain ⟨c, hitem, hc⟩ := hstands
  have hquery : Cylinder.queryRemove env w c item 0 (0 ||| FLAG_IGNORENOTMOVEABLE) none ≠
      .noError := by
    cases c with
    | tile pos => exact absurd rfl (hc pos)
    | player q =>
      unfold Cylinder.queryRemove Player.queryRemove
      dsimp only
      split_ifs <;> simp_all
    | container self =>
      unfold Cylinder.queryRemove Container.queryRemove
      dsimp only
      split_ifs <;> simp_all
  unfold internalRemoveItem
  rw [hw.parent hitem]
  dsimp only
  rw [Option.getD_some, if_pos hquery]

theorem Taking.tail {rest : List ItemRef} (h : Taking w p itemId (item :: rest))
    (hcleared : Cleared w w' [item]) (hempty : w.contents (.container item) = []) :
    Taking w' p itemId rest := by
  obtain ⟨hnot, hnodup⟩ := List.nodup_cons.mp h.nodup
  refine ⟨hnodup, fun r hr => ?_, fun r hr => ?_, fun r hr => ?_, fun r hr => ?_⟩
  · refine (hcleared.held_iff fun c hc x hx => ?_).mpr
      ⟨h.held r (List.mem_cons_of_mem item hr), fun heq => hnot (List.mem_singleton.mp heq ▸ hr)⟩
    rw [List.mem_singleton.mp hc, hempty] at hx
    cases hx
  · rw [id_of_record (hcleared.record r)]
    exact h.id r (List.mem_cons_of_mem item hr)
  · rw [hcleared.canRemove]
    exact h.canRemove r (List.mem_cons_of_mem item hr)
  · have hsame : (w'.item r).getItemCount = (w.item r).getItemCount :=
      count_of_record (hcleared.record r)
    rw [hsame]
    exact h.count r (List.mem_cons_of_mem item hr)

theorem removeWhole_pays {itemList : List ItemRef} (hw : Housed w)
    (h : Taking w p itemId itemList)
    (hclosed : ∀ c ∈ itemList, ∀ r ∈ w.contents (.container c), r ∈ itemList) :
    Pays w (removeWhole env w itemList) p itemId (itemList.map (w.unitsOf itemId)).sum itemList :=
  (removeWhole_cleared hw h.nodup (fun r hr => (h.held r hr).stands) h.canRemove h.count).pays hw
    h.nodup h.held hclosed

/-- From stacks exactly the amount goes, if there are so many units. -/
theorem removeStacks_pays {itemList : List ItemRef} {amount : Nat} (hw : Housed w)
    (h : Taking w p itemId itemList) (hstack : (env.items.get itemId).stackable = true)
    (hempty : ∀ c ∈ itemList, w.contents (.container c) = [])
    (hbyte : ∀ r, (w.item r).getItemCount < 256)
    (henough : amount ≤ (itemList.map (w.unitsOf itemId)).sum) :
    Pays w (removeStacks env itemList amount w) p itemId amount itemList := by
  induction itemList generalizing w amount with
  | nil =>
    obtain rfl : amount = 0 := by simpa using henough
    exact .refl w []
  | cons item rest ih =>
    have hheld := h.held item List.mem_cons_self
    have hid := h.id item List.mem_cons_self
    have hremove := h.canRemove item List.mem_cons_self
    have hunits : w.unitsOf itemId item = (w.item item).getItemCount := if_pos hid
    unfold removeStacks
    split_ifs with hless
    · rcases Nat.eq_zero_or_pos amount with rfl | hpos
      · rw [internalRemoveItem_zero hw hheld.stands]
        exact .refl w _
      · refine (internalRemoveItem_reduced hw hheld.stands hremove ?_ hpos hless
          (hbyte item)).pays hw hheld hid
        unfold Item.isStackable
        rw [hid]
        exact hstack
    · have hcleared := @internalRemoveItem_cleared env w item hw hheld.stands hremove
        (h.count item List.mem_cons_self)
      have hnone := hempty item List.mem_cons_self
      have hfirst : Pays w (internalRemoveItem env w item none false 0).2 p itemId
          (w.item item).getItemCount [item] := by
        have hpays : Pays w _ p itemId _ [item] := hcleared.pays hw (List.nodup_singleton item)
          (fun r hr => List.mem_singleton.mp hr ▸ hheld) fun c hc r hr => by
            rw [List.mem_singleton.mp hc, hnone] at hr
            cases hr
        rwa [List.map_singleton, List.sum_singleton, hunits] at hpays
      have hsame : ∀ r, ((internalRemoveItem env w item none false 0).2.item r).getItemCount =
          (w.item r).getItemCount := fun r => count_of_record (hcleared.record r)
      have hrest : Pays _ (removeStacks env rest (amount - (w.item item).getItemCount) _) p itemId
          (amount - (w.item item).getItemCount) rest :=
        ih hcleared.housed (h.tail hcleared hnone) (fun c hc => ?_) (fun r => ?_) ?_
      · have hboth := hfirst.cons hrest
        rwa [Nat.sub_add_cancel (not_lt.mp hless)] at hboth
      · refine List.eq_nil_iff_forall_not_mem.mpr fun r hr => ?_
        rw [hcleared.mem, hempty c (List.mem_cons_of_mem item hc)] at hr
        exact absurd hr.2 List.not_mem_nil
      · rw [hsame]
        exact hbyte r
      · rw [List.map_cons, List.sum_cons, hunits] at henough
        have hmap : rest.map ((internalRemoveItem env w item none false 0).2.unitsOf itemId) =
            rest.map (w.unitsOf itemId) :=
          List.map_congr_left fun r _ => unitsOf_of_record (hcleared.record r)
        rw [hmap]
        omega

end Game

end Eloth
