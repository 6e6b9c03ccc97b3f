import Eloth.TileFlags
import Eloth.Lib.ListSet
import Eloth.Lib.Run
import Eloth.Sample

/-!
# Runs of tile operations

Which item each operation takes off a tile and which one it puts there. From this the flags of the
tile after any sequence of operations are computed.
-/

namespace Eloth.Tile

/-! ## Operations -/

inductive Op where
  | internalAddThing (item : ItemRef)
  | addThing (item : ItemRef)
  | updateThing (item : ItemRef) (itemId count : Nat)
  | replaceThing (index : Nat) (item : ItemRef)
  | removeThing (item : ItemRef) (count : Nat)
  | setCreatures (creatures : List TileCreature)

def Op.apply (env : Env) (w : World) (pos : Position) : Op → World
  | .internalAddThing item => Tile.internalAddThing env w pos item
  | .addThing item => Tile.addThing env w pos item
  | .updateThing item itemId count => Tile.updateThing env w pos item itemId count
  | .replaceThing index item => Tile.replaceThing env w pos index item
  | .removeThing item count => Tile.removeThing env w pos item count
  | .setCreatures creatures => Tile.setCreatures w pos creatures

def Op.Valid (w : World) (pos : Position) : Op → Prop
  | .internalAddThing item => item ∉ (w.tile pos).allItems
  | .addThing item => item ∉ (w.tile pos).allItems
  | .replaceThing _ item => item ∉ (w.tile pos).allItems
  | _ => True

/-- `removeThing` takes the item off the tile instead of reducing its count. -/
def taken (env : Env) (w : World) (t : Tile) (item : ItemRef) (count : Nat) : Bool :=
  let it := w.item item
  decide (t.ground = some item) ||
    if it.isAlwaysOnTop env.items then decide (item ∈ t.topItems)
    else decide (item ∈ t.downItems) && !(it.isStackable env.items && count != it.getItemCount)

/-- The item that an added one displaces, if there is one to displace. -/
def displaced (env : Env) (w : World) (t : Tile) (item : ItemRef) : Option ItemRef :=
  let it := env.items.get (w.item item).id
  if it.isGroundTile then t.ground
  else if it.alwaysOnTop then
    if it.isSplash then t.topItems.find? fun r => (env.items.get (w.item r).id).isSplash else none
  else if it.isMagicField then t.downItems.find? fun r => (w.item r).isMagicFieldObject
  else none

def refused (env : Env) (w : World) (t : Tile) (item : ItemRef) : Bool :=
  let it := env.items.get (w.item item).id
  decide (0xFFFF ≤ t.itemVector.length) ||
    (!it.isGroundTile && !it.alwaysOnTop &&
      (displaced env w t item).any fun r => !(env.items.get (w.item r).id).replaceable)

/-- The item that an operation takes off the tile, or changes in place. -/
def Op.leaving (env : Env) (w : World) (t : Tile) : Op → Option ItemRef
  | .addThing item =>
    if refused env w t item then none
    else if (env.items.get (w.item item).id).isGroundTile then t.ground
    else (displaced env w t item).filter fun r => taken env w t r 1
  | .updateThing item _ _ => if getThingIndex env w t item ≠ -1 then some item else none
  | .replaceThing index item => (replaceAt t index item).map Prod.fst
  | .removeThing item count => if taken env w t item count then some item else none
  | _ => none

def Op.entering (env : Env) (w : World) (t : Tile) : Op → Option ItemRef
  | .internalAddThing item =>
    if (env.items.get (w.item item).id).isGroundTile then
      if t.ground.isNone then some item else none
    else if 0xFFFF ≤ t.itemVector.length then none
    else some item
  | .addThing item => if refused env w t item then none else some item
  | .updateThing item _ _ => if getThingIndex env w t item ≠ -1 then some item else none
  | .replaceThing index item => (replaceAt t index item).map fun _ => item
  | _ => none

def Op.onGround (env : Env) (w : World) (t : Tile) : Op → Bool
  | .internalAddThing item => (env.items.get (w.item item).id).isGroundTile
  | .addThing item => (env.items.get (w.item item).id).isGroundTile
  | .updateThing item _ _ => t.ground = some item
  | .replaceThing index _ => t.ground.isSome && index = 0
  | _ => false

/-! ## The effect of each operation -/

section Operations

variable (env : Env) {w : World} {pos : Position} {item : ItemRef}

variable {env} in
theorem getThingIndex_eq {t : Tile} (h : getThingIndex env w t item = -1) :
    t.ground ≠ some item ∧
      if (w.item item).isAlwaysOnTop env.items then item ∉ t.topItems else item ∉ t.downItems := by
  have hbase : (0 : Int) ≤ (if t.ground.isSome then 0 else -1) + 1 := by split_ifs <;> omega
  unfold getThingIndex at h
  dsimp only at h
  generalize (if t.ground.isSome then (0 : Int) else -1) = base at h hbase
  by_cases hground : t.ground = some item
  · rw [if_pos hground] at h
    omega
  rw [if_neg hground] at h
  refine ⟨hground, ?_⟩
  split_ifs at h ⊢
  · cases hi : t.topItems.idxOf? item with
    | none => exact List.idxOf?_eq_none_iff.mp hi
    | some i =>
      simp only [hi] at h
      omega
  · cases hi : t.downItems.idxOf? item with
    | none => exact List.idxOf?_eq_none_iff.mp hi
    | some i =>
      simp only [hi] at h
      omega

variable {env} in
theorem not_taken_of_getThingIndex {t : Tile} (h : getThingIndex env w t item = -1) (count : Nat) :
    taken env w t item count = false := by
  obtain ⟨hground, hlist⟩ := getThingIndex_eq h
  unfold taken
  by_cases htop : (w.item item).isAlwaysOnTop env.items
  · rw [if_pos htop] at hlist
    simp [hground, htop, hlist]
  · rw [if_neg htop] at hlist
    simp [hground, htop, hlist]

variable {env} in
theorem mem_of_getThingIndex {t : Tile} (h : getThingIndex env w t item ≠ -1) :
    item ∈ t.allItems := by
  by_contra hnot
  rw [mem_allItems, itemVector, List.mem_append, not_or, not_or] at hnot
  apply h
  unfold getThingIndex
  simp only [if_neg hnot.1, List.idxOf?_eq_none_iff.mpr hnot.2.1,
    List.idxOf?_eq_none_iff.mpr hnot.2.2, ite_self]

theorem erase_vector_perm {t : Tile} {tops : List ItemRef} (h : item ∈ t.topItems)
    (htops : tops = t.topItems.erase item) :
    t.itemVector.Perm (item :: (t.downItems ++ tops)) := by
  subst htops
  exact ((List.perm_cons_erase h).append_left _).trans List.perm_middle

theorem removeThing_effect (item : ItemRef) (hnodup : (w.tile pos).allItems.Nodup)
    (count : Nat) :
    ∃ rest, Effect env w (removeThing env w pos item count) pos
      (if taken env w (w.tile pos) item count then some item else none) none false rest := by
  have hquiet : Alike w (w.setParent item none) := .setParent w item none
  unfold removeThing
  dsimp only
  by_cases hindex : getThingIndex env w (w.tile pos) item = -1
  · rw [if_pos hindex, not_taken_of_getThingIndex hindex]
    exact ⟨_, .of_alike (.refl w) false⟩
  rw [if_neg hindex]
  by_cases hground : (w.tile pos).ground = some item
  · rw [if_pos hground, if_pos (by simp [taken, hground])]
    refine ⟨_, .alike_trans hquiet (.leave rfl ?_ hnodup ?_ fun r => ?_)⟩
    · have : (w.tile pos).allItems = item :: (w.tile pos).itemVector := by
        rw [allItems, hground]
        rfl
      exact .of_eq this
    · change none = (w.tile pos).ground.filter _
      simp [hground, Option.filter_some]
    · exact ⟨fun h => ⟨h, fun he => not_mem_itemVector hnodup hground (he ▸ h)⟩, And.left⟩
  rw [if_neg hground]
  by_cases htop : (w.item item).isAlwaysOnTop env.items
  · by_cases hmem : item ∈ (w.tile pos).topItems
    · rw [if_pos htop, if_pos hmem, if_pos (by simp [taken, htop, hmem])]
      exact ⟨_, .alike_trans hquiet (.leave_vector rfl hnodup rfl (erase_vector_perm hmem rfl))⟩
    · rw [if_pos htop, if_neg hmem, if_neg (by simp [taken, htop, hmem, hground])]
      exact ⟨_, .of_alike (.refl w) false⟩
  rw [if_neg htop]
  by_cases hmem : item ∈ (w.tile pos).downItems
  · rw [if_pos hmem]
    by_cases hpart : (w.item item).isStackable env.items ∧ count ≠ (w.item item).getItemCount
    · rw [if_pos hpart, if_neg (by simp [taken, htop, hground, hpart])]
      have hupdate := untraded_notify (w.modifyItem item fun it =>
        it.setItemCount (Container.reducedCount it.getItemCount count)) (env.tileSpectators
          (w.modifyItem item fun it =>
            it.setItemCount (Container.reducedCount it.getItemCount count)) pos)
        fun w p => untraded_onUpdateTileItem w p item item
      exact ⟨_, .of_alike ((Alike.setItemCount w item fun it =>
        Container.reducedCount it.getItemCount count).trans (.of_untraded hupdate)) false⟩
    · rw [if_neg hpart, if_pos (by
        rw [not_and_or] at hpart
        simpa [taken, htop, hground, hmem] using hpart)]
      exact ⟨_, .alike_trans hquiet
        (.leave_vector rfl hnodup rfl ((List.perm_cons_erase hmem).append_right _))⟩
  · rw [if_neg hmem, if_neg (by simp [taken, htop, hmem, hground])]
    exact ⟨_, .of_alike (.refl w) false⟩

theorem discard_effect (hnodup : (w.tile pos).allItems.Nodup) (r : ItemRef) :
    ∃ rest, Effect env w (discard env w pos r) pos
      (if taken env w (w.tile pos) r 1 then some r else none) none false rest := by
  obtain ⟨rest, h⟩ := removeThing_effect env r hnodup 1
  exact ⟨rest, h.trans_alike (.trans (.setParent _ r none) (.releaseItem _ r))⟩

theorem discard_enter (add : World → World) (hnodup : (w.tile pos).allItems.Nodup)
    (hfresh : item ∉ (w.tile pos).allItems) (r : ItemRef)
    (hadd : ∀ w, item ∉ (w.tile pos).allItems →
      Effect env w (add w) pos none (some item) false (w.tile pos).allItems) :
    ∃ rest, Effect env w (add (discard env w pos r)) pos
      (if taken env w (w.tile pos) r 1 then some r else none) (some item) false rest := by
  obtain ⟨rest, h⟩ := discard_effect env hnodup r
  have hsub : item ∉ ((discard env w pos r).tile pos).allItems := fun hmem =>
    hfresh (h.before.mem_iff.mpr (List.mem_append_right _ (by simpa using h.after.mem_iff.mp hmem)))
  exact ⟨rest, h.leave_enter (hadd _ hsub)⟩

theorem addDownItem_effect (hfresh : item ∉ (w.tile pos).allItems) :
    Effect env w (addDownItem env w pos item) pos none (some item) false (w.tile pos).allItems :=
  .enter_vector rfl hfresh rfl (.refl _)

theorem insertTop_perm (comesLater : ItemRef → Bool) (tops : List ItemRef) :
    (insertTop comesLater item tops).Perm (item :: tops) := by
  induction tops with
  | nil => exact .refl _
  | cons r tops ih =>
    rw [insertTop]
    split_ifs
    · exact .refl _
    · exact (ih.cons r).trans (.swap item r tops)

theorem enterTop_effect (hfresh : item ∉ (w.tile pos).allItems) (comesLater : ItemRef → Bool) :
    Effect env w (onAddTileItem env (w.setTile pos
      { w.tile pos with topItems := insertTop comesLater item (w.tile pos).topItems }) pos item)
      pos none (some item) false (w.tile pos).allItems :=
  .enter_vector rfl hfresh rfl
    (((insertTop_perm comesLater _).append_left _).trans List.perm_middle)

theorem addTopItem_effect (hnodup : (w.tile pos).allItems.Nodup)
    (hfresh : item ∉ (w.tile pos).allItems) :
    ∃ rest, Effect env w (addTopItem env w pos item) pos
      ((if (env.items.get (w.item item).id).isSplash then
        (w.tile pos).topItems.find? fun r => (env.items.get (w.item r).id).isSplash
        else none).filter fun r => taken env w (w.tile pos) r 1) (some item) false rest := by
  unfold addTopItem
  dsimp only
  generalize hold : (if (env.items.get (w.item item).id).isSplash then
    (w.tile pos).topItems.find? fun r => (env.items.get (w.item r).id).isSplash else none) = old
  cases old with
  | none => exact ⟨_, enterTop_effect env hfresh _⟩
  | some r =>
    rw [Option.filter_some]
    exact discard_enter env _ hnodup hfresh r fun w' h => enterTop_effect env h _

theorem enterGround_effect (hfresh : item ∉ (w.tile pos).allItems) (hground : (w.tile pos).ground = none) :
    Effect env w (onAddTileItem env (w.setTile pos { w.tile pos with ground := some item }) pos
      item) pos none (some item) true (w.tile pos).allItems := by
  refine .enter rfl hfresh ?_ rfl fun r => by simp [itemVector]
  simp [allItems, hground, itemVector]

theorem ground_perm {t : Tile} {g : ItemRef} (hg : t.ground = some g) :
    t.allItems = g :: t.itemVector := by
  rw [allItems, hg]
  rfl

theorem swapGround_effect (hnodup : (w.tile pos).allItems.Nodup)
    (hfresh : item ∉ (w.tile pos).allItems) {g : ItemRef} (hg : (w.tile pos).ground = some g) :
    Effect env w (modify (w.setTile pos { w.tile pos with ground := some item }) pos fun t =>
      setTileFlags env (w.setTile pos { w.tile pos with ground := some item })
        (resetTileFlags env (w.setTile pos { w.tile pos with ground := some item }) t g) item)
      pos (some g) (some item) true (w.tile pos).itemVector := by
  refine .swap rfl (.of_eq (ground_perm hg)) (.of_eq (ground_perm rfl)) hnodup hfresh rfl
    fun r => ?_
  constructor
  · exact fun h => .inr ⟨h, fun he => not_mem_itemVector hnodup hg (he ▸ h)⟩
  · rintro (⟨-, h⟩ | ⟨h, -⟩)
    · cases h
    · exact h

theorem addGround_effect (hnodup : (w.tile pos).allItems.Nodup)
    (hfresh : item ∉ (w.tile pos).allItems) :
    ∃ rest, Effect env w (addGround env w pos item) pos (w.tile pos).ground (some item) true
      rest := by
  unfold addGround
  dsimp only
  cases hg : (w.tile pos).ground with
  | none => exact ⟨_, enterGround_effect env hfresh hg⟩
  | some g =>
    have hquiet : Alike w ((w.setParent g none).releaseItem g) :=
      .trans (.setParent w g none) (.releaseItem _ g)
    have hswap := swapGround_effect env (w := (w.setParent g none).releaseItem g)
      hnodup hfresh hg
    exact ⟨_, .alike_trans hquiet (hswap.trans_alike (.of_untraded
      (untraded_notify _ _ fun w p => untraded_onUpdateTileItem w p g item)))⟩

theorem taken_setParent (r x : ItemRef) (p : Option Cylinder) (t : Tile) (count : Nat) :
    taken env (w.setParent r p) t x count = taken env w t x count := by
  simp [taken, Item.isAlwaysOnTop, Item.isStackable, Item.getItemCount]

theorem addThing_effect (hnodup : (w.tile pos).allItems.Nodup)
    (hfresh : item ∉ (w.tile pos).allItems) :
    ∃ rest, Effect env w (addThing env w pos item) pos
      (Op.leaving env w (w.tile pos) (.addThing item))
      (Op.entering env w (w.tile pos) (.addThing item))
      (Op.onGround env w (w.tile pos) (.addThing item)) rest := by
  have hquiet : Alike w (w.setParent item (some (.tile pos))) := .setParent w item _
  unfold addThing
  dsimp only [Op.leaving, Op.entering, Op.onGround]
  by_cases hfull : 0xFFFF ≤ (w.tile pos).itemVector.length
  · have hrefused : refused env w (w.tile pos) item = true := by simp [refused, hfull]
    rw [if_pos hfull, if_pos hrefused, if_pos hrefused]
    exact ⟨_, .of_alike (.refl w) _⟩
  rw [if_neg hfull]
  by_cases hground : (env.items.get (w.item item).id).isGroundTile
  · have hrefused : ¬ refused env w (w.tile pos) item = true := by simp [refused, hfull, hground]
    rw [if_pos hground, if_neg hrefused, if_neg hrefused, if_pos hground, hground]
    obtain ⟨rest, h⟩ := addGround_effect env
      (w := w.setParent item (some (.tile pos))) hnodup hfresh
    exact ⟨rest, .alike_trans hquiet h⟩
  rw [if_neg hground, if_neg hground]
  simp only [Bool.not_eq_true] at hground
  rw [hground]
  by_cases htop : (env.items.get (w.item item).id).alwaysOnTop
  · have hrefused : ¬ refused env w (w.tile pos) item = true := by simp [refused, hfull, htop]
    rw [if_pos htop, if_neg hrefused, if_neg hrefused]
    obtain ⟨rest, h⟩ := addTopItem_effect env
      (w := w.setParent item (some (.tile pos))) hnodup hfresh
    simp only [taken_setParent, World.setParent_id] at h
    have hdisplaced : displaced env w (w.tile pos) item =
        if (env.items.get (w.item item).id).isSplash then
          (w.tile pos).topItems.find? fun r => (env.items.get (w.item r).id).isSplash
        else none := by
      rw [displaced, if_neg (by simp [hground]), if_pos htop]
    rw [hdisplaced]
    exact ⟨rest, .alike_trans hquiet h⟩
  rw [if_neg htop]
  have hdisplaced : displaced env w (w.tile pos) item =
      if (env.items.get (w.item item).id).isMagicField then
        ((w.setParent item (some (.tile pos))).tile pos).downItems.find? fun r =>
          ((w.setParent item (some (.tile pos))).item r).isMagicFieldObject
      else none := by
    rw [displaced, if_neg (by simp [hground]), if_neg htop]
    simp only [Item.isMagicFieldObject, World.setParent_cls]
    rfl
  rw [← hdisplaced]
  cases hold : displaced env w (w.tile pos) item with
  | none =>
    have hrefused : ¬ refused env w (w.tile pos) item = true := by
      simp [refused, hfull, hold]
    rw [if_neg hrefused, if_neg hrefused]
    exact ⟨_, .alike_trans hquiet (addDownItem_effect env hfresh)⟩
  | some r =>
    have hrefused : refused env w (w.tile pos) item =
        !(env.items.get (w.item r).id).replaceable := by
      simp [refused, hfull, hold, hground, htop]
    dsimp only
    rw [World.setParent_id, hrefused]
    by_cases hreplace : (env.items.get (w.item r).id).replaceable
    · rw [if_pos hreplace, if_neg (by simp [hreplace]), if_neg (by simp [hreplace]),
        Option.filter_some]
      obtain ⟨rest, h⟩ := discard_enter env (fun w => addDownItem env w pos item)
        (w := w.setParent item (some (.tile pos))) hnodup hfresh r
        fun w' h => addDownItem_effect env h
      rw [taken_setParent] at h
      exact ⟨rest, .alike_trans hquiet h⟩
    · rw [if_neg hreplace, if_pos (by simp [hreplace]), if_pos (by simp [hreplace])]
      exact ⟨_, .of_alike (hquiet.trans (.trans (.setParent _ item none) (.releaseItem _ item))) _⟩

theorem internalAddThing_effect (hfresh : item ∉ (w.tile pos).allItems) :
    ∃ rest, Effect env w (internalAddThing env w pos item) pos none
      (Op.entering env w (w.tile pos) (.internalAddThing item))
      (Op.onGround env w (w.tile pos) (.internalAddThing item)) rest := by
  have hquiet : Alike w (w.setParent item (some (.tile pos))) := .setParent w item _
  unfold internalAddThing
  dsimp only [Op.entering, Op.onGround]
  rw [World.setParent_id]
  by_cases hground : (env.items.get (w.item item).id).isGroundTile
  · rw [if_pos hground, if_pos hground, hground, World.setParent_tile]
    by_cases hg : (w.tile pos).ground.isNone
    · rw [if_pos hg, if_pos hg]
      exact ⟨_, .alike_trans hquiet (enterGround_effect env
        (w := w.setParent item (some (.tile pos))) hfresh (Option.isNone_iff_eq_none.mp hg))⟩
    · rw [if_neg hg, if_neg hg]
      exact ⟨_, .of_alike hquiet _⟩
  rw [if_neg hground, if_neg hground]
  simp only [Bool.not_eq_true] at hground
  rw [hground, World.setParent_tile]
  by_cases hfull : 0xFFFF ≤ (w.tile pos).itemVector.length
  · rw [if_pos hfull, if_pos hfull]
    exact ⟨_, .of_alike hquiet _⟩
  · rw [if_neg hfull, if_neg hfull]
    split_ifs
    · exact ⟨_, .alike_trans hquiet (enterTop_effect env
        (w := w.setParent item (some (.tile pos))) hfresh _)⟩
    · exact ⟨_, .alike_trans hquiet (addDownItem_effect env
        (w := w.setParent item (some (.tile pos))) hfresh)⟩

theorem updateThing_effect (hnodup : (w.tile pos).allItems.Nodup) (itemId count : Nat) :
    ∃ rest, Effect env w (updateThing env w pos item itemId count) pos
      (Op.leaving env w (w.tile pos) (.updateThing item itemId count))
      (Op.entering env w (w.tile pos) (.updateThing item itemId count))
      (Op.onGround env w (w.tile pos) (.updateThing item itemId count)) rest := by
  unfold updateThing
  dsimp only [Op.leaving, Op.entering, Op.onGround]
  by_cases hindex : getThingIndex env w (w.tile pos) item = -1
  · rw [if_pos hindex, if_neg (not_not.mpr hindex)]
    exact ⟨_, .of_alike (.refl w) _⟩
  · rw [if_neg hindex, if_pos hindex]
    have h := Effect.update env (f := fun it =>
      (it.setID env.items itemId).setSubType env.items count)
      (mem_of_getThingIndex hindex) hnodup fun it => (it.setSubType_setID env.items itemId count).1
    exact ⟨_, h.trans_alike (.of_untraded
      (untraded_notify _ _ fun w p => untraded_onUpdateTileItem w p item item))⟩

/-! ### Replacing -/

theorem replaceItem_spec {t t' : Tile} {oldItem : ItemRef} {i j : Int}
    (h : replaceAt.replaceItem t item i j = some (oldItem, t')) :
    t'.flags = t.flags ∧ t'.ground = t.ground ∧
      ∃ rest, t.itemVector.Perm (oldItem :: rest) ∧ t'.itemVector.Perm (item :: rest) := by
  unfold replaceAt.replaceItem at h
  split_ifs at h with htop
  · obtain ⟨x, hx, heq⟩ := Option.map_eq_some_iff.mp h
    cases heq
    obtain ⟨front, back, hlist, hset⟩ := ListSet.set_split hx item
    refine ⟨rfl, rfl, t.downItems ++ (front ++ back), ?_, ?_⟩
    · rw [itemVector, hlist]
      exact (List.perm_middle.append_left _).trans List.perm_middle
    · rw [itemVector, hset]
      exact (List.perm_middle.append_left _).trans List.perm_middle
  · obtain ⟨x, hx, heq⟩ := Option.map_eq_some_iff.mp h
    cases heq
    obtain ⟨front, back, hlist, hset⟩ := ListSet.set_split hx item
    refine ⟨rfl, rfl, (front ++ back) ++ t.topItems, ?_, ?_⟩
    · rw [itemVector, hlist]
      exact List.perm_middle.append_right _
    · rw [itemVector, hset]
      exact List.perm_middle.append_right _

theorem replaceAt_spec {t t' : Tile} {oldItem : ItemRef} {index : Nat}
    (h : replaceAt t index item = some (oldItem, t')) :
    (t.ground = some oldItem ∧ index = 0 ∧ t' = { t with ground := some item }) ∨
      ((t.ground.isSome && decide (index = 0)) = false ∧ t'.flags = t.flags ∧
        t'.ground = t.ground ∧
        ∃ rest, t.itemVector.Perm (oldItem :: rest) ∧ t'.itemVector.Perm (item :: rest)) := by
  unfold replaceAt at h
  dsimp only at h
  cases hg : t.ground with
  | none =>
    simp only [hg] at h
    exact .inr ⟨rfl, hg ▸ replaceItem_spec h⟩
  | some g =>
    simp only [hg] at h
    by_cases hindex : index = 0
    · rw [if_pos hindex] at h
      cases h
      exact .inl ⟨rfl, hindex, rfl⟩
    · rw [if_neg hindex] at h
      exact .inr ⟨by simp [hindex], hg ▸ replaceItem_spec h⟩

theorem Effect.swap_vector {t' : Tile} {oldItem : ItemRef} {rest : List ItemRef}
    (hflags : t'.flags = (w.tile pos).flags) (hground : t'.ground = (w.tile pos).ground)
    (hold : (w.tile pos).itemVector.Perm (oldItem :: rest))
    (hnew : t'.itemVector.Perm (item :: rest)) (hnodup : (w.tile pos).allItems.Nodup)
    (hfresh : item ∉ (w.tile pos).allItems) :
    Effect env w (modify (w.setTile pos t') pos fun t =>
      setTileFlags env (w.setTile pos t') (resetTileFlags env (w.setTile pos t') t oldItem) item)
      pos (some oldItem) (some item) false ((w.tile pos).ground.toList ++ rest) := by
  have hall : (w.tile pos).allItems.Perm (oldItem :: ((w.tile pos).ground.toList ++ rest)) :=
    (hold.append_left _).trans List.perm_middle
  have hall' : t'.allItems.Perm (item :: ((w.tile pos).ground.toList ++ rest)) := by
    rw [allItems, hground]
    exact (hnew.append_left _).trans List.perm_middle
  have hmem : oldItem ∈ (w.tile pos).itemVector := hold.mem_iff.mpr List.mem_cons_self
  have hnot := (List.nodup_cons.mp (hall.nodup_iff.mp hnodup)).1
  refine .swap hflags hall hall' hnodup hfresh ?_ fun r => ?_
  · rw [hground]
    cases hg : (w.tile pos).ground with
    | none => rfl
    | some g =>
      have hne : oldItem ≠ g := fun h => not_mem_itemVector hnodup hg (h ▸ hmem)
      simp [Option.filter_some, hne]
  · rw [hnew.mem_iff, hold.mem_iff, List.mem_cons, List.mem_cons]
    constructor
    · rintro (h | h)
      · exact .inl ⟨h.symm, rfl⟩
      · exact .inr ⟨.inr h, fun he => hnot (List.mem_append_right _ (he ▸ h))⟩
    · rintro (⟨h, -⟩ | ⟨h, hne⟩)
      · exact .inl h.symm
      · exact .inr (h.resolve_left (Ne.symm hne))

theorem replaceThing_effect (hnodup : (w.tile pos).allItems.Nodup)
    (hfresh : item ∉ (w.tile pos).allItems) (index : Nat) :
    ∃ rest, Effect env w (replaceThing env w pos index item) pos
      (Op.leaving env w (w.tile pos) (.replaceThing index item))
      (Op.entering env w (w.tile pos) (.replaceThing index item))
      (Op.onGround env w (w.tile pos) (.replaceThing index item)) rest := by
  have hquiet : Alike w (w.setParent item (some (.tile pos))) := .setParent w item _
  unfold replaceThing
  dsimp only [Op.leaving, Op.entering, Op.onGround]
  cases hrep : replaceAt (w.tile pos) index item with
  | none => exact ⟨_, .of_alike (.refl w) _⟩
  | some found =>
    obtain ⟨oldItem, t'⟩ := found
    have hafter : ∀ w : World, Alike w ((onUpdateTileItem env w pos oldItem item).setParent oldItem
        none) := fun w => .trans (.of_untraded (untraded_notify _ _ fun w p =>
          untraded_onUpdateTileItem w p oldItem item)) (.setParent _ oldItem none)
    rcases replaceAt_spec hrep with ⟨hg, rfl, rfl⟩ | ⟨hplace, hflags, hground, rest, hold, hnew⟩
    · have h := swapGround_effect env (w := w.setParent item (some (.tile pos)))
        hnodup hfresh hg
      simp only [hg, Option.isSome_some, Bool.true_and, decide_true, Option.map_some]
      exact ⟨_, .alike_trans hquiet (h.trans_alike (hafter _))⟩
    · have h := Effect.swap_vector env (w := w.setParent item (some (.tile pos)))
        hflags hground hold hnew hnodup hfresh
      rw [hplace]
      exact ⟨_, .alike_trans hquiet (h.trans_alike (hafter _))⟩

theorem setCreatures_effect (creatures : List TileCreature) (onGround : Bool) :
    Effect env w (setCreatures w pos creatures) pos none none onGround (w.tile pos).allItems := by
  have htile : (setCreatures w pos creatures).tile pos =
      { w.tile pos with creatures := creatures } := tile_modify _
  refine ⟨.refl _, ?_, fun _ hr => (by cases hr), fun _ _ => rfl, fun _ => rfl, fun _ _ _ => ?_, ?_,
    ?_, fun r => ?_⟩
  · rw [htile]
    exact .refl _
  · simp [htile]
  · rw [htile]
    exact id
  · rw [htile]
    cases (w.tile pos).ground <;> rfl
  · simp [htile, itemVector]

theorem Op.apply_effect (hnodup : (w.tile pos).allItems.Nodup) {op : Op} (hop : op.Valid w pos) :
    ∃ rest, Effect env w (op.apply env w pos) pos (op.leaving env w (w.tile pos))
      (op.entering env w (w.tile pos)) (op.onGround env w (w.tile pos)) rest := by
  cases op with
  | internalAddThing item => exact internalAddThing_effect env hop
  | addThing item => exact addThing_effect env hnodup hop
  | updateThing item itemId count => exact updateThing_effect env hnodup itemId count
  | replaceThing index item => exact replaceThing_effect env hnodup hop index
  | removeThing item count => exact removeThing_effect env item hnodup count
  | setCreatures creatures => exact ⟨_, setCreatures_effect env creatures _⟩

variable {env} in
theorem Effect.nodup {w' : World} {out entry : Option ItemRef} {onGround : Bool}
    {rest : List ItemRef} (h : Effect env w w' pos out entry onGround rest)
    (hnodup : (w.tile pos).allItems.Nodup) : (w'.tile pos).allItems.Nodup := by
  rw [h.after.nodup_iff]
  have hrest : rest.Nodup := (List.nodup_append.mp (h.before.nodup_iff.mp hnodup)).2.1
  cases entry with
  | none => exact hrest
  | some r => exact List.nodup_cons.mpr ⟨h.fresh r rfl, hrest⟩

end Operations

/-! ## Runs -/

def operations (env : Env) (pos : Position) : Run.System World Op where
  init w := w.tile pos = Tile.empty
  step w op w' := op.Valid w pos ∧ w' = op.apply env w pos

section Runs

variable {env : Env} {w : World} {pos : Position}

theorem reachable_apply (h : Run.Reachable (operations env pos) w) (op : Op)
    (hop : op.Valid w pos) : Run.Reachable (operations env pos) (op.apply env w pos) :=
  h.step' ⟨hop, rfl⟩

end Runs

end Eloth.Tile
