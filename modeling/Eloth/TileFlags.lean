import Eloth.Tile

/-!
# What a change does to a tile

Every mutator of a tile takes at most one item off it and puts at most one item on it. Its effect
on the flags is fixed by the two items and by those that stay: a property flag goes when no other
item has the property, a kind flag goes in any case.
-/

namespace Eloth.Tile

/-- The part of an item that the flags of its tile depend on. -/
def look (item : Item) : Nat × Option Attributes × ItemClass :=
  (item.id, item.attributes, item.cls)

theorem hasProperty_of_look {items : Items} {item item' : Item} (h : look item' = look item)
    (prop : ItemProperty) : item'.hasProperty items prop = item.hasProperty items prop := by
  obtain ⟨hid, hattr, -⟩ : item'.id = item.id ∧ item'.attributes = item.attributes ∧
      item'.cls = item.cls := by simpa [look] using h
  unfold Item.hasProperty Item.hasAttribute Item.attr
  rw [hid, hattr]

theorem cls_of_look {item item' : Item} (h : look item' = look item) : item'.cls = item.cls :=
  congrArg (fun l => l.2.2) h

/-! ## Single flags -/

/-- The flags that `setTileFlags` sets for an item, floor changes aside. -/
def marks (env : Env) (item : Item) : TileState → Bool
  | .blockSolid => item.hasProperty env.items .blockSolid
  | .immovableBlockSolid => item.hasProperty env.items .immovableBlockSolid
  | .blockPath => item.hasProperty env.items .blockPath
  | .noFieldBlockPath => item.hasProperty env.items .noFieldBlockPath
  | .immovableNoFieldBlockPath => item.hasProperty env.items .immovableNoFieldBlockPath
  | .teleport => item.isTeleportObject
  | .magicField => item.isMagicFieldObject
  | .mailbox => item.isMailboxObject
  | .trashHolder => item.isTrashHolderObject
  | .bed => item.isBedObject
  | .depot => item.isDepotLocker
  | .supportsHangable => item.hasProperty env.items .supportHangable
  | _ => false

/-- The flags that `resetTileFlags` clears for an item, given the properties that others on the
tile have. -/
def clears (env : Env) (item : Item) (others : ItemProperty → Bool) : TileState → Bool
  | .blockSolid => item.hasProperty env.items .blockSolid && !others .blockSolid
  | .immovableBlockSolid =>
    item.hasProperty env.items .immovableBlockSolid && !others .immovableBlockSolid
  | .blockPath => item.hasProperty env.items .blockPath && !others .blockPath
  | .noFieldBlockPath => item.hasProperty env.items .noFieldBlockPath && !others .noFieldBlockPath
  | .immovableBlockPath =>
    item.hasProperty env.items .immovableBlockPath && !others .immovableBlockPath
  | .immovableNoFieldBlockPath =>
    item.hasProperty env.items .immovableNoFieldBlockPath && !others .immovableNoFieldBlockPath
  | .teleport => item.isTeleportObject
  | .magicField => item.isMagicFieldObject
  | .mailbox => item.isMailboxObject
  | .trashHolder => item.isTrashHolderObject
  | .bed => item.isBedObject
  | .depot => item.isDepotLocker
  | .supportsHangable => item.hasProperty env.items .supportHangable
  | _ => false

theorem marks_of_look {env : Env} {item item' : Item} (h : look item' = look item)
    (flag : TileState) : marks env item' flag = marks env item flag := by
  cases flag <;>
    simp only [marks, hasProperty_of_look h, cls_of_look h, Item.isTeleportObject,
      Item.isMagicFieldObject, Item.isMailboxObject, Item.isTrashHolderObject, Item.isBedObject,
      Item.isDepotLocker]

theorem clears_of_look {env : Env} {item item' : Item} (h : look item' = look item)
    (others : ItemProperty → Bool) (flag : TileState) :
    clears env item' others flag = clears env item others flag := by
  cases flag <;>
    simp only [clears, hasProperty_of_look h, cls_of_look h, Item.isTeleportObject,
      Item.isMagicFieldObject, Item.isMailboxObject, Item.isTrashHolderObject, Item.isBedObject,
      Item.isDepotLocker]

section Flags

variable (env : Env) (w : World) (t : Tile) (item : ItemRef)

theorem setFlag_flags (f flag : TileState) :
    (setFlag t f).flags flag = (t.flags flag || decide (flag = f)) := by
  by_cases h : flag = f
  · simp [setFlag, h]
  · simp [setFlag, h]

theorem setFlagIf_flags (cond : Bool) (f flag : TileState) :
    (setFlagIf cond f t).flags flag = (t.flags flag || (cond && decide (flag = f))) := by
  cases cond with
  | true => simp [setFlagIf, setFlag_flags]
  | false => simp [setFlagIf]

theorem resetFlag_flags (f flag : TileState) :
    (resetFlag t f).flags flag = (t.flags flag && !decide (flag = f)) := by
  by_cases h : flag = f
  · simp [resetFlag, h]
  · simp [resetFlag, h]

theorem resetFlagIf_flags (cond : Bool) (f flag : TileState) :
    (resetFlagIf cond f t).flags flag = (t.flags flag && !(cond && decide (flag = f))) := by
  cases cond with
  | true => simp [resetFlagIf, resetFlag_flags]
  | false => simp [resetFlagIf]

theorem foldl_setFlag_flags {fs : List TileState} {flag : TileState} (h : flag ∉ fs) :
    (fs.foldl setFlag t).flags flag = t.flags flag := by
  induction fs generalizing t with
  | nil => rfl
  | cons f fs ih =>
    rw [List.mem_cons, not_or] at h
    rw [List.foldl_cons, ih _ h.2, setFlag_flags]
    simp [h.1]

theorem foldl_resetFlag_flags {fs : List TileState} {flag : TileState} (h : flag ∉ fs) :
    (fs.foldl resetFlag t).flags flag = t.flags flag := by
  induction fs generalizing t with
  | nil => rfl
  | cons f fs ih =>
    rw [List.mem_cons, not_or] at h
    rw [List.foldl_cons, ih _ h.2, resetFlag_flags]
    simp [h.1]

theorem setTileFlags_flags {flag : TileState} (h : flag ∉ TileState.floorChange) :
    (setTileFlags env w t item).flags flag = (t.flags flag || marks env (w.item item) flag) := by
  have hfloor : flag ∉ (env.items.get (w.item item).id).floorChange :=
    fun hmem => h (env.items.floorChange_mem _ flag hmem)
  have hbase : (if t.hasAnyFlag TileState.floorChange then t
      else (env.items.get (w.item item).id).floorChange.foldl setFlag t).flags flag =
        t.flags flag := by
    split_ifs
    · rfl
    · exact foldl_setFlag_flags t hfloor
  unfold setTileFlags
  simp only [setFlagIf_flags, hbase]
  cases flag <;> simp [marks]

theorem resetTileFlags_flags {flag : TileState} (h : flag ∉ TileState.floorChange) :
    (resetTileFlags env w t item).flags flag =
      (t.flags flag && !clears env (w.item item) (t.hasProperty env w item) flag) := by
  have hbase : (if (env.items.get (w.item item).id).floorChange ≠ [] then
      TileState.floorChange.foldl resetFlag t else t).flags flag = t.flags flag := by
    split_ifs
    · exact foldl_resetFlag_flags t h
    · rfl
  unfold resetTileFlags
  simp only [resetFlagIf_flags, hbase]
  cases flag <;> simp [clears]

end Flags

/-! ## The rest of the tile -/

def bare (t : Tile) : Tile := { t with flags := fun _ => false }

section Bare

variable (env : Env) (w : World) (t : Tile) (item : ItemRef)

@[simp] theorem bare_setFlag (f : TileState) : (setFlag t f).bare = t.bare := rfl

@[simp] theorem bare_resetFlag (f : TileState) : (resetFlag t f).bare = t.bare := rfl

@[simp] theorem bare_setFlagIf (cond : Bool) (f : TileState) :
    (setFlagIf cond f t).bare = t.bare := by
  cases cond <;> rfl

@[simp] theorem bare_resetFlagIf (cond : Bool) (f : TileState) :
    (resetFlagIf cond f t).bare = t.bare := by
  cases cond <;> rfl

theorem bare_foldl {change : Tile → TileState → Tile} (h : ∀ t f, (change t f).bare = t.bare)
    (fs : List TileState) : (fs.foldl change t).bare = t.bare := by
  induction fs generalizing t with
  | nil => rfl
  | cons f fs ih => exact (ih (change t f)).trans (h t f)

@[simp] theorem bare_setTileFlags : (setTileFlags env w t item).bare = t.bare := by
  unfold setTileFlags
  simp only [bare_setFlagIf]
  split_ifs
  · rfl
  · exact bare_foldl t bare_setFlag _

@[simp] theorem bare_resetTileFlags : (resetTileFlags env w t item).bare = t.bare := by
  unfold resetTileFlags
  simp only [bare_resetFlagIf]
  split_ifs
  · exact bare_foldl t bare_resetFlag _
  · rfl

variable {t} {t' : Tile}

theorem ground_of_bare (h : t'.bare = t.bare) : t'.ground = t.ground :=
  (congrArg Tile.ground h :)

theorem topItems_of_bare (h : t'.bare = t.bare) : t'.topItems = t.topItems :=
  (congrArg Tile.topItems h :)

theorem downItems_of_bare (h : t'.bare = t.bare) : t'.downItems = t.downItems :=
  (congrArg Tile.downItems h :)

theorem itemVector_of_bare (h : t'.bare = t.bare) : t'.itemVector = t.itemVector := by
  rw [itemVector, itemVector, topItems_of_bare h, downItems_of_bare h]

theorem allItems_of_bare (h : t'.bare = t.bare) : t'.allItems = t.allItems := by
  rw [allItems, allItems, ground_of_bare h, itemVector_of_bare h]

end Bare

/-! ## Worlds that agree on the tiles -/

structure Alike (w w' : World) : Prop where
  tile : w'.tile = w.tile
  look : ∀ r, look (w'.item r) = look (w.item r)

theorem Alike.refl (w : World) : Alike w w := ⟨rfl, fun _ => rfl⟩

theorem Alike.trans {w₁ w₂ w₃ : World} (h : Alike w₁ w₂) (h' : Alike w₂ w₃) : Alike w₁ w₃ :=
  ⟨h'.tile.trans h.tile, fun r => (h'.look r).trans (h.look r)⟩

theorem Alike.of_untraded {w w' : World} (h : w'.untraded = w.untraded) : Alike w w' :=
  ⟨tile_of_untraded h, fun r => by rw [item_of_untraded h]⟩

theorem Alike.setParent (w : World) (r : ItemRef) (p : Option Cylinder) :
    Alike w (w.setParent r p) :=
  ⟨rfl, fun _ => World.setParent_proj Tile.look fun _ => rfl⟩

theorem Alike.releaseItem (w : World) (r : ItemRef) : Alike w (w.releaseItem r) :=
  .of_untraded rfl

theorem Alike.setItemCount (w : World) (r : ItemRef) (n : Item → Nat) :
    Alike w (w.modifyItem r fun it => it.setItemCount (n it)) :=
  ⟨rfl, fun _ => World.modifyItem_proj Tile.look fun _ => rfl⟩

/-! ## Effects -/

def othersHave (env : Env) (w : World) (rest : List ItemRef) (prop : ItemProperty) : Bool :=
  rest.any fun r => (w.item r).hasProperty env.items prop

/-- `out` is taken off the tile, `entry` is put on it, and `rest` stays. An item that is changed
in place is both taken off and put on. -/
structure Effect (env : Env) (w w' : World) (pos : Position) (out entry : Option ItemRef)
    (onGround : Bool) (rest : List ItemRef) : Prop where
  before : (w.tile pos).allItems.Perm (out.toList ++ rest)
  after : (w'.tile pos).allItems.Perm (entry.toList ++ rest)
  fresh : ∀ r, entry = some r → r ∉ rest
  look : ∀ r, ¬(entry = some r ∧ out = some r) → look (w'.item r) = look (w.item r)
  cls : ∀ r, (w'.item r).cls = (w.item r).cls
  flags : ∀ flag ∉ TileState.floorChange, flag ≠ .immovableBlockPath →
    (w'.tile pos).flags flag =
      (((w.tile pos).flags flag &&
          !out.any fun r => clears env (w.item r) (othersHave env w rest) flag) ||
        entry.any fun r => marks env (w'.item r) flag)
  unmarked : (w'.tile pos).flags .immovableBlockPath = true →
    (w.tile pos).flags .immovableBlockPath = true
  ground : (w'.tile pos).ground =
    (entry.filter fun _ => onGround).or ((w.tile pos).ground.filter fun g => out ≠ some g)
  vector : ∀ r, r ∈ (w'.tile pos).itemVector ↔
    (entry = some r ∧ onGround = false) ∨ (r ∈ (w.tile pos).itemVector ∧ out ≠ some r)

section Effects

variable {env : Env} {w w' w'' : World} {pos : Position} {out entry : Option ItemRef}
  {onGround : Bool} {rest : List ItemRef}

theorem Effect.of_alike (h : Alike w w') (onGround : Bool) :
    Effect env w w' pos none none onGround (w.tile pos).allItems := by
  have htile : w'.tile pos = w.tile pos := congrFun h.tile pos
  refine ⟨.refl _, ?_, fun _ hr => (by cases hr), fun r _ => h.look r,
    fun r => cls_of_look (h.look r), fun _ _ _ => ?_, ?_, ?_, fun r => ?_⟩
  · rw [htile]
    exact .refl _
  · simp [htile]
  · rw [htile]
    exact id
  · rw [htile]
    cases (w.tile pos).ground <;> rfl
  · simp [htile]

theorem Effect.trans_alike (h : Effect env w w' pos out entry onGround rest)
    (h' : Alike w' w'') : Effect env w w'' pos out entry onGround rest := by
  have htile : w''.tile pos = w'.tile pos := congrFun h'.tile pos
  refine ⟨h.before, ?_, h.fresh, fun r hr => (h'.look r).trans (h.look r hr),
    fun r => (cls_of_look (h'.look r)).trans (h.cls r), fun flag hf hne => ?_, ?_, ?_,
    fun r => ?_⟩
  · rw [htile]
    exact h.after
  · rw [htile, h.flags flag hf hne]
    simp only [marks_of_look (h'.look _)]
  · rw [htile]
    exact h.unmarked
  · rw [htile]
    exact h.ground
  · rw [htile]
    exact h.vector r

theorem othersHave_of_alike (env : Env) (h : Alike w w') (rest : List ItemRef) :
    othersHave env w' rest = othersHave env w rest := by
  funext prop
  simp only [othersHave, hasProperty_of_look (h.look _)]

theorem Effect.alike_trans (h : Alike w w') (h' : Effect env w' w'' pos out entry onGround rest) :
    Effect env w w'' pos out entry onGround rest := by
  have htile : w'.tile pos = w.tile pos := congrFun h.tile pos
  have hothers := othersHave_of_alike env h rest
  refine ⟨?_, h'.after, h'.fresh, fun r hr => (h'.look r hr).trans (h.look r),
    fun r => (h'.cls r).trans (cls_of_look (h.look r)), fun flag hf hne => ?_, ?_, ?_, fun r => ?_⟩
  · rw [← htile]
    exact h'.before
  · rw [h'.flags flag hf hne, htile, hothers]
    simp only [clears_of_look (h.look _)]
  · rw [← htile]
    exact h'.unmarked
  · rw [← htile]
    exact h'.ground
  · rw [← htile]
    exact h'.vector r

theorem Effect.leave_enter {rest' : List ItemRef}
    (hleave : Effect env w w' pos out none false rest)
    (henter : Effect env w' w'' pos none entry onGround rest') :
    Effect env w w'' pos out entry onGround rest := by
  have hrest : rest.Perm rest' := by
    simpa using hleave.after.symm.trans henter.before
  refine ⟨hleave.before, henter.after.trans (hrest.symm.append_left _), fun r hr hmem => ?_,
    fun r _ => ?_, fun r => (henter.cls r).trans (hleave.cls r), fun flag hf hne => ?_,
    fun h => hleave.unmarked (henter.unmarked h), ?_, fun r => ?_⟩
  · exact henter.fresh r hr (hrest.mem_iff.mp hmem)
  · exact (henter.look r (by simp)).trans (hleave.look r (by simp))
  · rw [henter.flags flag hf hne, hleave.flags flag hf hne]
    simp
  · rw [henter.ground, hleave.ground]
    simp
  · rw [henter.vector, hleave.vector]
    simp

end Effects

/-! ## Single changes -/

section Changes

variable {env : Env} {w : World} {pos : Position} {t' : Tile} {item oldItem : ItemRef}

theorem tile_modify (f : Tile → Tile) : (modify w pos f).tile pos = f (w.tile pos) := by
  simp [modify, World.setTile]

theorem tile_setTile : (w.setTile pos t').tile pos = t' := by
  simp [World.setTile]

theorem Effect.enter {onGround : Bool} (hflags : t'.flags = (w.tile pos).flags)
    (hnew : item ∉ (w.tile pos).allItems)
    (hall : t'.allItems.Perm (item :: (w.tile pos).allItems))
    (hground : t'.ground = if onGround then some item else (w.tile pos).ground)
    (hvector : ∀ r, r ∈ t'.itemVector ↔ (item = r ∧ onGround = false) ∨
      r ∈ (w.tile pos).itemVector) :
    Effect env w (onAddTileItem env (w.setTile pos t') pos item) pos none (some item) onGround
      (w.tile pos).allItems := by
  have htile : (onAddTileItem env (w.setTile pos t') pos item).tile pos =
      setTileFlags env (w.setTile pos t') t' item := by
    rw [onAddTileItem, tile_modify, tile_setTile]
  have hbare := bare_setTileFlags env (w.setTile pos t') t' item
  refine ⟨.refl _, ?_, fun r hr => ?_, fun _ _ => rfl, fun _ => rfl, fun flag hf _ => ?_,
    fun h => ?_, ?_, fun r => ?_⟩
  · rw [htile, allItems_of_bare hbare]
    exact hall
  · cases hr
    exact hnew
  · rw [htile, setTileFlags_flags env _ t' item hf, hflags]
    simp [onAddTileItem, modify, World.setTile]
  · rw [htile, setTileFlags_flags env _ t' item (by decide), hflags] at h
    simpa [marks] using h
  · rw [htile, ground_of_bare hbare, hground]
    cases onGround <;> simp <;> cases (w.tile pos).ground <;> rfl
  · rw [htile, itemVector_of_bare hbare, hvector]
    simp

theorem any_ne_eq_othersHave {rest : List ItemRef} (hnot : item ∉ rest) (prop : ItemProperty) :
    (rest.any fun r => r != item && (w.item r).hasProperty env.items prop) =
      othersHave env w rest prop := by
  rw [Bool.eq_iff_iff]
  simp only [othersHave, List.any_eq_true, Bool.and_eq_true, bne_iff_ne]
  constructor
  · rintro ⟨r, hr, -, h⟩
    exact ⟨r, hr, h⟩
  · rintro ⟨r, hr, h⟩
    exact ⟨r, hr, fun he => hnot (he ▸ hr), h⟩

theorem hasProperty_eq_othersHave {t : Tile} {rest : List ItemRef} (hall : t.allItems.Perm rest)
    (hnot : item ∉ rest) (prop : ItemProperty) :
    t.hasProperty env w item prop = othersHave env w rest prop := by
  rw [Tile.hasProperty, hall.any_eq, any_ne_eq_othersHave hnot]

theorem Effect.leave (hflags : t'.flags = (w.tile pos).flags)
    (hall : (w.tile pos).allItems.Perm (item :: t'.allItems))
    (hnodup : (w.tile pos).allItems.Nodup)
    (hground : t'.ground = (w.tile pos).ground.filter fun g => some item ≠ some g)
    (hvector : ∀ r, r ∈ t'.itemVector ↔ r ∈ (w.tile pos).itemVector ∧ item ≠ r) :
    Effect env w (onRemoveTileItem env (w.setTile pos t') pos item) pos (some item) none false
      t'.allItems := by
  have hnot : item ∉ t'.allItems := (List.nodup_cons.mp (hall.nodup_iff.mp hnodup)).1
  have hquiet : Alike (modify (w.setTile pos t') pos fun t =>
      resetTileFlags env (w.setTile pos t') t item)
      (onRemoveTileItem env (w.setTile pos t') pos item) :=
    .of_untraded (untraded_notify _ _ fun w p => untraded_onRemoveTileItem w p item)
  refine Effect.trans_alike ?_ hquiet
  have htile : (modify (w.setTile pos t') pos fun t =>
      resetTileFlags env (w.setTile pos t') t item).tile pos =
        resetTileFlags env (w.setTile pos t') t' item := by
    rw [tile_modify, tile_setTile]
  have hbare := bare_resetTileFlags env (w.setTile pos t') t' item
  refine ⟨hall, ?_, fun r hr => (by cases hr), fun _ _ => rfl, fun _ => rfl, fun flag hf _ => ?_,
    fun h => ?_, ?_, fun r => ?_⟩
  · rw [htile, allItems_of_bare hbare]
    exact .refl _
  · rw [htile, resetTileFlags_flags env _ t' item hf, hflags,
      show t'.hasProperty env (w.setTile pos t') item = othersHave env w t'.allItems from
        funext fun prop => hasProperty_eq_othersHave (.refl _) hnot prop]
    simp [World.setTile]
  · rw [htile, resetTileFlags_flags env _ t' item (by decide), hflags] at h
    exact (Bool.and_eq_true_iff.mp h).1
  · rw [htile, ground_of_bare hbare, hground]
    rfl
  · rw [htile, itemVector_of_bare hbare, hvector]
    simp

theorem clears_or_marks {flag : TileState} (hne : flag ≠ .immovableBlockPath) (it : Item)
    (rest : List ItemRef) (b : Bool) :
    (b && !clears env it (othersHave env w (item :: rest)) flag || marks env (w.item item) flag) =
      (b && !clears env it (othersHave env w rest) flag || marks env (w.item item) flag) := by
  have key : ∀ b p x y : Bool, (b && !(p && !(x || y)) || x) = (b && !(p && !y) || x) := by decide
  cases flag <;> first
    | exact absurd rfl hne
    | rfl
    | exact key _ _ _ _

theorem Effect.swap {onGround : Bool} {rest : List ItemRef}
    (hflags : t'.flags = (w.tile pos).flags)
    (hold : (w.tile pos).allItems.Perm (oldItem :: rest))
    (hnew : t'.allItems.Perm (item :: rest))
    (hnodup : (w.tile pos).allItems.Nodup) (hfresh : item ∉ (w.tile pos).allItems)
    (hground : t'.ground =
      if onGround then some item else (w.tile pos).ground.filter fun g => some oldItem ≠ some g)
    (hvector : ∀ r, r ∈ t'.itemVector ↔ (item = r ∧ onGround = false) ∨
      (r ∈ (w.tile pos).itemVector ∧ oldItem ≠ r)) :
    Effect env w (modify (w.setTile pos t') pos fun t =>
      setTileFlags env (w.setTile pos t') (resetTileFlags env (w.setTile pos t') t oldItem) item)
      pos (some oldItem) (some item) onGround rest := by
  have hfresh' : item ∉ oldItem :: rest := fun h => hfresh (hold.mem_iff.mpr h)
  have hnot : oldItem ∉ item :: rest := by
    have := (List.nodup_cons.mp (hold.nodup_iff.mp hnodup)).1
    rw [List.mem_cons, not_or] at hfresh' ⊢
    exact ⟨Ne.symm hfresh'.1, this⟩
  have htile : (modify (w.setTile pos t') pos fun t => setTileFlags env (w.setTile pos t')
      (resetTileFlags env (w.setTile pos t') t oldItem) item).tile pos =
        setTileFlags env (w.setTile pos t') (resetTileFlags env (w.setTile pos t') t' oldItem)
          item := by
    rw [tile_modify, tile_setTile]
  have hbare : (setTileFlags env (w.setTile pos t')
      (resetTileFlags env (w.setTile pos t') t' oldItem) item).bare = t'.bare := by
    rw [bare_setTileFlags, bare_resetTileFlags]
  refine ⟨hold, ?_, fun r hr => ?_, fun _ _ => rfl, fun _ => rfl, fun flag hf hne => ?_,
    fun h => ?_, ?_, fun r => ?_⟩
  · rw [htile, allItems_of_bare hbare]
    exact hnew
  · cases hr
    exact fun h => hfresh' (List.mem_cons_of_mem _ h)
  · rw [htile, setTileFlags_flags env _ _ item hf, resetTileFlags_flags env _ t' oldItem hf, hflags,
      show t'.hasProperty env (w.setTile pos t') oldItem = othersHave env w (item :: rest) from
        funext fun prop => hasProperty_eq_othersHave hnew hnot prop]
    exact clears_or_marks hne _ rest _
  · rw [htile, setTileFlags_flags env _ _ item (by decide),
      resetTileFlags_flags env _ t' oldItem (by decide), hflags] at h
    simp only [marks, Bool.or_false, Bool.and_eq_true] at h
    exact h.1
  · rw [htile, ground_of_bare hbare, hground]
    cases onGround <;> rfl
  · rw [htile, itemVector_of_bare hbare, hvector]
    simp

theorem mem_allItems {t : Tile} {r : ItemRef} :
    r ∈ t.allItems ↔ t.ground = some r ∨ r ∈ t.itemVector := by
  simp [allItems]

theorem not_mem_itemVector {t : Tile} (hnodup : t.allItems.Nodup) {g : ItemRef}
    (hg : t.ground = some g) : g ∉ t.itemVector := by
  rw [allItems, hg] at hnodup
  exact (List.nodup_cons.mp hnodup).1

theorem allItems_perm {t : Tile} {v : List ItemRef} (hg : t'.ground = t.ground)
    (hv : t'.itemVector.Perm (v ++ t.itemVector)) : t'.allItems.Perm (v ++ t.allItems) := by
  rw [allItems, allItems, hg]
  refine (hv.append_left _).trans ?_
  rw [← List.append_assoc, ← List.append_assoc]
  exact List.perm_append_comm.append_right _

theorem Effect.enter_vector (hflags : t'.flags = (w.tile pos).flags)
    (hnew : item ∉ (w.tile pos).allItems) (hground : t'.ground = (w.tile pos).ground)
    (hvector : t'.itemVector.Perm (item :: (w.tile pos).itemVector)) :
    Effect env w (onAddTileItem env (w.setTile pos t') pos item) pos none (some item) false
      (w.tile pos).allItems := by
  refine Effect.enter hflags hnew (allItems_perm (v := [item]) hground hvector) hground fun r => ?_
  rw [hvector.mem_iff, List.mem_cons]
  simp [eq_comm]

theorem Effect.leave_vector (hflags : t'.flags = (w.tile pos).flags)
    (hnodup : (w.tile pos).allItems.Nodup) (hground : t'.ground = (w.tile pos).ground)
    (hvector : (w.tile pos).itemVector.Perm (item :: t'.itemVector)) :
    Effect env w (onRemoveTileItem env (w.setTile pos t') pos item) pos (some item) none false
      t'.allItems := by
  have hall : (w.tile pos).allItems.Perm (item :: t'.allItems) :=
    allItems_perm (v := [item]) hground.symm hvector
  have hnot := (List.nodup_cons.mp (hall.nodup_iff.mp hnodup)).1
  refine Effect.leave hflags hall hnodup ?_ fun r => ?_
  · rw [hground]
    cases hg : (w.tile pos).ground with
    | none => rfl
    | some g =>
      have hne : item ≠ g := fun h => hnot (mem_allItems.mpr (.inl (by rw [hground, hg, h])))
      simp [Option.filter_some, hne]
  · rw [hvector.mem_iff, List.mem_cons]
    constructor
    · exact fun h => ⟨.inr h, fun he => hnot (mem_allItems.mpr (.inr (he ▸ h)))⟩
    · rintro ⟨h, hne⟩
      exact h.resolve_left (Ne.symm hne)

theorem Effect.update (env : Env) {f : Item → Item} (hmem : item ∈ (w.tile pos).allItems)
    (hnodup : (w.tile pos).allItems.Nodup) (hcls : ∀ it, (f it).cls = it.cls) :
    let w₁ := modify w pos fun t => resetTileFlags env w t item
    let w₂ := w₁.modifyItem item f
    Effect env w (modify w₂ pos fun t => setTileFlags env w₂ t item) pos (some item) (some item)
      (decide ((w.tile pos).ground = some item)) ((w.tile pos).allItems.erase item) := by
  intro w₁ w₂
  have hperm := List.perm_cons_erase hmem
  have hnot : item ∉ (w.tile pos).allItems.erase item := hnodup.not_mem_erase
  have htile : (modify w₂ pos fun t => setTileFlags env w₂ t item).tile pos =
      setTileFlags env w₂ (resetTileFlags env w (w.tile pos) item) item := by
    rw [tile_modify]
    congr 1
    exact tile_modify (w := w) fun t => resetTileFlags env w t item
  have hbare : (setTileFlags env w₂ (resetTileFlags env w (w.tile pos) item) item).bare =
      (w.tile pos).bare := by
    rw [bare_setTileFlags, bare_resetTileFlags]
  have hothers : (w.tile pos).hasProperty env w item =
      othersHave env w ((w.tile pos).allItems.erase item) := by
    funext prop
    rw [Tile.hasProperty, hperm.any_eq, List.any_cons, bne_self_eq_false, Bool.false_and,
      Bool.false_or, any_ne_eq_othersHave hnot]
  refine ⟨hperm, ?_, fun r hr => ?_, fun r hr => ?_, fun r => ?_, fun flag hf _ => ?_,
    fun h => ?_, ?_, fun r => ?_⟩
  · rw [htile, allItems_of_bare hbare]
    exact hperm
  · cases hr
    exact hnot
  · have hne : r ≠ item := fun h => hr (by simp [h])
    exact congrArg Tile.look (World.modifyItem_item_ne hne)
  · exact World.modifyItem_proj Item.cls hcls
  · rw [htile, setTileFlags_flags env _ _ item hf, resetTileFlags_flags env _ _ item hf, hothers]
    rfl
  · rw [htile, setTileFlags_flags env _ _ item (by decide),
      resetTileFlags_flags env _ _ item (by decide)] at h
    simp only [marks, Bool.or_false, Bool.and_eq_true] at h
    exact h.1
  · rw [htile, ground_of_bare hbare]
    by_cases hg : (w.tile pos).ground = some item
    · simp [hg, Option.filter_some]
    · cases hg' : (w.tile pos).ground with
      | none => simp [Option.filter_some]
      | some g =>
        have hne : item ≠ g := fun h => hg (by rw [hg', h])
        simp [hne, Ne.symm hne, Option.filter_some]
  · rw [htile, itemVector_of_bare hbare]
    by_cases hr : item = r
    · subst hr
      have : item ∈ (w.tile pos).itemVector ↔ (w.tile pos).ground ≠ some item := by
        constructor
        · exact fun h hg => not_mem_itemVector hnodup hg h
        · exact fun hg => (mem_allItems.mp hmem).resolve_left hg
      simp [this]
    · simp [hr]

end Changes

end Eloth.Tile
