import Eloth.TileRun

/-!
# Flags and items of a tile

The property flags agree with a scan of the tile, but for `immovableBlockPath`, which is never set.
The getters find an item of their kind as long as no operation takes one of two such items away,
since that clears the flag of the kind.
-/

namespace Eloth.Tile

/-! ## Property flags -/

/-- The flags of the walkability tests, with the property that each one stands for. -/
def walkFlags : List (TileState × ItemProperty) :=
  [(.blockSolid, .blockSolid), (.immovableBlockSolid, .immovableBlockSolid),
    (.blockPath, .blockPath), (.noFieldBlockPath, .noFieldBlockPath),
    (.immovableNoFieldBlockPath, .immovableNoFieldBlockPath),
    (.immovableBlockPath, .immovableBlockPath)]

def FlagAgrees (env : Env) (w : World) (pos : Position) (flag : TileState)
    (prop : ItemProperty) : Prop :=
  (w.tile pos).hasFlag flag = true ↔
    ∃ r ∈ (w.tile pos).allItems, (w.item r).hasProperty env.items prop = true

def WalkFlagsAgree (env : Env) (w : World) (pos : Position) : Prop :=
  ∀ f ∈ walkFlags, FlagAgrees env w pos f.1 f.2

def PathsFree (env : Env) (w : World) (pos : Position) : Prop :=
  ∀ r ∈ (w.tile pos).allItems, (w.item r).hasProperty env.items .immovableBlockPath = false

/-- A flag that set and reset treat alike. -/
structure Checked (env : Env) (flag : TileState) (prop : ItemProperty) : Prop where
  not_floorChange : flag ∉ TileState.floorChange
  ne : flag ≠ .immovableBlockPath
  marks : ∀ item, marks env item flag = item.hasProperty env.items prop
  clears : ∀ item others,
    clears env item others flag = (item.hasProperty env.items prop && !others prop)

theorem checked_of_mem {env : Env} {f : TileState × ItemProperty} (h : f ∈ walkFlags)
    (hne : f.1 ≠ .immovableBlockPath) : Checked env f.1 f.2 := by
  simp only [walkFlags, List.mem_cons, List.not_mem_nil, or_false] at h
  rcases h with rfl | rfl | rfl | rfl | rfl | rfl
  case inr.inr.inr.inr.inr => exact absurd rfl hne
  all_goals exact ⟨by decide, hne, fun _ => rfl, fun _ _ => rfl⟩

section Effects

variable {env : Env} {w w' : World} {pos : Position} {out entry : Option ItemRef}
  {onGround : Bool} {rest : List ItemRef}

theorem flagAgrees_iff {flag : TileState} {prop : ItemProperty} {l : List ItemRef}
    (h : (w.tile pos).allItems.Perm l) :
    FlagAgrees env w pos flag prop ↔
      (w.tile pos).flags flag = l.any fun r => (w.item r).hasProperty env.items prop := by
  have hscan : (∃ r ∈ (w.tile pos).allItems, (w.item r).hasProperty env.items prop = true) ↔
      (l.any fun r => (w.item r).hasProperty env.items prop) = true := by
    simp only [List.any_eq_true, h.mem_iff]
  rw [FlagAgrees, hscan, hasFlag]
  exact Bool.eq_iff_iff.symm

theorem Effect.look_rest (h : Effect env w w' pos out entry onGround rest) {r : ItemRef}
    (hr : r ∈ rest) : Tile.look (w'.item r) = Tile.look (w.item r) :=
  h.look r fun he => h.fresh r he.1 hr

theorem Effect.othersHave (h : Effect env w w' pos out entry onGround rest)
    (prop : ItemProperty) : othersHave env w' rest prop = othersHave env w rest prop := by
  unfold Tile.othersHave
  rw [Bool.eq_iff_iff, List.any_eq_true, List.any_eq_true]
  exact exists_congr fun r => and_congr_right fun hr => by
    rw [hasProperty_of_look (h.look_rest hr)]

theorem Effect.flagAgrees (h : Effect env w w' pos out entry onGround rest) {flag : TileState}
    {prop : ItemProperty} (hflag : Checked env flag prop) (hw : FlagAgrees env w pos flag prop) :
    FlagAgrees env w' pos flag prop := by
  rw [flagAgrees_iff h.before, List.any_append] at hw
  rw [flagAgrees_iff h.after, List.any_append, h.flags flag hflag.not_floorChange hflag.ne, hw]
  have hothers := h.othersHave prop
  unfold Tile.othersHave at hothers
  rw [hothers]
  simp only [hflag.marks, hflag.clears, Tile.othersHave]
  generalize (rest.any fun r => (w.item r).hasProperty env.items prop) = stay
  cases out <;> cases entry <;> simp <;> grind

end Effects

section Runs

variable {env : Env} {w : World} {pos : Position}

theorem flagAgrees_of_reachable (h : Run.Reachable (operations env pos) w) {flag : TileState}
    {prop : ItemProperty} (hflag : Checked env flag prop) : FlagAgrees env w pos flag prop := by
  refine (Run.Reachable.invariant
    (I := fun w => (w.tile pos).allItems.Nodup ∧ FlagAgrees env w pos flag prop)
    (fun w (hw : w.tile pos = Tile.empty) => ?_) ?_ h).2
  · simp [FlagAgrees, hw, Tile.empty, allItems, itemVector, hasFlag]
  · rintro w op w' ⟨hnodup, hw⟩ ⟨hop, rfl⟩
    obtain ⟨rest, heffect⟩ := Op.apply_effect env hnodup hop
    exact ⟨heffect.nodup hnodup, heffect.flagAgrees hflag hw⟩

theorem immovableBlockPath_of_reachable (h : Run.Reachable (operations env pos) w) :
    (w.tile pos).flags .immovableBlockPath = false := by
  refine (Run.Reachable.invariant (I := fun w => (w.tile pos).allItems.Nodup ∧
    (w.tile pos).flags .immovableBlockPath = false)
    (fun w (hw : w.tile pos = Tile.empty) => ?_) ?_ h).2
  · simp [hw, Tile.empty, allItems, itemVector]
  · rintro w op w' ⟨hnodup, hw⟩ ⟨hop, rfl⟩
    obtain ⟨rest, heffect⟩ := Op.apply_effect env hnodup hop
    refine ⟨heffect.nodup hnodup, Bool.eq_false_iff.mpr fun hset => ?_⟩
    rw [heffect.unmarked hset] at hw
    cases hw

theorem walkFlagsAgree_iff (h : Run.Reachable (operations env pos) w) :
    WalkFlagsAgree env w pos ↔ PathsFree env w pos := by
  have hnever : FlagAgrees env w pos .immovableBlockPath .immovableBlockPath ↔
      PathsFree env w pos := by
    simp [FlagAgrees, PathsFree, hasFlag, immovableBlockPath_of_reachable h]
  constructor
  · exact fun hagree => hnever.mp (hagree (.immovableBlockPath, .immovableBlockPath) (by decide))
  · intro hfree f hf
    by_cases hne : f.1 = .immovableBlockPath
    · have : f = (.immovableBlockPath, .immovableBlockPath) := by
        simp only [walkFlags, List.mem_cons, List.not_mem_nil, or_false] at hf
        rcases hf with rfl | rfl | rfl | rfl | rfl | rfl <;> first | rfl | cases hne
      rw [this]
      exact hnever.mpr hfree
    · exact flagAgrees_of_reachable h (checked_of_mem hf hne)

def Op.entryItem (env : Env) (w : World) : Op → ItemRef → Item
  | .updateThing _ itemId count, r => ((w.item r).setID env.items itemId).setSubType env.items count
  | _, r => w.item r

def Op.KeepsPathsFree (env : Env) (pos : Position) (w : World) (op : Op) : Prop :=
  ∀ r, op.entering env w (w.tile pos) = some r →
    (op.entryItem env w r).hasProperty env.items .immovableBlockPath = false

theorem onUpdateTileItem_item (oldItem newItem : ItemRef) :
    (onUpdateTileItem env w pos oldItem newItem).item = w.item :=
  item_of_untraded (untraded_notify _ _ fun w p => untraded_onUpdateTileItem w p oldItem newItem)

theorem modify_item (f : Tile → Tile) : (modify w pos f).item = w.item := rfl

theorem updateThing_item {item : ItemRef} {itemId count : Nat}
    (h : getThingIndex env w (w.tile pos) item ≠ -1) :
    (updateThing env w pos item itemId count).item item =
      ((w.item item).setID env.items itemId).setSubType env.items count := by
  unfold updateThing
  rw [if_neg h]
  simp only [onUpdateTileItem_item, modify_item, World.modifyItem_item_self]

theorem Op.entering_cases {op : Op} (hop : op.Valid w pos) {r : ItemRef}
    (hr : op.entering env w (w.tile pos) = some r) :
    (∃ itemId count, op = .updateThing r itemId count ∧
        getThingIndex env w (w.tile pos) r ≠ -1) ∨
      (r ∉ (w.tile pos).allItems ∧ op.entryItem env w r = w.item r) := by
  cases op with
  | internalAddThing item =>
    dsimp only [Op.entering] at hr
    split_ifs at hr <;> cases hr <;> exact .inr ⟨hop, rfl⟩
  | addThing item =>
    dsimp only [Op.entering] at hr
    split_ifs at hr
    cases hr
    exact .inr ⟨hop, rfl⟩
  | updateThing item itemId count =>
    dsimp only [Op.entering] at hr
    split_ifs at hr with hindex
    cases hr
    exact .inl ⟨itemId, count, rfl, hindex⟩
  | replaceThing index item =>
    obtain ⟨-, -, rfl⟩ := Option.map_eq_some_iff.mp hr
    exact .inr ⟨hop, rfl⟩
  | removeThing item count => cases hr
  | setCreatures creatures => cases hr

theorem Op.look_entering {op : Op} (hop : op.Valid w pos) (hnodup : (w.tile pos).allItems.Nodup)
    {r : ItemRef} (hr : op.entering env w (w.tile pos) = some r) :
    look ((op.apply env w pos).item r) = look (op.entryItem env w r) := by
  rcases Op.entering_cases hop hr with ⟨itemId, count, rfl, hindex⟩ | ⟨hnot, hitem⟩
  · exact congrArg look (updateThing_item hindex)
  · obtain ⟨rest, heffect⟩ := Op.apply_effect env hnodup hop
    rw [hitem]
    exact heffect.look r fun h => hnot (heffect.before.mem_iff.mpr (by simp [h.2]))

theorem pathsFree_of_reachable
    (h : Run.ReachableBy (operations env pos) (Op.KeepsPathsFree env pos) w) :
    PathsFree env w pos := by
  refine (Run.ReachableBy.invariant
    (I := fun w => (w.tile pos).allItems.Nodup ∧ PathsFree env w pos)
    (fun w (hw : w.tile pos = Tile.empty) => ?_) ?_ h).2
  · simp [PathsFree, hw, Tile.empty, allItems, itemVector]
  · rintro w op w' ⟨hnodup, hw⟩ hkeeps ⟨hop, rfl⟩
    obtain ⟨rest, heffect⟩ := Op.apply_effect env hnodup hop
    refine ⟨heffect.nodup hnodup, fun r hr => ?_⟩
    rcases List.mem_append.mp (heffect.after.mem_iff.mp hr) with hentry | hrest
    · have hentry : op.entering env w (w.tile pos) = some r := by simpa using hentry
      rw [hasProperty_of_look (Op.look_entering hop hnodup hentry)]
      exact hkeeps r hentry
    · rw [hasProperty_of_look (heffect.look_rest hrest)]
      exact hw r (heffect.before.mem_iff.mpr (List.mem_append_right _ hrest))

/-- The flags agree along every run that puts no immovable obstacle on the tile, and in any
reachable state they agree if and only if there is none on it. -/
theorem walkFlags_of_reachable :
    (∀ w, Run.ReachableBy (operations env pos) (Op.KeepsPathsFree env pos) w →
      WalkFlagsAgree env w pos) ∧
    ∀ w, Run.Reachable (operations env pos) w →
      (WalkFlagsAgree env w pos ↔ PathsFree env w pos) :=
  ⟨fun _ h => (walkFlagsAgree_iff h.reachable).mpr (pathsFree_of_reachable h),
    fun _ h => walkFlagsAgree_iff h⟩

end Runs

/-! An immovable wall, as the map loader puts it on a tile. -/

def stoneWall : ItemType := { ItemType.default with id := 1049, blockSolid := true, blockPathFind := true }

def wallEnv : Env := Env.quiet (Items.ofEntries [stoneWall, bread])

def wallWorld : World :=
  World.ofItems [Item.new wallEnv.items 1049 1 .item, Item.new wallEnv.items 2689 1 .item]

def wallPos : Position := { x := 100, y := 100, z := 7 }

theorem wallWorld_init : (operations wallEnv wallPos).init wallWorld := rfl

theorem wallWorld_valid (r : ItemRef) : Op.Valid wallWorld wallPos (.internalAddThing r) :=
  List.not_mem_nil

theorem wallWorld_reachable (r : ItemRef) :
    Run.Reachable (operations wallEnv wallPos) (internalAddThing wallEnv wallWorld wallPos r) :=
  reachable_apply (.init wallWorld_init) (.internalAddThing r) (wallWorld_valid r)

theorem walkFlags_of_wall :
    Run.Reachable (operations wallEnv wallPos) (internalAddThing wallEnv wallWorld wallPos 0) ∧
      ¬ WalkFlagsAgree wallEnv (internalAddThing wallEnv wallWorld wallPos 0) wallPos := by
  refine ⟨wallWorld_reachable 0, fun h => ?_⟩
  have := (h (.immovableBlockPath, .immovableBlockPath) (by decide)).mpr ⟨0, by decide, by decide⟩
  exact absurd this (by decide)

theorem walkFlags_of_bread :
    WalkFlagsAgree wallEnv (internalAddThing wallEnv wallWorld wallPos 1) wallPos ∧
    (WalkFlagsAgree wallEnv (internalAddThing wallEnv wallWorld wallPos 0) wallPos ↔
      PathsFree wallEnv (internalAddThing wallEnv wallWorld wallPos 0) wallPos) := by
  refine ⟨walkFlags_of_reachable.1 _ ?_, walkFlags_of_reachable.2 _ (wallWorld_reachable 0)⟩
  have hkeeps : Op.KeepsPathsFree wallEnv wallPos wallWorld (.internalAddThing 1) := by
    intro r hr
    cases hr
    decide
  exact .step (.init wallWorld_init) hkeeps ⟨wallWorld_valid 1, rfl⟩

end Eloth.Tile
