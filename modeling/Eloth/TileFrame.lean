import Eloth.Skeleton
import Eloth.Tile

/-!
# What a change of one tile leaves alone

An observation that shows neither the tile at a position nor the parents and counts of items nor
what is to be released is the same after every change of that tile.
-/

namespace Eloth.Tile

structure Frame {β : Type*} (pos : Position) (observe : World → β) : Prop where
  untraded : ∀ {w w' : World}, w'.untraded = w.untraded → observe w' = observe w
  setTile : ∀ w t, observe (w.setTile pos t) = observe w
  setParent : ∀ w r parent, observe (w.setParent r parent) = observe w
  reduce : ∀ w r count, observe (w.modifyItem r fun it =>
    it.setItemCount (Container.reducedCount it.getItemCount count)) = observe w
  releaseItem : ∀ w r, observe (w.releaseItem r) = observe w

namespace Frame

variable {β : Type*} {pos : Position} {observe : World → β} {env : Env} {w : World}
  {item : ItemRef}

theorem modify (h : Frame pos observe) (f : Tile → Tile) :
    observe (Tile.modify w pos f) = observe w := h.setTile _ _

theorem onAddTileItem (h : Frame pos observe) :
    observe (Tile.onAddTileItem env w pos item) = observe w := h.modify _

theorem onRemoveTileItem (h : Frame pos observe) :
    observe (Tile.onRemoveTileItem env w pos item) = observe w :=
  (h.untraded (untraded_notify _ _ fun w p => untraded_onRemoveTileItem w p item)).trans
    (h.modify _)

theorem onUpdateTileItem (h : Frame pos observe) {newItem : ItemRef} :
    observe (Tile.onUpdateTileItem env w pos item newItem) = observe w :=
  h.untraded (untraded_notify _ _ fun w p => untraded_onUpdateTileItem w p item newItem)

theorem removeThing (h : Frame pos observe) {count : Nat} :
    observe (Tile.removeThing env w pos item count) = observe w := by
  unfold Tile.removeThing
  dsimp only
  split_ifs <;>
    simp [h.onRemoveTileItem, h.onUpdateTileItem, h.setTile, h.setParent, h.reduce]

theorem discard (h : Frame pos observe) :
    observe (Tile.discard env w pos item) = observe w := by
  rw [Tile.discard, h.releaseItem, h.setParent, h.removeThing]

theorem addGround (h : Frame pos observe) :
    observe (Tile.addGround env w pos item) = observe w := by
  unfold Tile.addGround
  dsimp only
  split
  · rw [h.onAddTileItem, h.setTile]
  · rw [h.onUpdateTileItem, h.modify, h.setTile, h.releaseItem, h.setParent]

theorem addTopItem (h : Frame pos observe) :
    observe (Tile.addTopItem env w pos item) = observe w := by
  unfold Tile.addTopItem
  dsimp only
  rw [h.onAddTileItem, h.setTile]
  split
  · rfl
  · exact h.discard

theorem addDownItem (h : Frame pos observe) :
    observe (Tile.addDownItem env w pos item) = observe w :=
  h.onAddTileItem.trans (h.setTile _ _)

theorem addThing (h : Frame pos observe) :
    observe (Tile.addThing env w pos item) = observe w := by
  unfold Tile.addThing
  dsimp only
  split_ifs
  · rfl
  · rw [h.addGround, h.setParent]
  · rw [h.addTopItem, h.setParent]
  · split
    · rw [h.addDownItem, h.setParent]
    · split_ifs
      · rw [h.addDownItem, h.discard, h.setParent]
      · rw [h.releaseItem, h.setParent, h.setParent]
  · rw [h.addDownItem, h.setParent]

/-- An observation that does not show the type and the subtype of items either. -/
theorem updateThing (h : Frame pos observe) {itemId count : Nat}
    (hretype : ∀ w, observe (w.modifyItem item fun it =>
      (it.setID env.items itemId).setSubType env.items count) = observe w) :
    observe (Tile.updateThing env w pos item itemId count) = observe w := by
  unfold Tile.updateThing
  dsimp only
  split_ifs
  · rfl
  · rw [h.onUpdateTileItem, h.modify, hretype, h.modify]

end Frame

end Eloth.Tile
