import Eloth.MoveItem

/-!
# Relations that the parts of a move keep

A relation between worlds that every weight refresh, recount and release keeps is kept by the
notifications and the merge of a move. One that the changes of the cylinders keep as well is kept
by an exchange.
-/

namespace Eloth.Game

structure Bookkeeping (env : Env) (R : World → World → Prop) : Prop where
  refl : ∀ w, R w w
  refreshWeight : ∀ w c, R w (Cylinder.refreshWeight env w c)
  recount : ∀ w c item count, R w (Cylinder.updateThing env w c item (w.item item).id count)
  releaseItem : ∀ w r, R w (w.releaseItem r)

structure Carriage (env : Env) (R : World → World → Prop) : Prop extends Bookkeeping env R where
  trans : ∀ {w w₁ w'}, R w w₁ → R w₁ w' → R w w'
  removeThing : ∀ w c item count, R w (Cylinder.removeThing env w c item count)
  addThing : ∀ w c index item, R w (Cylinder.addThing env w c index item)
  addThingAnywhere : ∀ w c item, R w (Cylinder.addThingAnywhere env w c item)

variable {env : Env} {R : World → World → Prop} {w w' : World}

namespace Bookkeeping

theorem ite (h : Bookkeeping env R) (P : Prop) [Decidable P] (hchange : R w w') :
    R w (if P then w' else w) := by
  split_ifs
  · exact hchange
  · exact h.refl w

theorem notifyAdded (h : Bookkeeping env R) (w : World) (dest : Cylinder) (r : Option ItemRef) :
    R w (Game.notifyAdded env dest w r) := by
  cases r with
  | none => exact h.refl w
  | some r => exact h.ite _ (h.refreshWeight w dest)

theorem notifyRemoved (h : Bookkeeping env R) (w : World) (source : Cylinder) (itemIndex : Int) :
    R w (Game.notifyRemoved env source itemIndex w) := h.ite _ (h.refreshWeight w source)

theorem mergeStack (h : Bookkeeping env R) (w : World) (dest : Cylinder) (n : Nat)
    (merged : Option ItemRef) : R w (Game.mergeStack env w dest n merged) := by
  cases merged with
  | none => exact h.refl w
  | some t => exact h.recount w dest t _

theorem releaseRemoved (h : Bookkeeping env R) (w : World) (item : ItemRef) :
    R w (Game.releaseRemoved env w item) := h.ite _ (h.releaseItem w item)

end Bookkeeping

namespace Carriage

theorem addMoved (h : Carriage env R) (w : World) (d : Destination) (moved : Option ItemRef) :
    R w (Game.addMoved env w d moved) := by
  cases moved with
  | none => exact h.refl w
  | some r => exact h.addThing w d.cylinder d.index r

/-- The units are taken off the source and the stack at the destination grows. -/
theorem merged (h : Carriage env R) (w : World) (mv : Move) (dest : Cylinder) (m n : Nat)
    (merged : Option ItemRef) :
    R w (Game.mergeStack env (Cylinder.removeThing env w mv.fromCylinder mv.item m) dest n
      merged) :=
  h.trans (h.removeThing w mv.fromCylinder mv.item m) (h.mergeStack _ dest n merged)

/-- What goes on to the destination is added there and both ends are told. -/
theorem delivered (h : Carriage env R) (w : World) (mv : Move) (d : Destination)
    (itemIndex : Int) (moved merged : Option ItemRef) :
    R w (Game.notifyAdded env d.cylinder (Game.notifyAdded env d.cylinder
      (Game.notifyRemoved env mv.fromCylinder itemIndex
        (Game.addMoved env (Game.releaseRemoved env w mv.item) d moved)) moved) merged) := by
  have hadded := h.trans (h.releaseRemoved w mv.item) (h.addMoved _ d moved)
  have htold := h.trans hadded (h.notifyRemoved _ mv.fromCylinder itemIndex)
  exact h.trans (h.trans htold (h.notifyAdded _ d.cylinder moved)) (h.notifyAdded _ d.cylinder merged)

theorem exchange (h : Carriage env R) (w : World) (mv : Move) (toItem : ItemRef)
    (dest : Cylinder) : R w (Game.exchange env w mv toItem dest) := by
  unfold Game.exchange
  dsimp only
  have hcarried := h.trans (h.removeThing w dest toItem (w.item toItem).getItemCount)
    (h.addThingAnywhere _ mv.fromCylinder toItem)
  have htold := h.trans hcarried (h.ite (Cylinder.getThingIndex env w dest toItem ≠ -1)
    (h.refreshWeight _ dest))
  exact h.trans htold (h.ite _ (h.refreshWeight _ mv.fromCylinder))

theorem tryAdmit (h : Carriage env R) {mv : Move} {d : Destination} {ret : ReturnValue}
    {admitted : Admission} (hjoined : Game.tryAdmit env w mv d = some (ret, admitted)) :
    R w admitted.world := by
  unfold Game.tryAdmit at hjoined
  dsimp only at hjoined
  split_ifs at hjoined with hret
  · obtain ⟨-, rfl⟩ := Prod.mk.inj (Option.some.inj hjoined)
    exact h.refl w
  · obtain ⟨toItem, -, hjoins⟩ := Option.map_eq_some_iff.mp hjoined
    split_ifs at hjoins <;> obtain ⟨-, rfl⟩ := Prod.mk.inj hjoins
    all_goals first | exact h.refl w | exact h.exchange w mv toItem d.cylinder

end Carriage

end Eloth.Game
