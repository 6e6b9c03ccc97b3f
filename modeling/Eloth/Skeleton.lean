import Eloth.TradeState

/-!
# The skeleton of the world

The world without its caches: the total weights of the containers, the carried weights of the
players, and the trade table. What an operation does to the items and to their places can be
read off the skeletons alone.
-/

namespace Eloth

def Item.unweighted (item : Item) : Item :=
  match item.cls with
  | .container c => { item with cls := .container { c with totalWeight := 0 } }
  | _ => item

namespace Item

variable (item : Item)

@[simp] theorem unweighted_parent : item.unweighted.parent = item.parent := by
  unfold unweighted
  split <;> rfl

@[simp] theorem unweighted_id : item.unweighted.id = item.id := by
  unfold unweighted
  split <;> rfl

@[simp] theorem unweighted_count : item.unweighted.count = item.count := by
  unfold unweighted
  split <;> rfl

@[simp] theorem unweighted_attributes : item.unweighted.attributes = item.attributes := by
  unfold unweighted
  split <;> rfl

theorem unweighted_getContainer :
    item.unweighted.getContainer = item.getContainer.map fun c => { c with totalWeight := 0 } := by
  unfold unweighted getContainer
  cases hcls : item.cls <;> simp [hcls]

end Item

def World.skeleton (w : World) : World :=
  { w.untraded with
    item := fun r => (w.item r).unweighted
    player := fun p => { w.player p with inventoryWeight := 0 } }

theorem skeleton_of_untraded {w w' : World} (h : w'.untraded = w.untraded) :
    w'.skeleton = w.skeleton := by
  unfold World.skeleton
  rw [h, item_of_untraded h, player_of_untraded h]

theorem skeleton_notify (w : World) (players : List PlayerId) {event : World → PlayerId → World}
    (h : ∀ w p, (event w p).untraded = w.untraded) :
    (w.notify players event).skeleton = w.skeleton :=
  skeleton_of_untraded (untraded_notify w players h)

theorem skeleton_modifyItem {w : World} {r : ItemRef} {f : Item → Item}
    (h : (f (w.item r)).unweighted = (w.item r).unweighted) :
    (w.modifyItem r f).skeleton = w.skeleton := by
  have hitem : (fun x => ((w.modifyItem r f).item x).unweighted) =
      fun x => (w.item x).unweighted := by
    funext x
    rw [World.modifyItem_item]
    split_ifs with hx
    · rw [hx, h]
    · rfl
  have : (w.modifyItem r f).skeleton =
      { w.skeleton with item := fun x => ((w.modifyItem r f).item x).unweighted } := rfl
  rw [this, hitem]
  rfl

section Skeleton

variable {w w' : World} (h : w'.skeleton = w.skeleton)

include h

theorem item_of_skeleton (r : ItemRef) : (w'.item r).unweighted = (w.item r).unweighted :=
  congrFun (congrArg World.item h :) r

theorem parent_of_skeleton (r : ItemRef) : (w'.item r).parent = (w.item r).parent := by
  simpa using congrArg Item.parent (item_of_skeleton h r)

theorem id_of_skeleton (r : ItemRef) : (w'.item r).id = (w.item r).id := by
  simpa using congrArg Item.id (item_of_skeleton h r)

theorem count_of_skeleton (r : ItemRef) : (w'.item r).count = (w.item r).count := by
  simpa using congrArg Item.count (item_of_skeleton h r)

theorem attributes_of_skeleton (r : ItemRef) :
    (w'.item r).attributes = (w.item r).attributes := by
  simpa using congrArg Item.attributes (item_of_skeleton h r)

theorem getContainer_of_skeleton (r : ItemRef) :
    (w'.item r).getContainer.map (fun c => { c with totalWeight := 0 }) =
      (w.item r).getContainer.map fun c => { c with totalWeight := 0 } := by
  simpa only [Item.unweighted_getContainer] using
    congrArg Item.getContainer (item_of_skeleton h r)

theorem isContainer_of_skeleton (r : ItemRef) : w'.isContainer r = w.isContainer r := by
  simpa [World.isContainer] using congrArg Option.isSome (getContainer_of_skeleton h r)

theorem container_of_skeleton (r : ItemRef) :
    { w'.container r with totalWeight := 0 } = { w.container r with totalWeight := 0 } := by
  have hc := getContainer_of_skeleton h r
  unfold World.container
  cases h' : (w'.item r).getContainer <;> cases h0 : (w.item r).getContainer <;>
    simp_all

theorem itemlist_of_skeleton (r : ItemRef) : w'.itemlist r = w.itemlist r :=
  (congrArg Container.itemlist (container_of_skeleton h r) :)

theorem capacity_of_skeleton (r : ItemRef) :
    (w'.container r).capacity = (w.container r).capacity :=
  (congrArg Container.maxSize (container_of_skeleton h r) :)

theorem next_of_skeleton : w'.next = w.next := (congrArg World.next h :)

theorem inventory_of_skeleton (p : PlayerId) :
    (w'.player p).inventory = (w.player p).inventory :=
  (congrArg Player.inventory (congrFun (congrArg World.player h :) p) :)

theorem tile_of_skeleton : w'.tile = w.tile := (congrArg World.tile h :)

theorem getParentContainer_of_skeleton : w'.getParentContainer = w.getParentContainer := by
  funext r
  unfold World.getParentContainer
  rw [parent_of_skeleton h]

theorem ownWeight_of_skeleton (env : Env) (r : ItemRef) :
    (w'.item r).ownWeight env.items = (w.item r).ownWeight env.items := by
  unfold Item.ownWeight Item.isStackable Item.getBaseWeight Item.hasAttribute Item.getIntAttr
    Item.attr Item.getItemCount
  rw [id_of_skeleton h, count_of_skeleton h, attributes_of_skeleton h]

end Skeleton

end Eloth
