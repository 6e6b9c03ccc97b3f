import Eloth.Holdings
import Eloth.SaleList

/-!
# What a player holds

The items in the slots and in the containers below them. The traversal of the source, slot by slot
and container by container, comes to each of them once.
-/

namespace Eloth

variable {env : Env} {w w' : World} {p : PlayerId} {r c : ItemRef}

/-- The item is in a slot of the player, or in a container that the player holds. -/
inductive World.Held (w : World) (p : PlayerId) : ItemRef → Prop
  | worn {r : ItemRef} (h : r ∈ w.contents (.player p)) : Held w p r
  | inside {c r : ItemRef} (hc : Held w p c) (h : r ∈ w.contents (.container c)) : Held w p r

/-- What the traversal of a slot comes to. -/
def World.heldIn (w : World) (item : ItemRef) : List ItemRef :=
  item :: if w.isContainer item then w.holdingItems item else []

def World.heldItems (w : World) (p : PlayerId) : List ItemRef :=
  (w.contents (.player p)).flatMap w.heldIn

theorem foldItems_eq {β : Type} (f : β → ItemRef → β) (init : β) :
    Player.foldItems w p f init = (w.heldItems p).foldl f init := by
  have hcontents : w.contents (.player p) =
      inventorySlots.filterMap (w.player p).inventory := rfl
  unfold Player.foldItems World.heldItems
  rw [hcontents]
  clear hcontents
  induction inventorySlots generalizing init with
  | nil => rfl
  | cons slot slots ih =>
    rw [List.foldl_cons, ih, List.filterMap_cons]
    cases (w.player p).inventory slot with
    | none => rfl
    | some item =>
      rw [List.flatMap_cons, List.foldl_append]
      unfold World.heldIn
      rw [List.foldl_cons]
      dsimp only
      split_ifs <;> rfl

section Traversal

variable (hw : Housed w)

include hw

theorem nested_subContainers : Worklist.Nested w.subContainers w.getParentContainer where
  parent a b hb := by
    have hmem : b ∈ w.contents (.container a) := List.mem_of_mem_filter hb
    unfold World.getParentContainer
    rw [hw.parent hmem]
    rfl
  nodup a := (hw.nodup (.container a)).filter _

theorem reach_boxes (hr : w.getParentContainer r = none) (hlt : r < w.next) :
    (Worklist.visited w.subContainers w.next [r]).Nodup ∧
      ∀ b, b ∈ Worklist.visited w.subContainers w.next [r] ↔
        Worklist.Reach w.subContainers r b := by
  refine (nested_subContainers hw).visited_root (Finset.range w.next) (fun a b hb => ?_) hr
    (Finset.mem_range.mpr hlt) (Finset.card_range w.next).le
  exact Finset.mem_range.mpr (hw.lt (List.mem_of_mem_filter hb : b ∈ w.contents (.container a)))

theorem getParentContainer_of_worn (h : r ∈ w.contents (.player p)) :
    w.getParentContainer r = none := by
  unfold World.getParentContainer
  rw [hw.parent h]
  rfl

theorem mem_heldIn (h : r ∈ w.contents (.player p)) (x : ItemRef) :
    x ∈ w.heldIn r ↔
      x = r ∨ ∃ c, Worklist.Reach w.subContainers r c ∧ x ∈ w.contents (.container c) := by
  unfold World.heldIn World.holdingItems
  rw [List.mem_cons]
  refine or_congr_right ?_
  split_ifs with hbox
  · rw [List.mem_flatMap]
    simp only [(reach_boxes hw (getParentContainer_of_worn hw h) (hw.lt h)).2]
    rfl
  · refine ⟨(fun hx => nomatch hx), ?_⟩
    rintro ⟨c, hreach, hx⟩
    -- an item that is no container has nothing inside
    have hnone : ∀ b, b ∉ w.itemlist r := fun b hb => hbox (World.isContainer_of_mem hb)
    rcases Relation.ReflTransGen.cases_head hreach with rfl | ⟨b, hb, -⟩
    · exact absurd hx (hnone x)
    · exact absurd (List.mem_of_mem_filter hb) (hnone b)

theorem mem_heldItems : r ∈ w.heldItems p ↔ w.Held p r := by
  unfold World.heldItems
  rw [List.mem_flatMap]
  constructor
  · rintro ⟨item, hitem, hr⟩
    rcases (mem_heldIn hw hitem r).mp hr with rfl | ⟨c, hreach, hmem⟩
    · exact .worn hitem
    · refine .inside ?_ hmem
      clear hmem
      induction hreach with
      | refl => exact .worn hitem
      | tail _ hb ih => exact .inside ih (List.mem_of_mem_filter hb)
  · intro h
    induction h with
    | worn h => exact ⟨_, h, List.mem_cons_self⟩
    | @inside c r _ hr ih =>
      obtain ⟨item, hitem, hc⟩ := ih
      refine ⟨item, hitem, (mem_heldIn hw hitem r).mpr (.inr ⟨c, ?_, hr⟩)⟩
      rcases (mem_heldIn hw hitem c).mp hc with rfl | ⟨x, hreach, hmem⟩
      · exact .refl
      · exact .tail hreach (List.mem_filter.mpr ⟨hmem, World.isContainer_of_mem hr⟩)

theorem nodup_heldIn (h : r ∈ w.contents (.player p)) : (w.heldIn r).Nodup := by
  have hroot := getParentContainer_of_worn hw h
  have hinside : ∀ c, r ∉ w.contents (.container c) := fun c hc => nomatch hw.one_place h hc
  unfold World.heldIn
  refine List.nodup_cons.mpr ⟨fun hmem => ?_, ?_⟩
  · split_ifs at hmem
    · obtain ⟨c, -, hc⟩ := List.mem_flatMap.mp hmem
      exact hinside c hc
    · cases hmem
  · split_ifs
    · refine List.nodup_flatMap.mpr ⟨fun c _ => hw.nodup (.container c), ?_⟩
      refine (reach_boxes hw hroot (hw.lt h)).1.imp fun hne => ?_
      intro x hx hx'
      exact hne (Cylinder.container.inj (hw.one_place (show x ∈ w.contents (.container _) from hx)
        (show x ∈ w.contents (.container _) from hx')))
    · exact List.nodup_nil

/-- The traversal comes to each item that the player holds once. -/
theorem nodup_heldItems : (w.heldItems p).Nodup := by
  refine List.nodup_flatMap.mpr ⟨fun r hr => nodup_heldIn hw hr, ?_⟩
  refine (hw.nodup (.player p)).imp_of_mem fun {a b} ha hb hne x hxa hxb => ?_
  rcases (mem_heldIn hw ha x).mp hxa with rfl | ⟨c, hac, hxc⟩ <;>
    rcases (mem_heldIn hw hb x).mp hxb with rfl | ⟨d, hbd, hxd⟩
  · exact hne rfl
  · cases hw.one_place ha hxd
  · cases hw.one_place hb hxc
  · obtain rfl := Cylinder.container.inj (hw.one_place hxc hxd)
    exact hne ((nested_subContainers hw).root_unique (getParentContainer_of_worn hw ha)
      (getParentContainer_of_worn hw hb) hac hbd)

end Traversal

end Eloth
