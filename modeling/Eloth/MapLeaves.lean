import Mathlib.Data.List.Nodup
import Eloth.Map
import Eloth.Lib.Links

/-!
# The leaves of the map

What a new tile does to the leaves: it reaches the leaf of its square, creates it if there is
none, and links it with the leaves beside it.
-/

namespace Eloth

namespace QTreeLeafNode

variable {isPlayer : CreatureId → Bool} {node : QTreeLeafNode} {c : CreatureId}

@[simp] theorem addCreature_array : (node.addCreature isPlayer c).array = node.array := rfl
@[simp] theorem addCreature_leafE : (node.addCreature isPlayer c).leafE = node.leafE := rfl
@[simp] theorem addCreature_leafS : (node.addCreature isPlayer c).leafS = node.leafS := rfl
@[simp] theorem removeCreature_array : (node.removeCreature isPlayer c).array = node.array := rfl
@[simp] theorem removeCreature_leafE : (node.removeCreature isPlayer c).leafE = node.leafE := rfl
@[simp] theorem removeCreature_leafS : (node.removeCreature isPlayer c).leafS = node.leafS := rfl

end QTreeLeafNode

namespace Map

open QTreeNode (cell)

variable {m : Map} {isPlayer : CreatureId → Bool}

/-! ### Writes to the leaves -/

theorem updateLeaf_leaves (leaf r : LeafRef) (f : QTreeLeafNode → QTreeLeafNode) :
    (m.updateLeaf leaf f).leaves r = if leaf = r then f (m.leaves r) else m.leaves r := by
  by_cases h : leaf = r
  · subst h
    simp [updateLeaf]
  · simp [updateLeaf, h, Ne.symm h]

theorem updateLeaf?_leaves (leaf : Option LeafRef) (r : LeafRef)
    (f : QTreeLeafNode → QTreeLeafNode) :
    (m.updateLeaf? leaf f).leaves r = if leaf = some r then f (m.leaves r) else m.leaves r := by
  cases leaf with
  | none => simp [updateLeaf?]
  | some leaf => simp [updateLeaf?, updateLeaf_leaves]

@[simp] theorem updateLeaf_root (leaf : LeafRef) (f : QTreeLeafNode → QTreeLeafNode) :
    (m.updateLeaf leaf f).root = m.root := rfl

@[simp] theorem updateLeaf?_root (leaf : Option LeafRef) (f : QTreeLeafNode → QTreeLeafNode) :
    (m.updateLeaf? leaf f).root = m.root := by cases leaf <;> rfl

@[simp] theorem updateLeaf?_nextLeaf (leaf : Option LeafRef)
    (f : QTreeLeafNode → QTreeLeafNode) :
    (m.updateLeaf? leaf f).nextLeaf = m.nextLeaf := by cases leaf <;> rfl

@[simp] theorem updateLeaf?_position (leaf : Option LeafRef)
    (f : QTreeLeafNode → QTreeLeafNode) :
    (m.updateLeaf? leaf f).position = m.position := by cases leaf <;> rfl

@[simp] theorem updateLeaf?_creatures (leaf : Option LeafRef)
    (f : QTreeLeafNode → QTreeLeafNode) :
    (m.updateLeaf? leaf f).creatures = m.creatures := by cases leaf <;> rfl

/-! ### Links -/

/-- Every leaf lies at an address of its own and is linked with the leaves beside it. -/
structure Linked (m : Map) : Prop where
  lt : ∀ {x y r}, m.root.getLeaf x y = some r → r < m.nextLeaf
  inj : ∀ {x y x' y' r}, m.root.getLeaf x y = some r → m.root.getLeaf x' y' = some r →
    cell x = cell x' ∧ cell y = cell y'
  leafE : ∀ {x y r}, m.root.getLeaf x y = some r → (m.leaves r).leafE = m.root.getLeaf (x + 8) y
  leafS : ∀ {x y r}, m.root.getLeaf x y = some r → (m.leaves r).leafS = m.root.getLeaf x (y + 8)

theorem getLeaf_empty (x y : UInt32) : empty.root.getLeaf x y = none := by
  rw [QTreeNode.getLeaf_eq_find]
  exact Trie.find_null _

theorem linked_empty : Linked empty := by
  constructor <;> intros <;> simp_all [getLeaf_empty]

theorem Linked.of_eq {m' : Map} (h : Linked m)
    (hroot : ∀ x y, m'.root.getLeaf x y = m.root.getLeaf x y) (hnext : m'.nextLeaf = m.nextLeaf)
    (hE : ∀ r, (m'.leaves r).leafE = (m.leaves r).leafE)
    (hS : ∀ r, (m'.leaves r).leafS = (m.leaves r).leafS) : Linked m' := by
  constructor
  · simp only [hroot, hnext]; exact h.lt
  · simp only [hroot]; exact h.inj
  · simp only [hroot, hE]; exact h.leafE
  · simp only [hroot, hS]; exact h.leafS

theorem linkLeaf_fields (x y : UInt32) (leaf : LeafRef) :
    (m.linkLeaf x y leaf).root = m.root ∧ (m.linkLeaf x y leaf).nextLeaf = m.nextLeaf ∧
      (m.linkLeaf x y leaf).position = m.position ∧
      (m.linkLeaf x y leaf).creatures = m.creatures := by
  simp only [linkLeaf]
  cases m.root.getLeaf x (y + 8) <;> cases m.root.getLeaf (x + 8) y <;>
    simp [updateLeaf]

theorem linkLeaf_contents (x y : UInt32) (leaf r : LeafRef) :
    ((m.linkLeaf x y leaf).leaves r).array = (m.leaves r).array ∧
      ((m.linkLeaf x y leaf).leaves r).creature_list = (m.leaves r).creature_list ∧
      ((m.linkLeaf x y leaf).leaves r).player_list = (m.leaves r).player_list := by
  simp only [linkLeaf]
  cases m.root.getLeaf x (y + 8) <;> cases m.root.getLeaf (x + 8) y <;>
    simp only [updateLeaf_leaves, updateLeaf?_leaves] <;> grind

theorem linkLeaf_leafE (x y : UInt32) (leaf r : LeafRef) :
    ((m.linkLeaf x y leaf).leaves r).leafE =
      if r = leaf ∧ (m.root.getLeaf (x + 8) y).isSome then m.root.getLeaf (x + 8) y
      else if m.root.getLeaf (x - 8) y = some r then some leaf else (m.leaves r).leafE := by
  simp only [linkLeaf]
  cases m.root.getLeaf x (y + 8) <;> cases m.root.getLeaf (x + 8) y <;>
    simp only [updateLeaf_leaves, updateLeaf?_leaves] <;> grind

theorem linkLeaf_leafS (x y : UInt32) (leaf r : LeafRef) :
    ((m.linkLeaf x y leaf).leaves r).leafS =
      if r = leaf ∧ (m.root.getLeaf x (y + 8)).isSome then m.root.getLeaf x (y + 8)
      else if m.root.getLeaf x (y - 8) = some r then some leaf else (m.leaves r).leafS := by
  simp only [linkLeaf]
  cases m.root.getLeaf x (y + 8) <;> cases m.root.getLeaf (x + 8) y <;>
    simp only [updateLeaf_leaves, updateLeaf?_leaves] <;> grind

/-! ### Reaching a leaf -/

theorem reachLeaf_snd (x y : UInt32) :
    (m.reachLeaf x y).2 = (m.root.getLeaf x y).getD m.nextLeaf := by
  simp only [reachLeaf, QTreeNode.createLeaf_eq]
  split_ifs <;> rfl

theorem reachLeaf_getLeaf (x y x' y' : UInt32) : (m.reachLeaf x y).1.root.getLeaf x' y' =
    if cell x = cell x' ∧ cell y = cell y' then some (m.reachLeaf x y).2
    else m.root.getLeaf x' y' := by
  rw [reachLeaf_snd, ← QTreeNode.getLeaf_createLeaf]
  simp only [reachLeaf]
  split_ifs
  · rw [(linkLeaf_fields _ _ _).1]
  · rfl

theorem reachLeaf_position (x y : UInt32) : (m.reachLeaf x y).1.position = m.position := by
  simp only [reachLeaf]
  split_ifs
  · rw [(linkLeaf_fields _ _ _).2.2.1]
  · rfl

theorem reachLeaf_creatures (x y : UInt32) : (m.reachLeaf x y).1.creatures = m.creatures := by
  simp only [reachLeaf]
  split_ifs
  · rw [(linkLeaf_fields _ _ _).2.2.2]
  · rfl

theorem reachLeaf_of_some {x y : UInt32} {leaf : LeafRef} (h : m.root.getLeaf x y = some leaf) :
    (m.reachLeaf x y).1.leaves = m.leaves ∧ (m.reachLeaf x y).1.nextLeaf = m.nextLeaf ∧
      ∀ x' y', (m.reachLeaf x y).1.root.getLeaf x' y' = m.root.getLeaf x' y' := by
  have hold : m.reachLeaf x y =
      ({ m with root := (QTreeNode.createLeaf m.nextLeaf m.root x y).1 }, leaf) := by
    simp [reachLeaf, QTreeNode.createLeaf_eq, h]
  refine ⟨by rw [hold], by rw [hold], fun x' y' => ?_⟩
  rw [reachLeaf_getLeaf, hold]
  split_ifs with hcell
  · rw [← h]
    exact QTreeNode.getLeaf_congr _ hcell.1 hcell.2
  · rfl

def withLeaf (m : Map) (x y : UInt32) : Map :=
  { m with
    root := (QTreeNode.createLeaf m.nextLeaf m.root x y).1
    leaves := Function.update m.leaves m.nextLeaf {}
    nextLeaf := m.nextLeaf + 1 }

theorem reachLeaf_of_none {x y : UInt32} (h : m.root.getLeaf x y = none) :
    m.reachLeaf x y = ((m.withLeaf x y).linkLeaf x y m.nextLeaf, m.nextLeaf) := by
  simp [reachLeaf, withLeaf, QTreeNode.createLeaf_eq, h]

theorem withLeaf_getLeaf {x y : UInt32} (h : m.root.getLeaf x y = none) (x' y' : UInt32) :
    (m.withLeaf x y).root.getLeaf x' y' =
      if cell x = cell x' ∧ cell y = cell y' then some m.nextLeaf
      else m.root.getLeaf x' y' := by
  simp only [withLeaf, QTreeNode.getLeaf_createLeaf, h, Option.getD_none]

theorem cell_add_eight (x : UInt32) : cell (x + 8) = (cell x + 1) % 8192 := by
  have hx := x.toNat_lt
  simp only [cell, UInt32.toNat_add, UInt32.reduceToNat]
  omega

theorem cell_sub_eight (x : UInt32) : (cell (x - 8) + 1) % 8192 = cell x := by
  have hx := x.toNat_lt
  simp only [cell, UInt32.toNat_sub, UInt32.reduceToNat]
  omega

def sameCell (p q : UInt32 × UInt32) : Prop := cell p.1 = cell q.1 ∧ cell p.2 = cell q.2

instance : DecidableRel sameCell := fun _ _ => inferInstanceAs (Decidable (_ ∧ _))

theorem sameCell_equivalence : Equivalence sameCell where
  refl _ := ⟨rfl, rfl⟩
  symm h := ⟨h.1.symm, h.2.symm⟩
  trans h h' := ⟨h.1.trans h'.1, h.2.trans h'.2⟩

theorem cell_add_eq_iff (x x' : UInt32) : cell (x + 8) = cell x' ↔ cell x = cell (x' - 8) := by
  have h₁ := cell_add_eight x
  have h₂ := cell_sub_eight x'
  have hlt : cell x < 8192 := Nat.mod_lt _ (by decide)
  have hlt' : cell (x' - 8) < 8192 := Nat.mod_lt _ (by decide)
  omega

theorem cell_ne_add (x : UInt32) : cell x ≠ cell (x + 8) := by
  have h := cell_add_eight x
  have hlt : cell x < 8192 := Nat.mod_lt _ (by decide)
  omega

theorem neighbours_east :
    Links.Neighbours sameCell (fun p => (p.1 + 8, p.2)) (fun p => (p.1 - 8, p.2)) where
  equiv := sameCell_equivalence
  adjoint p q := by simp only [sameCell, cell_add_eq_iff]
  next_ne p h := cell_ne_add p.1 h.1

theorem neighbours_south :
    Links.Neighbours sameCell (fun p => (p.1, p.2 + 8)) (fun p => (p.1, p.2 - 8)) where
  equiv := sameCell_equivalence
  adjoint p q := by simp only [sameCell, cell_add_eq_iff]
  next_ne p h := cell_ne_add p.2 h.2

theorem Linked.placed (h : Linked m) :
    Links.Placed sameCell fun p => m.root.getLeaf p.1 p.2 where
  congr hp := QTreeNode.getLeaf_congr _ hp.1 hp.2
  inj hp hq := h.inj hp hq

theorem Linked.withLeaf_link (h : Linked m) {x y : UInt32} (hnone : m.root.getLeaf x y = none) :
    Linked ((m.withLeaf x y).linkLeaf x y m.nextLeaf) := by
  obtain ⟨hroot, hnext, -, -⟩ := linkLeaf_fields (m := m.withLeaf x y) x y m.nextLeaf
  have hfresh (p : UInt32 × UInt32) : m.root.getLeaf p.1 p.2 ≠ some m.nextLeaf :=
    fun hp => Nat.lt_irrefl _ (h.lt hp)
  have hget (p : UInt32 × UInt32) : (m.withLeaf x y).root.getLeaf p.1 p.2 =
      if sameCell (x, y) p then some m.nextLeaf else m.root.getLeaf p.1 p.2 :=
    withLeaf_getLeaf hnone p.1 p.2
  have hleaves (r : LeafRef) :
      (m.withLeaf x y).leaves r = if r = m.nextLeaf then {} else m.leaves r := by
    by_cases hr : r = m.nextLeaf
    · simp [withLeaf, hr]
    · simp [withLeaf, hr]
  constructor
  · intro x' y' r hr
    rw [hroot, withLeaf_getLeaf hnone] at hr
    rw [hnext]
    split_ifs at hr with hcell
    · cases hr
      exact Nat.lt_succ_self _
    · exact Nat.lt_succ_of_lt (h.lt hr)
  · intro x₁ y₁ x₂ y₂ r h₁ h₂
    rw [hroot, withLeaf_getLeaf hnone] at h₁ h₂
    split_ifs at h₁ h₂ with hcell₁ hcell₂ hcell₂
    · exact ⟨hcell₁.1.symm.trans hcell₂.1, hcell₁.2.symm.trans hcell₂.2⟩
    · exact absurd (h₂.trans h₁.symm) (hfresh (x₂, y₂))
    · exact absurd (h₁.trans h₂.symm) (hfresh (x₁, y₁))
    · exact h.inj h₁ h₂
  · intro x' y' r hr
    rw [hroot] at hr ⊢
    have hlink (r : LeafRef) : (((m.withLeaf x y).linkLeaf x y m.nextLeaf).leaves r).leafE =
        if r = m.nextLeaf ∧ ((m.withLeaf x y).root.getLeaf (x + 8) y).isSome
        then (m.withLeaf x y).root.getLeaf (x + 8) y
        else if (m.withLeaf x y).root.getLeaf (x - 8) y = some r then some m.nextLeaf
        else if r = m.nextLeaf then none else (m.leaves r).leafE := by
      rw [linkLeaf_leafE, hleaves, apply_ite QTreeLeafNode.leafE]
    exact Links.relink neighbours_east h.placed hfresh hget (fun hp => h.leafE hp) hlink
      (p := (x', y')) hr
  · intro x' y' r hr
    rw [hroot] at hr ⊢
    have hlink (r : LeafRef) : (((m.withLeaf x y).linkLeaf x y m.nextLeaf).leaves r).leafS =
        if r = m.nextLeaf ∧ ((m.withLeaf x y).root.getLeaf x (y + 8)).isSome
        then (m.withLeaf x y).root.getLeaf x (y + 8)
        else if (m.withLeaf x y).root.getLeaf x (y - 8) = some r then some m.nextLeaf
        else if r = m.nextLeaf then none else (m.leaves r).leafS := by
      rw [linkLeaf_leafS, hleaves, apply_ite QTreeLeafNode.leafS]
    exact Links.relink neighbours_south h.placed hfresh hget (fun hp => h.leafS hp) hlink
      (p := (x', y')) hr

theorem Linked.reachLeaf (h : Linked m) (x y : UInt32) : Linked (m.reachLeaf x y).1 := by
  cases hleaf : m.root.getLeaf x y with
  | none =>
    rw [reachLeaf_of_none hleaf]
    exact h.withLeaf_link hleaf
  | some leaf =>
    obtain ⟨hleaves, hnext, hroot⟩ := reachLeaf_of_some hleaf
    exact h.of_eq hroot hnext (fun r => by rw [hleaves]) (fun r => by rw [hleaves])

/-- What a leaf object holds. -/
def contents (m : Map) (leaf : LeafRef) :
    (UInt8 → Option Floor) × List CreatureId × List CreatureId :=
  ((m.leaves leaf).array, (m.leaves leaf).creature_list, (m.leaves leaf).player_list)

theorem reachLeaf_contents (x y : UInt32) (r : LeafRef) : (m.reachLeaf x y).1.contents r =
    if (m.root.getLeaf x y).isNone ∧ r = m.nextLeaf then (fun _ => none, [], [])
    else m.contents r := by
  cases hleaf : m.root.getLeaf x y with
  | none =>
    rw [reachLeaf_of_none hleaf]
    obtain ⟨h₁, h₂, h₃⟩ := linkLeaf_contents (m := m.withLeaf x y) x y m.nextLeaf r
    simp only [contents, h₁, h₂, h₃]
    by_cases hr : r = m.nextLeaf
    · simp [withLeaf, hr]
    · simp [withLeaf, hr]
  | some leaf =>
    simp [contents, (reachLeaf_of_some hleaf).1]

/-! ### Tiles -/

theorem createFloor_tile (node : QTreeLeafNode) (x' y' : UInt16) (z z' : UInt8) :
    (node.createFloor z).tile x' y' z' = node.tile x' y' z' := by
  cases harray : node.array z with
  | some floor => simp [QTreeLeafNode.createFloor, harray]
  | none =>
    by_cases hz : z' = z
    · subst hz
      simp [QTreeLeafNode.createFloor, QTreeLeafNode.tile, harray]
    · simp [QTreeLeafNode.createFloor, QTreeLeafNode.tile, harray, hz]

theorem placeTile_tile (node : QTreeLeafNode) (x y x' y' : UInt16) (z z' : UInt8)
    (t : TileRef) : ((node.createFloor z).placeTile x y z t).tile x' y' z' =
      if z = z' ∧ x &&& 7 = x' &&& 7 ∧ y &&& 7 = y' &&& 7 then some ((node.tile x y z).getD t)
      else node.tile x' y' z' := by
  rw [← createFloor_tile node x y z z, ← createFloor_tile node x' y' z z']
  have hfloor : ((node.createFloor z).array z).isSome := by
    cases harray : node.array z <;> simp [QTreeLeafNode.createFloor, harray]
  obtain ⟨floor, hfloor⟩ := Option.isSome_iff_exists.mp hfloor
  generalize node.createFloor z = node' at hfloor
  by_cases hz : z = z'
  · subst hz
    cases htile : floor (x &&& 7) (y &&& 7) with
    | some t' =>
      simp only [QTreeLeafNode.placeTile, QTreeLeafNode.tile, hfloor, htile]
      split_ifs with h
      · rw [← h.2.1, ← h.2.2, htile]
        rfl
      · rfl
    | none =>
      simp only [QTreeLeafNode.placeTile, QTreeLeafNode.tile, hfloor, htile,
        Function.update_self, true_and, Option.getD_none]
      by_cases hx : x &&& 7 = x' &&& 7
      · by_cases hy : y &&& 7 = y' &&& 7
        · simp [← hx, ← hy]
        · simp [← hx, hy, Function.update_of_ne (Ne.symm hy)]
      · simp [hx, Function.update_of_ne (Ne.symm hx)]
  · simp only [hz, false_and, if_false]
    cases htile : floor (x &&& 7) (y &&& 7) with
    | some t' => simp [QTreeLeafNode.placeTile, hfloor, htile]
    | none =>
      simp [QTreeLeafNode.placeTile, QTreeLeafNode.tile, hfloor, htile,
        Function.update_of_ne (Ne.symm hz)]

theorem getTile_eq (x y : UInt16) (z : UInt8) : m.getTile x y z =
    if MAP_MAX_LAYERS ≤ z.toNat then none
    else (m.root.getLeaf x.toUInt32 y.toUInt32).bind fun leaf => (m.leaves leaf).tile x y z := by
  simp only [getTile, QTreeNode.getLeafStatic_eq_getLeaf]
  cases m.root.getLeaf x.toUInt32 y.toUInt32 <;> rfl

theorem coordinate_eq {x x' : UInt16} (hcell : cell x.toUInt32 = cell x'.toUInt32)
    (hmask : x &&& 7 = x' &&& 7) : x = x' := by
  have hx := x.toNat_lt
  have hx' := x'.toNat_lt
  have hand : x.toNat % 8 = x'.toNat % 8 := by
    have h := congrArg UInt16.toNat hmask
    simpa only [UInt16.toNat_and, UInt16.reduceToNat, Nat.and_two_pow_sub_one_eq_mod _ 3] using h
  simp only [cell, UInt16.toNat_toUInt32] at hcell
  apply UInt16.toNat_inj.mp
  omega

theorem reachLeaf_tile (x y : UInt32) (r : LeafRef) :
    ((m.reachLeaf x y).1.leaves r).tile =
      if (m.root.getLeaf x y).isNone ∧ r = m.nextLeaf then fun _ _ _ => none
      else (m.leaves r).tile := by
  have harray : ((m.reachLeaf x y).1.leaves r).array =
      if (m.root.getLeaf x y).isNone ∧ r = m.nextLeaf then fun _ => none
      else (m.leaves r).array := by
    have h := congrArg Prod.fst (reachLeaf_contents (m := m) x y r)
    rwa [apply_ite Prod.fst] at h
  funext a b c
  simp only [QTreeLeafNode.tile, harray]
  split_ifs <;> rfl

theorem reachLeaf_tile_self (x y : UInt32) (a b : UInt16) (c : UInt8) :
    ((m.reachLeaf x y).1.leaves (m.reachLeaf x y).2).tile a b c =
      (m.root.getLeaf x y).bind fun leaf => (m.leaves leaf).tile a b c := by
  rw [reachLeaf_tile, reachLeaf_snd]
  cases m.root.getLeaf x y <;> simp

theorem Linked.ne_reachLeaf (h : Linked m) {x y x' y' : UInt32} {r : LeafRef}
    (hr : m.root.getLeaf x' y' = some r) (hcell : ¬(cell x = cell x' ∧ cell y = cell y')) :
    (m.reachLeaf x y).2 ≠ r := by
  rw [reachLeaf_snd]
  cases hleaf : m.root.getLeaf x y with
  | none => exact fun heq => Nat.lt_irrefl _ (heq ▸ h.lt hr)
  | some leaf => exact fun heq => hcell (h.inj hleaf (hr.trans (congrArg some heq.symm)))

theorem getTile_setTile (h : Linked m) (x y x' y' : UInt16) (z z' : UInt8) (t : TileRef) :
    (m.setTile x y z t).getTile x' y' z' =
      if (x = x' ∧ y = y' ∧ z = z') ∧ z.toNat < MAP_MAX_LAYERS then
        some ((m.getTile x y z).getD t)
      else m.getTile x' y' z' := by
  by_cases hz : MAP_MAX_LAYERS ≤ z.toNat
  · simp [setTile, hz, Nat.not_lt.mpr hz]
  simp only [setTile, hz, if_false, getTile_eq, updateLeaf_root, updateLeaf_leaves,
    reachLeaf_getLeaf, Nat.not_le.mp hz, and_true]
  by_cases hz' : MAP_MAX_LAYERS ≤ z'.toNat
  · have hne : z ≠ z' := fun heq => hz (heq ▸ hz')
    simp [hz', hne]
  simp only [hz', if_false]
  by_cases hcell : cell x.toUInt32 = cell x'.toUInt32 ∧ cell y.toUInt32 = cell y'.toUInt32
  · have hsame : (z = z' ∧ x &&& 7 = x' &&& 7 ∧ y &&& 7 = y' &&& 7) ↔
        (x = x' ∧ y = y' ∧ z = z') := by
      constructor
      · rintro ⟨rfl, hx, hy⟩
        exact ⟨coordinate_eq hcell.1 hx, coordinate_eq hcell.2 hy, rfl⟩
      · rintro ⟨rfl, rfl, rfl⟩
        exact ⟨rfl, rfl, rfl⟩
    simp only [hcell, and_self, if_true, Option.bind_some, placeTile_tile, reachLeaf_tile_self,
      hsame]
    rw [QTreeNode.getLeaf_congr m.root hcell.1 hcell.2]
  · have hne : ¬(x = x' ∧ y = y' ∧ z = z') := fun heq => hcell ⟨by rw [heq.1], by rw [heq.2.1]⟩
    rw [if_neg hcell, if_neg hne]
    cases hleaf : m.root.getLeaf x'.toUInt32 y'.toUInt32 with
    | none => rfl
    | some r =>
      have hfresh : ¬((m.root.getLeaf x.toUInt32 y.toUInt32).isNone ∧ r = m.nextLeaf) :=
        fun hnew => Nat.lt_irrefl _ (hnew.2 ▸ h.lt hleaf)
      rw [Option.bind_some, Option.bind_some, if_neg (h.ne_reachLeaf hleaf hcell),
        reachLeaf_tile, if_neg hfresh]

theorem placeTile_fields (node : QTreeLeafNode) (x y : UInt16) (z : UInt8) (t : TileRef) :
    ((node.createFloor z).placeTile x y z t).leafE = node.leafE ∧
      ((node.createFloor z).placeTile x y z t).leafS = node.leafS ∧
      ((node.createFloor z).placeTile x y z t).creature_list = node.creature_list ∧
      ((node.createFloor z).placeTile x y z t).player_list = node.player_list := by
  have hfloor : (node.createFloor z).leafE = node.leafE ∧
      (node.createFloor z).leafS = node.leafS ∧
      (node.createFloor z).creature_list = node.creature_list ∧
      (node.createFloor z).player_list = node.player_list := by
    cases harray : node.array z <;> simp [QTreeLeafNode.createFloor, harray]
  generalize node.createFloor z = node' at hfloor
  simp only [QTreeLeafNode.placeTile]
  split
  · exact hfloor
  · split <;> exact hfloor

end Map

end Eloth
