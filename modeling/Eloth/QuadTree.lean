import Mathlib.Data.Nat.Bitwise
import Mathlib.Data.Fin.Basic
import Eloth.Lib.Trie

/-!
# The quadtree of the map

The leaves of the map lie under an inner node for each of the upper thirteen bits of their
coordinates. Two coordinates share a leaf when they lie in one square of eight by eight, and the
coordinates wrap around at the end of the map.
-/

namespace Eloth

abbrev LeafRef := Nat

abbrev FLOOR_BITS : Nat := 3
abbrev FLOOR_SIZE : Nat := 8

/-- The nodes that lie so many levels above the leaves; `createLeaf` reaches them at a `level`
that is larger by `FLOOR_BITS - 1`. -/
abbrev QTreeNode := Trie (Fin 4) LeafRef

namespace QTreeNode

local instance neZero_children : NeZero 4 := ⟨by decide⟩

def index (x y : UInt32) : Fin 4 :=
  Fin.ofNat 4 (((x &&& 0x8000) >>> 15) ||| ((y &&& 0x8000) >>> 14)).toNat

def getLeaf : {n : Nat} → QTreeNode n → UInt32 → UInt32 → Option LeafRef
  | _, .leaf leaf, _, _ => some leaf
  | _, .null, _, _ => none
  | _, .node child, x, y => getLeaf (child (index x y)) (x <<< 1) (y <<< 1)

def getLeafStatic : {n : Nat} → QTreeNode (n + 1) → UInt32 → UInt32 → Option LeafRef
  | 0, node, x, y =>
    match node.child (index x y) with
    | .null => none
    | .leaf leaf => some leaf
  | _ + 1, node, x, y =>
    match node.child (index x y) with
    | .null => none
    | .node child => getLeafStatic (.node child) (x <<< 1) (y <<< 1)

/-- The tree with the leaf, the leaf, and whether it is new. -/
def createLeaf (fresh : LeafRef) :
    {n : Nat} → QTreeNode n → UInt32 → UInt32 → QTreeNode n × LeafRef × Bool
  | 0, .leaf leaf, _, _ => (.leaf leaf, leaf, false)
  | 0, .null, _, _ => (.leaf fresh, fresh, true)
  | _ + 1, node, x, y =>
    -- a missing child is created by the node above it; the step into it does the same here
    let created := createLeaf fresh (node.child (index x y)) (x * 2) (y * 2)
    (.node (Function.update node.child (index x y) created.1), created.2)

def path : UInt32 → UInt32 → Nat → Fin 4
  | x, y, 0 => index x y
  | x, y, i + 1 => path (x <<< 1) (y <<< 1) i

def cell (x : UInt32) : Nat := x.toNat / 8 % 8192

theorem getLeaf_eq_find {n : Nat} (node : QTreeNode n) (x y : UInt32) :
    node.getLeaf x y = node.find (path x y) := by
  induction n generalizing x y with
  | zero => cases node <;> rfl
  | succ n ih =>
    cases node with
    | null => simp [getLeaf]
    | node child => exact ih _ _ _

theorem getLeafStatic_eq_getLeaf {n : Nat} (node : QTreeNode (n + 1)) (x y : UInt32) :
    node.getLeafStatic x y = node.getLeaf x y := by
  induction n generalizing x y with
  | zero =>
    cases node with
    | null => rfl
    | node child =>
      simp only [getLeafStatic, Trie.child_node, getLeaf]
      cases child (index x y) <;> rfl
  | succ n ih =>
    cases node with
    | null => rfl
    | node child =>
      simp only [getLeafStatic, Trie.child_node, getLeaf]
      cases hchild : child (index x y) with
      | null => rfl
      | node child' => exact ih _ _ _

theorem mul_two_eq_shiftLeft (x : UInt32) : x * 2 = x <<< (1 : UInt32) := by
  apply UInt32.toNat_inj.mp
  simp [UInt32.toNat_shiftLeft, Nat.shiftLeft_eq]

theorem createLeaf_eq (fresh : LeafRef) {n : Nat} (node : QTreeNode n) (x y : UInt32) :
    createLeaf fresh node x y = (node.reach fresh (path x y),
      (node.getLeaf x y).getD fresh, (node.getLeaf x y).isNone) := by
  induction n generalizing x y with
  | zero => cases node <;> rfl
  | succ n ih =>
    simp only [createLeaf, ih, mul_two_eq_shiftLeft]
    rw [getLeaf_eq_find, getLeaf_eq_find]
    rfl

theorem index_val (x y : UInt32) :
    (index x y).val = (x.toNat.testBit 15).toNat + 2 * (y.toNat.testBit 15).toNat := by
  have hand (n : Nat) : n &&& 0x8000 = (n.testBit 15).toNat * 2 ^ 15 := Nat.and_two_pow n 15
  simp only [index, Fin.val_ofNat, UInt32.toNat_or, UInt32.toNat_shiftRight, UInt32.toNat_and]
  change ((x.toNat &&& 0x8000) >>> 15 ||| (y.toNat &&& 0x8000) >>> 14) % 4 = _
  rw [hand, hand]
  cases x.toNat.testBit 15 <;> cases y.toNat.testBit 15 <;> rfl

theorem index_eq_iff (x y x' y' : UInt32) : index x y = index x' y' ↔
    x.toNat.testBit 15 = x'.toNat.testBit 15 ∧ y.toNat.testBit 15 = y'.toNat.testBit 15 := by
  rw [Fin.ext_iff, index_val, index_val]
  cases x.toNat.testBit 15 <;> cases y.toNat.testBit 15 <;>
    cases x'.toNat.testBit 15 <;> cases y'.toNat.testBit 15 <;> decide

theorem testBit_shiftLeft_one (x : UInt32) (i : Nat) (h : i < 31) :
    (x <<< (1 : UInt32)).toNat.testBit (i + 1) = x.toNat.testBit i := by
  have hval : (x <<< (1 : UInt32)).toNat = x.toNat * 2 ^ 1 % 2 ^ 32 := by
    simp [UInt32.toNat_shiftLeft, Nat.shiftLeft_eq]
  rw [hval, Nat.testBit_mod_two_pow, Nat.testBit_mul_two_pow]
  simp [show i + 1 < 32 by omega]

theorem path_eq_iff (x y x' y' : UInt32) (i : Nat) (h : i ≤ 15) :
    path x y i = path x' y' i ↔ x.toNat.testBit (15 - i) = x'.toNat.testBit (15 - i) ∧
      y.toNat.testBit (15 - i) = y'.toNat.testBit (15 - i) := by
  induction i generalizing x y x' y' with
  | zero => exact index_eq_iff x y x' y'
  | succ i ih =>
    have hbit : 15 - i = 15 - (i + 1) + 1 := by omega
    simp only [path]
    rw [ih _ _ _ _ (by omega), hbit]
    simp only [testBit_shiftLeft_one _ _ (show 15 - (i + 1) < 31 by omega)]

theorem testBit_cell (x : UInt32) (i : Nat) :
    (cell x).testBit i = (decide (i < 13) && x.toNat.testBit (i + 3)) := by
  have hval : cell x = x.toNat / 2 ^ 3 % 2 ^ 13 := rfl
  rw [hval, Nat.testBit_mod_two_pow, Nat.testBit_div_two_pow]

theorem cell_eq_iff (x x' : UInt32) : cell x = cell x' ↔
    ∀ i < 13, x.toNat.testBit (15 - i) = x'.toNat.testBit (15 - i) := by
  constructor
  · intro h i hi
    have hbit := testBit_cell x (12 - i)
    rw [h, testBit_cell, show 12 - i + 3 = 15 - i by omega] at hbit
    simpa [show 12 - i < 13 by omega, eq_comm] using hbit
  · intro h
    apply Nat.eq_of_testBit_eq
    intro i
    rw [testBit_cell, testBit_cell]
    by_cases hi : i < 13
    · have hbit := h (12 - i) (by omega)
      rw [show 15 - (12 - i) = i + 3 by omega] at hbit
      rw [hbit]
    · simp [hi]

theorem path_eq_iff_cell (x y x' y' : UInt32) :
    (∀ i < 13, path x y i = path x' y' i) ↔ cell x = cell x' ∧ cell y = cell y' := by
  rw [cell_eq_iff, cell_eq_iff]
  constructor
  · intro h
    exact ⟨fun i hi => ((path_eq_iff _ _ _ _ _ (by omega)).mp (h i hi)).1,
      fun i hi => ((path_eq_iff _ _ _ _ _ (by omega)).mp (h i hi)).2⟩
  · rintro ⟨hx, hy⟩ i hi
    exact (path_eq_iff _ _ _ _ _ (by omega)).mpr ⟨hx i hi, hy i hi⟩

theorem getLeaf_congr (root : QTreeNode 13) {x y x' y' : UInt32} (hx : cell x = cell x')
    (hy : cell y = cell y') : root.getLeaf x y = root.getLeaf x' y' := by
  rw [getLeaf_eq_find, getLeaf_eq_find]
  exact root.find_congr ((path_eq_iff_cell x y x' y').mpr ⟨hx, hy⟩)

theorem getLeaf_createLeaf (fresh : LeafRef) (root : QTreeNode 13) (x y x' y' : UInt32) :
    (createLeaf fresh root x y).1.getLeaf x' y' =
      if cell x = cell x' ∧ cell y = cell y' then some ((root.getLeaf x y).getD fresh)
      else root.getLeaf x' y' := by
  simp only [createLeaf_eq, getLeaf_eq_find, Trie.find_reach, path_eq_iff_cell]

end QTreeNode

end Eloth
