import Mathlib.Data.List.Range
import Eloth.MapRun

/-!
# The search for spectators

The search walks over the squares of a rectangle from leaf to leaf. The links lead to the leaf
of the next square when there is one, and a missing leaf is looked up from the root, so that the
walk visits every leaf of the rectangle once.
-/

namespace Eloth

namespace Map

open QTreeNode (cell)

variable {m : Map} {isPlayer : CreatureId → Bool}

def squareSpectators (m : Map) (centerPos : MapPosition) (r : ScanRange) (onlyPlayers : Bool)
    (nx ny : Nat) : List CreatureId :=
  match m.root.getLeaf (.ofNat nx) (.ofNat ny) with
  | none => []
  | some leaf => m.scanLeaf centerPos r onlyPlayers leaf

theorem Linked.east (h : Linked m) (nx ny : Nat) {leaf : LeafRef}
    (hleaf : m.root.getLeaf (.ofNat nx) (.ofNat ny) = some leaf) :
    (m.leaves leaf).leafE = m.root.getLeaf (.ofNat (nx + FLOOR_SIZE)) (.ofNat ny) := by
  rw [h.leafE hleaf, UInt32.ofNat_add]
  rfl

theorem Linked.south (h : Linked m) (nx ny : Nat) {leaf : LeafRef}
    (hleaf : m.root.getLeaf (.ofNat nx) (.ofNat ny) = some leaf) :
    (m.leaves leaf).leafS = m.root.getLeaf (.ofNat nx) (.ofNat (ny + FLOOR_SIZE)) := by
  rw [h.leafS hleaf, UInt32.ofNat_add]
  rfl

theorem scanRow_eq (h : Linked m) (centerPos : MapPosition) (r : ScanRange) (onlyPlayers : Bool)
    (start n ny : Nat) (spectators : List CreatureId) :
    m.scanRow centerPos r onlyPlayers (List.range' start n FLOOR_SIZE) ny
        (m.root.getLeaf (.ofNat start) (.ofNat ny)) spectators =
      spectators ++ (List.range' start n FLOOR_SIZE).flatMap fun nx =>
        m.squareSpectators centerPos r onlyPlayers nx ny := by
  rw [scanRow, ListSet.walk_range' (g := fun nx => m.root.getLeaf (.ofNat nx) (.ofNat ny))
    (v := fun nx => m.squareSpectators centerPos r onlyPlayers nx ny)]
  intro nx acc
  cases hleaf : m.root.getLeaf (.ofNat nx) (.ofNat ny) with
  | none => simp [squareSpectators, hleaf, QTreeNode.getLeafStatic_eq_getLeaf]
  | some leaf => simp [squareSpectators, hleaf, h.east nx ny hleaf]

def scanColumns (centerPos : MapPosition) (r : ScanRange) : List Nat :=
  scanSteps
    (clampCoordinate (centerPos.x.toNat + r.minRangeX + (centerPos.z.toNat - r.maxRangeZ)))
    (clampCoordinate (centerPos.x.toNat + r.maxRangeX + (centerPos.z.toNat - r.minRangeZ)))

def scanRows (centerPos : MapPosition) (r : ScanRange) : List Nat :=
  scanSteps
    (clampCoordinate (centerPos.y.toNat + r.minRangeY + (centerPos.z.toNat - r.maxRangeZ)))
    (clampCoordinate (centerPos.y.toNat + r.maxRangeY + (centerPos.z.toNat - r.minRangeZ)))

theorem getSpectatorsInternal_eq (h : Linked m) (spectators : List CreatureId)
    (centerPos : MapPosition) (r : ScanRange) (onlyPlayers : Bool) :
    m.getSpectatorsInternal spectators centerPos r onlyPlayers =
      spectators ++ (scanRows centerPos r).flatMap fun ny =>
        (scanColumns centerPos r).flatMap fun nx =>
          m.squareSpectators centerPos r onlyPlayers nx ny := by
  simp only [getSpectatorsInternal, scanRows, scanColumns]
  generalize clampCoordinate (centerPos.x.toNat + r.minRangeX + _) = x1
  generalize clampCoordinate (centerPos.x.toNat + r.maxRangeX + _) = x2
  generalize clampCoordinate (centerPos.y.toNat + r.minRangeY + _) = y1
  generalize clampCoordinate (centerPos.y.toNat + r.maxRangeY + _) = y2
  rw [QTreeNode.getLeafStatic_eq_getLeaf, scanSteps, scanSteps]
  rw [ListSet.walk_range'
    (g := fun ny => m.root.getLeaf (.ofNat (x1 - x1 % FLOOR_SIZE)) (.ofNat ny))]
  intro ny acc
  dsimp only
  rw [scanRow_eq h]
  cases hleaf : m.root.getLeaf (.ofNat (x1 - x1 % FLOOR_SIZE)) (.ofNat ny) with
  | none => simp [QTreeNode.getLeafStatic_eq_getLeaf]
  | some leaf => simp [h.south _ ny hleaf]

theorem mem_scanSteps {c1 c2 a : Nat} :
    a ∈ scanSteps c1 c2 ↔ a % 8 = 0 ∧ c1 / 8 ≤ a / 8 ∧ a / 8 ≤ c2 / 8 := by
  simp only [scanSteps, List.mem_range', FLOOR_SIZE]
  constructor
  · rintro ⟨i, hi, rfl⟩
    omega
  · rintro ⟨ha, h₁, h₂⟩
    exact ⟨a / 8 - c1 / 8, by omega, by omega⟩

theorem nodup_scanSteps (c1 c2 : Nat) : (scanSteps c1 c2).Nodup :=
  List.nodup_range' FLOOR_SIZE (by decide)

theorem lt_of_mem_scanSteps {c1 a : Nat} {v : Int} (h : a ∈ scanSteps c1 (clampCoordinate v)) :
    a < 65536 := by
  have ha := (mem_scanSteps.mp h)
  simp only [clampCoordinate] at ha
  omega

theorem cell_ofNat {a : Nat} (h : a < 65536) : cell (.ofNat a) = a / 8 := by
  simp only [cell, UInt32.toNat_ofNat']
  omega

theorem cell_coordinate (x : UInt16) : cell x.toUInt32 = x.toNat / 8 := by
  have hx := x.toNat_lt
  simp only [cell, UInt16.toNat_toUInt32]
  omega

theorem contains_iff {r : ScanRange} {centerPos cpos : MapPosition} :
    r.contains centerPos cpos ↔ (r.minRangeZ ≤ cpos.z.toNat ∧ cpos.z.toNat ≤ r.maxRangeZ) ∧
      (centerPos.x.toNat + r.minRangeX + (centerPos.z.toNat - cpos.z.toNat) ≤ cpos.x.toNat ∧
        cpos.x.toNat ≤
          centerPos.x.toNat + r.maxRangeX + ((centerPos.z.toNat : Int) - cpos.z.toNat)) ∧
      centerPos.y.toNat + r.minRangeY + (centerPos.z.toNat - cpos.z.toNat) ≤ cpos.y.toNat ∧
        cpos.y.toNat ≤
          centerPos.y.toNat + r.maxRangeY + ((centerPos.z.toNat : Int) - cpos.z.toNat) := by
  simp only [ScanRange.contains, Bool.and_eq_true, Bool.not_eq_true', Bool.or_eq_false_iff,
    decide_eq_false_iff_not]
  omega

def Spectates (isPlayer : CreatureId → Bool) (m : Map) (centerPos : MapPosition) (r : ScanRange)
    (onlyPlayers : Bool) (c : CreatureId) : Prop :=
  ∃ pos, m.position c = some pos ∧ r.contains centerPos pos ∧ (onlyPlayers → isPlayer c)

theorem lists_scanLeaf (h : Inv isPlayer m) {x y : UInt32} {leaf : LeafRef}
    (hleaf : m.root.getLeaf x y = some leaf) (centerPos : MapPosition) (r : ScanRange)
    (onlyPlayers : Bool) : ListSet.Lists (m.scanLeaf centerPos r onlyPlayers leaf) fun c =>
      m.Spectates isPlayer centerPos r onlyPlayers c ∧ m.InSquare x y c := by
  obtain ⟨hcreatures, hplayers⟩ := h.enrolled x y leaf hleaf
  have hlist : ListSet.Lists
      (if onlyPlayers then (m.leaves leaf).player_list else (m.leaves leaf).creature_list)
      fun c => m.InSquare x y c ∧ (onlyPlayers → isPlayer c) := by
    cases onlyPlayers with
    | true => exact hplayers.congr fun c => by simp
    | false => exact hcreatures.congr fun c => by simp
  refine ⟨hlist.1.filter _, fun c => ?_⟩
  rw [scanLeaf, List.mem_filter, hlist.2]
  constructor
  · rintro ⟨⟨⟨p, hp, hcell⟩, hplayer⟩, htest⟩
    rw [hp, Option.any_some] at htest
    exact ⟨⟨p, hp, htest, hplayer⟩, p, hp, hcell⟩
  · rintro ⟨⟨p, hp, htest, hplayer⟩, hsquare⟩
    exact ⟨⟨hsquare, hplayer⟩, by rw [hp, Option.any_some, htest]⟩

theorem lists_squareSpectators (h : Inv isPlayer m) (nx ny : Nat) (centerPos : MapPosition)
    (r : ScanRange) (onlyPlayers : Bool) :
    ListSet.Lists (m.squareSpectators centerPos r onlyPlayers nx ny) fun c =>
      m.Spectates isPlayer centerPos r onlyPlayers c ∧ m.InSquare (.ofNat nx) (.ofNat ny) c := by
  simp only [squareSpectators]
  split
  next hleaf =>
    refine ⟨List.nodup_nil, fun c => ⟨fun hc => absurd hc List.not_mem_nil, ?_⟩⟩
    rintro ⟨-, p, hp, hcell⟩
    obtain ⟨leaf, hp⟩ := leaf_of_getTile (h.standing hp)
    rw [getQTNode_eq, QTreeNode.getLeaf_congr m.root hcell.1 hcell.2, hleaf] at hp
    cases hp
  next leaf hleaf => exact lists_scanLeaf h hleaf centerPos r onlyPlayers

theorem lists_rectangle (h : Inv isPlayer m) (centerPos : MapPosition) (r : ScanRange)
    (onlyPlayers : Bool) : ListSet.Lists
      ((scanRows centerPos r).flatMap fun ny => (scanColumns centerPos r).flatMap fun nx =>
        m.squareSpectators centerPos r onlyPlayers nx ny)
      fun c => m.Spectates isPlayer centerPos r onlyPlayers c ∧ ∃ ny ∈ scanRows centerPos r,
        ∃ nx ∈ scanColumns centerPos r, m.InSquare (.ofNat nx) (.ofNat ny) c := by
  have hstep {c1 a a' : Nat} {v : Int} (ha : a ∈ scanSteps c1 (clampCoordinate v))
      (ha' : a' ∈ scanSteps c1 (clampCoordinate v)) (hcell : cell (.ofNat a) = cell (.ofNat a')) :
      a = a' := by
    rw [cell_ofNat (lt_of_mem_scanSteps ha), cell_ofNat (lt_of_mem_scanSteps ha')] at hcell
    have h₁ := (mem_scanSteps.mp ha).1
    have h₂ := (mem_scanSteps.mp ha').1
    omega
  have hcells {x y x' y' : UInt32} {c : CreatureId} (hc : m.InSquare x y c)
      (hc' : m.InSquare x' y' c) : cell x = cell x' ∧ cell y = cell y' := by
    obtain ⟨p, hp, hx, hy⟩ := hc
    obtain ⟨p', hp', hx', hy'⟩ := hc'
    cases hp.symm.trans hp'
    exact ⟨hx.symm.trans hx', hy.symm.trans hy'⟩
  refine ListSet.Lists.flatMap (nodup_scanSteps _ _) (fun ny _ => ?_) ?_
  · refine ListSet.Lists.flatMap (nodup_scanSteps _ _)
      (fun nx _ => lists_squareSpectators h nx ny centerPos r onlyPlayers) ?_
    intro nx hnx nx' hnx' c hc hc'
    exact hstep hnx hnx' (hcells hc hc').1
  · rintro ny hny ny' hny' c ⟨nx, -, hc⟩ ⟨nx', -, hc'⟩
    exact hstep hny hny' (hcells hc hc').2

theorem square_of_contains {centerPos pos : MapPosition} {r : ScanRange}
    (h : r.contains centerPos pos) :
    (∃ nx ∈ scanColumns centerPos r, cell pos.x.toUInt32 = cell (.ofNat nx)) ∧
      ∃ ny ∈ scanRows centerPos r, cell pos.y.toUInt32 = cell (.ofNat ny) := by
  obtain ⟨⟨hz₁, hz₂⟩, ⟨hx₁, hx₂⟩, hy₁, hy₂⟩ := contains_iff.mp h
  have hx := pos.x.toNat_lt
  have hy := pos.y.toNat_lt
  constructor
  · refine ⟨pos.x.toNat / 8 * 8, mem_scanSteps.mpr ?_, ?_⟩
    · simp only [clampCoordinate]
      omega
    · rw [cell_coordinate, cell_ofNat (by omega)]
      omega
  · refine ⟨pos.y.toNat / 8 * 8, mem_scanSteps.mpr ?_, ?_⟩
    · simp only [clampCoordinate]
      omega
    · rw [cell_coordinate, cell_ofNat (by omega)]
      omega

theorem lists_getSpectatorsInternal (h : Inv isPlayer m) (centerPos : MapPosition)
    (r : ScanRange) (onlyPlayers : Bool) :
    ListSet.Lists (m.getSpectatorsInternal [] centerPos r onlyPlayers)
      (m.Spectates isPlayer centerPos r onlyPlayers) := by
  rw [getSpectatorsInternal_eq h.linked, List.nil_append]
  refine (lists_rectangle h centerPos r onlyPlayers).congr fun c => ⟨And.left, fun hc => ⟨hc, ?_⟩⟩
  obtain ⟨pos, hpos, htest, -⟩ := hc
  obtain ⟨⟨nx, hnx, hx⟩, ny, hny, hy⟩ := square_of_contains htest
  exact ⟨ny, hny, nx, hnx, pos, hpos, hx, hy⟩

/-- Every run keeps a tile exactly where one was set, at an address of its own, and every search
finds the creatures in its range, each of them once. -/
theorem tiles_and_spectators_of_execution {ops : List MapOp}
    (h : Run.Execution (mapSystem isPlayer) ops m) :
    (∀ x y z, m.getTile x y z ≠ none ↔
      z.toNat < MAP_MAX_LAYERS ∧ ∃ t, MapOp.setTile x y z t ∈ ops) ∧
    (∀ x y z x' y' z' t, m.getTile x y z = some t → m.getTile x' y' z' = some t →
      x = x' ∧ y = y' ∧ z = z') ∧
    ∀ centerPos r onlyPlayers, (m.getSpectatorsInternal [] centerPos r onlyPlayers).Nodup ∧
      ∀ c, c ∈ m.getSpectatorsInternal [] centerPos r onlyPlayers ↔
        ∃ pos, m.position c = some pos ∧ r.contains centerPos pos ∧
          (onlyPlayers → isPlayer c) := by
  have hinv := inv_of_reachable h.reachable
  refine ⟨fun x y z => ?_, fun x y z x' y' z' t => hinv.tile_inj, fun centerPos r onlyPlayers => ?_⟩
  · rw [← getTile_of_execution h, Option.isSome_iff_ne_none]
  · exact lists_getSpectatorsInternal hinv centerPos r onlyPlayers

theorem tiles_and_spectators_onTile :
    ∃ m, Run.Execution (mapSystem fun c => c == 5)
        [.setTile 8 7 7 0, .placeCreature 5 ⟨8, 7, 7⟩] m ∧
      m.getTile 8 7 7 ≠ none ∧ m.getTile 7 8 7 = none ∧
      5 ∈ m.getSpectatorsInternal [] ⟨0, 0, 6⟩ ⟨0, 9, 0, 9, 0, 7⟩ true := by
  have h₀ : Run.Execution (mapSystem fun c => c == 5) [] empty := .init rfl
  have hfirst : (MapOp.setTile 8 7 7 0).Allowed empty := by
    intro x y z
    rw [getTile_eq, getLeaf_empty]
    simp
  have hsecond : (MapOp.placeCreature 5 ⟨8, 7, 7⟩).Allowed
      ((MapOp.setTile 8 7 7 0).apply (fun c => c == 5) empty) := ⟨rfl, rfl⟩
  have h₂ := (h₀.step ⟨hfirst, rfl⟩).step ⟨hsecond, rfl⟩
  obtain ⟨htile, -, hscan⟩ := tiles_and_spectators_of_execution h₂
  refine ⟨_, h₂, (htile 8 7 7).mpr ⟨by decide, 0, .head _⟩, ?_, ?_⟩
  · by_contra hne
    obtain ⟨-, t, ht⟩ := (htile 7 8 7).mp hne
    simp at ht
  · exact ((hscan _ _ _).2 5).mpr ⟨⟨8, 7, 7⟩, rfl, by decide, fun _ => rfl⟩

end Map

end Eloth
