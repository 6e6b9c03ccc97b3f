import Mathlib.Data.List.Range
import Mathlib.Data.List.Perm.Basic
import Eloth.Definitions
import Eloth.QuadTree
import Eloth.Lib.ListSet
import Eloth.Lib.Run

/-!
# The map

The leaves of the quadtree hold the tiles and the creatures of one square. A leaf that is created
gets linked with the leaves to its south and east, and the search for spectators follows these
links over the rectangle that it scans.
-/

namespace Eloth

abbrev TileRef := Nat
abbrev CreatureId := Nat

/-- A position in the widths of the map; a creature's tile is known by it. -/
structure MapPosition where
  x : UInt16
  y : UInt16
  z : UInt8
  deriving DecidableEq

abbrev Floor := UInt16 → UInt16 → Option TileRef

structure QTreeLeafNode where
  leafS : Option LeafRef := none
  leafE : Option LeafRef := none
  array : UInt8 → Option Floor := fun _ => none
  creature_list : List CreatureId := []
  player_list : List CreatureId := []

/-- The quadtree with its leaf objects. Every leaf gets the next address. The creature vector of
a tile is kept under the tile's position. -/
structure Map where
  root : QTreeNode 13
  leaves : LeafRef → QTreeLeafNode
  nextLeaf : LeafRef
  creatures : MapPosition → List CreatureId
  position : CreatureId → Option MapPosition

/-- The bounds of a scan, relative to its centre but for the floors. -/
@[ext] structure ScanRange where
  minRangeX : Int
  maxRangeX : Int
  minRangeY : Int
  maxRangeY : Int
  minRangeZ : Int
  maxRangeZ : Int
  deriving DecidableEq

namespace QTreeLeafNode

def createFloor (node : QTreeLeafNode) (z : UInt8) : QTreeLeafNode :=
  match node.array z with
  | some _ => node
  | none => { node with array := Function.update node.array z (some fun _ _ => none) }

def tile (node : QTreeLeafNode) (x y : UInt16) (z : UInt8) : Option TileRef :=
  match node.array z with
  | none => none
  | some floor => floor (x &&& 7) (y &&& 7)

/-- A tile that lies there already takes over the items of the new one. -/
def placeTile (node : QTreeLeafNode) (x y : UInt16) (z : UInt8) (newTile : TileRef) :
    QTreeLeafNode :=
  match node.array z with
  | none => node
  | some floor =>
    match floor (x &&& 7) (y &&& 7) with
    | some _ => node
    | none =>
      { node with
        array := Function.update node.array z (some (Function.update floor (x &&& 7)
          (Function.update (floor (x &&& 7)) (y &&& 7) (some newTile)))) }

def addCreature (isPlayer : CreatureId → Bool) (c : CreatureId) (node : QTreeLeafNode) :
    QTreeLeafNode :=
  { node with
    creature_list := node.creature_list ++ [c]
    player_list := if isPlayer c then node.player_list ++ [c] else node.player_list }

def removeCreature (isPlayer : CreatureId → Bool) (c : CreatureId) (node : QTreeLeafNode) :
    QTreeLeafNode :=
  { node with
    creature_list := ListSet.swapErase node.creature_list c
    player_list := if isPlayer c then ListSet.swapErase node.player_list c else node.player_list }

end QTreeLeafNode

namespace Map

def empty : Map where
  root := .node fun _ => .null
  leaves := fun _ => {}
  nextLeaf := 0
  creatures := fun _ => []
  position := fun _ => none

def getQTNode (m : Map) (x y : UInt16) : Option LeafRef :=
  m.root.getLeafStatic x.toUInt32 y.toUInt32

def getTile (m : Map) (x y : UInt16) (z : UInt8) : Option TileRef :=
  if MAP_MAX_LAYERS ≤ z.toNat then none
  else
    match m.root.getLeafStatic x.toUInt32 y.toUInt32 with
    | none => none
    | some leaf => (m.leaves leaf).tile x y z

def updateLeaf (m : Map) (leaf : LeafRef) (f : QTreeLeafNode → QTreeLeafNode) : Map :=
  { m with leaves := Function.update m.leaves leaf (f (m.leaves leaf)) }

def updateLeaf? (m : Map) (leaf : Option LeafRef) (f : QTreeLeafNode → QTreeLeafNode) : Map :=
  match leaf with
  | none => m
  | some leaf => m.updateLeaf leaf f

/-- The links of a new leaf: north, west, south and east. -/
def linkLeaf (m : Map) (x y : UInt32) (leaf : LeafRef) : Map :=
  let root := m.root
  let m := m.updateLeaf? (root.getLeaf x (y - 8)) fun l => { l with leafS := some leaf }
  let m := m.updateLeaf? (root.getLeaf (x - 8) y) fun l => { l with leafE := some leaf }
  let m := match root.getLeaf x (y + 8) with
    | none => m
    | some southLeaf => m.updateLeaf leaf fun l => { l with leafS := some southLeaf }
  match root.getLeaf (x + 8) y with
  | none => m
  | some eastLeaf => m.updateLeaf leaf fun l => { l with leafE := some eastLeaf }

/-- The leaf that a new tile goes to, created and linked when there is none. -/
def reachLeaf (m : Map) (x y : UInt32) : Map × LeafRef :=
  let (root, leaf, newLeaf) := QTreeNode.createLeaf m.nextLeaf m.root x y
  if newLeaf then
    ({ m with
      root := root
      leaves := Function.update m.leaves leaf {}
      nextLeaf := m.nextLeaf + 1 }.linkLeaf x y leaf, leaf)
  else ({ m with root := root }, leaf)

def setTile (m : Map) (x y : UInt16) (z : UInt8) (newTile : TileRef) : Map :=
  if MAP_MAX_LAYERS ≤ z.toNat then m
  else
    let (m, leaf) := m.reachLeaf x.toUInt32 y.toUInt32
    m.updateLeaf leaf fun l => (l.createFloor z).placeTile x y z newTile

variable (isPlayer : CreatureId → Bool)

/-- The insertion of `placeCreature` on the tile that its search ended on. -/
def placeCreature (m : Map) (c : CreatureId) (dest : MapPosition) : Map :=
  { m with
    creatures := Function.update m.creatures dest (c :: m.creatures dest)
    position := Function.update m.position c (some dest) }.updateLeaf?
    (m.getQTNode dest.x dest.y) (QTreeLeafNode.addCreature isPlayer c)

def moveCreature (m : Map) (c : CreatureId) (oldPos newPos : MapPosition) : Map :=
  let leaf := m.getQTNode oldPos.x oldPos.y
  let new_leaf := m.getQTNode newPos.x newPos.y
  let m := { m with creatures := Function.update m.creatures oldPos ((m.creatures oldPos).erase c) }
  let m :=
    if leaf ≠ new_leaf then
      (m.updateLeaf? leaf (QTreeLeafNode.removeCreature isPlayer c)).updateLeaf? new_leaf
        (QTreeLeafNode.addCreature isPlayer c)
    else m
  { m with
    creatures := Function.update m.creatures newPos (c :: m.creatures newPos)
    position := Function.update m.position c (some newPos) }

def removeCreature (m : Map) (c : CreatureId) (pos : MapPosition) : Map :=
  let m := m.updateLeaf? (m.getQTNode pos.x pos.y) (QTreeLeafNode.removeCreature isPlayer c)
  { m with
    creatures := Function.update m.creatures pos ((m.creatures pos).erase c)
    position := Function.update m.position c none }

end Map

def ScanRange.contains (r : ScanRange) (centerPos cpos : MapPosition) : Bool :=
  let offsetZ : Int := (centerPos.z.toNat : Int) - cpos.z.toNat
  let min_y := centerPos.y.toNat + r.minRangeY
  let min_x := centerPos.x.toNat + r.minRangeX
  let max_y := centerPos.y.toNat + r.maxRangeY
  let max_x := centerPos.x.toNat + r.maxRangeX
  !(decide (r.minRangeZ > cpos.z.toNat) || decide (r.maxRangeZ < cpos.z.toNat)) &&
    !(decide (min_y + offsetZ > cpos.y.toNat) || decide (max_y + offsetZ < cpos.y.toNat) ||
      decide (min_x + offsetZ > cpos.x.toNat) || decide (max_x + offsetZ < cpos.x.toNat))

def clampCoordinate (v : Int) : Nat := min 0xFFFF (max 0 v).toNat

namespace Map

def scanSteps (c1 c2 : Nat) : List Nat :=
  let start := c1 - c1 % FLOOR_SIZE
  let last := c2 - c2 % FLOOR_SIZE
  List.range' start ((last + FLOOR_SIZE - start) / FLOOR_SIZE) FLOOR_SIZE

/-- The creatures that the scan takes from a leaf. -/
def scanLeaf (m : Map) (centerPos : MapPosition) (r : ScanRange) (onlyPlayers : Bool)
    (leaf : LeafRef) : List CreatureId :=
  (if onlyPlayers then (m.leaves leaf).player_list else (m.leaves leaf).creature_list).filter
    fun c => (m.position c).any (r.contains centerPos)

def scanRow (m : Map) (centerPos : MapPosition) (r : ScanRange) (onlyPlayers : Bool)
    (columns : List Nat) (ny : Nat) (leafS : Option LeafRef) (spectators : List CreatureId) :
    List CreatureId :=
  (columns.foldl (fun (leafE, spectators) nx =>
    match leafE with
    | some leaf => ((m.leaves leaf).leafE, spectators ++ m.scanLeaf centerPos r onlyPlayers leaf)
    | none => (m.root.getLeafStatic (.ofNat (nx + FLOOR_SIZE)) (.ofNat ny), spectators))
    (leafS, spectators)).2

def getSpectatorsInternal (m : Map) (spectators : List CreatureId) (centerPos : MapPosition)
    (r : ScanRange) (onlyPlayers : Bool) : List CreatureId :=
  let min_y := centerPos.y.toNat + r.minRangeY
  let min_x := centerPos.x.toNat + r.minRangeX
  let max_y := centerPos.y.toNat + r.maxRangeY
  let max_x := centerPos.x.toNat + r.maxRangeX
  let minoffset : Int := centerPos.z.toNat - r.maxRangeZ
  let x1 := clampCoordinate (min_x + minoffset)
  let y1 := clampCoordinate (min_y + minoffset)
  let maxoffset : Int := centerPos.z.toNat - r.minRangeZ
  let x2 := clampCoordinate (max_x + maxoffset)
  let y2 := clampCoordinate (max_y + maxoffset)
  let startx1 := x1 - x1 % FLOOR_SIZE
  let starty1 := y1 - y1 % FLOOR_SIZE
  let startLeaf := m.root.getLeafStatic (.ofNat startx1) (.ofNat starty1)
  ((scanSteps y1 y2).foldl (fun (leafS, spectators) ny =>
    let spectators := m.scanRow centerPos r onlyPlayers (scanSteps x1 x2) ny leafS spectators
    match leafS with
    | some leaf => ((m.leaves leaf).leafS, spectators)
    | none => (m.root.getLeafStatic (.ofNat startx1) (.ofNat (ny + FLOOR_SIZE)), spectators))
    (startLeaf, spectators)).2

end Map

end Eloth
