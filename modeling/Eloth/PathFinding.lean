import Eloth.Map

/-!
# Path finding

The search for a path on the floor of a creature. It keeps a pool of nodes, each with the node it
was reached from and the cost of the way, opens a node again when a cheaper way turns up, and
reads the directions off the parents of the node that it ends on.
-/

namespace Eloth

abbrev MAX_NODES : Nat := 512
abbrev MAP_NORMALWALKCOST : Nat := 10
abbrev MAP_DIAGONALWALKCOST : Nat := 25

inductive Direction where
  | north
  | east
  | south
  | west
  | southwest
  | southeast
  | northwest
  | northeast
  deriving DecidableEq, Repr

structure FindPathParams where
  fullPathSearch : Bool := true
  clearSight : Bool := true
  allowDiagonal : Bool := true
  keepDistance : Bool := false
  maxSearchDist : Int := 0
  minTargetDist : Int := -1
  maxTargetDist : Int := -1

/-- What the search reads of the map and of the creature: the tiles, those that the creature can
walk to, and what makes a tile expensive for it. -/
structure Walker where
  getTile : MapPosition → Option TileRef
  canWalkTo : MapPosition → Option TileRef
  getTopVisibleCreature : TileRef → Bool
  avoidsField : TileRef → Bool
  isSightClear : MapPosition → MapPosition → Bool

namespace MapPosition

def getDistanceX (p1 p2 : MapPosition) : Int := ((p1.x.toNat : Int) - p2.x.toNat).natAbs

def getDistanceY (p1 p2 : MapPosition) : Int := ((p1.y.toNat : Int) - p2.y.toNat).natAbs

/-- The position beside this one, with the coordinates cut to sixteen bits. -/
def shift (pos : MapPosition) (offset : Int × Int) : MapPosition :=
  { pos with
    x := .ofInt (pos.x.toNat + offset.1)
    y := .ofInt (pos.y.toNat + offset.2) }

end MapPosition

def getNextPosition (direction : Direction) (pos : MapPosition) : MapPosition :=
  match direction with
  | .north => { pos with y := pos.y - 1 }
  | .south => { pos with y := pos.y + 1 }
  | .west => { pos with x := pos.x - 1 }
  | .east => { pos with x := pos.x + 1 }
  | .southwest => { pos with x := pos.x - 1, y := pos.y + 1 }
  | .northwest => { pos with x := pos.x - 1, y := pos.y - 1 }
  | .northeast => { pos with x := pos.x + 1, y := pos.y - 1 }
  | .southeast => { pos with x := pos.x + 1, y := pos.y + 1 }

/-! ### The walkable tiles -/

abbrev maxWalkCacheWidth : Int := 11
abbrev maxWalkCacheHeight : Int := 11

structure WalkCache where
  useCacheMap : Bool
  position : MapPosition
  localMapCache : Int → Int → Bool

def WalkCache.getWalkCache (c : WalkCache) (pos : MapPosition) : Int :=
  if !c.useCacheMap then 2
  else if c.position.z ≠ pos.z then 0
  else if pos = c.position then 1
  else
    let dx : Int := pos.x.toNat - c.position.x.toNat
    let dy : Int := pos.y.toNat - c.position.y.toNat
    if dx.natAbs ≤ maxWalkCacheWidth ∧ dy.natAbs ≤ maxWalkCacheHeight then
      if c.localMapCache (maxWalkCacheHeight + dy) (maxWalkCacheWidth + dx) then 1 else 0
    else 2

/-- `Map::canWalkTo` for a creature with this cache; `queryAdd` tells whether a tile takes it. -/
def canWalkTo (c : WalkCache) (getTile : MapPosition → Option TileRef)
    (queryAdd : TileRef → Bool) (pos : MapPosition) : Option TileRef :=
  let walkCache := c.getWalkCache pos
  if walkCache = 0 then none
  else if walkCache = 1 then getTile pos
  else
    let tile := getTile pos
    if getTile c.position ≠ tile then
      match tile with
      | none => none
      | some t => if queryAdd t then some t else none
    else tile

/-- The walker that a creature with this cache is. -/
def Walker.ofCreature (c : WalkCache) (getTile : MapPosition → Option TileRef)
    (queryAdd getTopVisibleCreature avoidsField : TileRef → Bool)
    (isSightClear : MapPosition → MapPosition → Bool) : Walker where
  getTile := getTile
  canWalkTo := Eloth.canWalkTo c getTile queryAdd
  getTopVisibleCreature := getTopVisibleCreature
  avoidsField := avoidsField
  isSightClear := isSightClear

theorem canWalkTo_position (c : WalkCache) (getTile : MapPosition → Option TileRef)
    (queryAdd : TileRef → Bool) : canWalkTo c getTile queryAdd c.position = getTile c.position := by
  cases hcache : c.useCacheMap <;> simp [canWalkTo, WalkCache.getWalkCache, hcache]

/-! ### The condition on the end of the path -/

namespace FindPathParams

def isInRange (fpp : FindPathParams) (targetPos startPos testPos : MapPosition) : Bool :=
  let tx : Int := targetPos.x.toNat
  let ty : Int := targetPos.y.toNat
  let x : Int := testPos.x.toNat
  let y : Int := testPos.y.toNat
  if fpp.fullPathSearch then
    !(x > tx + fpp.maxTargetDist) && !(x < tx - fpp.maxTargetDist) &&
      !(y > ty + fpp.maxTargetDist) && !(y < ty - fpp.maxTargetDist)
  else
    let dx : Int := startPos.x.toNat - tx
    let dxMax := if dx ≥ 0 then fpp.maxTargetDist else 0
    let dxMin := if dx ≤ 0 then fpp.maxTargetDist else 0
    let dy : Int := startPos.y.toNat - ty
    let dyMax := if dy ≥ 0 then fpp.maxTargetDist else 0
    let dyMin := if dy ≤ 0 then fpp.maxTargetDist else 0
    !(x > tx + dxMax) && !(x < tx - dxMin) && !(y > ty + dyMax) && !(y < ty - dyMin)

def pathCondition (fpp : FindPathParams) (w : Walker) (targetPos startPos testPos : MapPosition)
    (bestMatchDist : Int) : Bool × Int :=
  if !fpp.isInRange targetPos startPos testPos then (false, bestMatchDist)
  else if fpp.clearSight && !w.isSightClear testPos targetPos then (false, bestMatchDist)
  else
    let testDist := max (targetPos.getDistanceX testPos) (targetPos.getDistanceY testPos)
    if fpp.maxTargetDist = 1 then
      (!(testDist < fpp.minTargetDist || testDist > fpp.maxTargetDist), bestMatchDist)
    else if testDist ≤ fpp.maxTargetDist then
      if testDist < fpp.minTargetDist then (false, bestMatchDist)
      else if testDist = fpp.maxTargetDist then (true, 0)
      else if testDist > bestMatchDist then (true, testDist)
      else (false, bestMatchDist)
    else (false, bestMatchDist)

end FindPathParams

/-! ### The nodes -/

structure AStarNode where
  parent : Option Nat
  f : Nat
  x : UInt16
  y : UInt16

/-- The pool, in which a node is known by its index. -/
structure AStarNodes where
  nodes : Nat → AStarNode
  openNodes : Nat → Bool
  nodeTable : UInt32 → Option Nat
  curNode : Nat
  closedNodes : Int

namespace AStarNodes

def tableKey (x y : UInt16) : UInt32 := (x.toUInt32 <<< 16) ||| y.toUInt32

def init (x y : UInt16) : AStarNodes where
  nodes := Function.update (fun _ => ⟨none, 0, 0, 0⟩) 0 ⟨none, 0, x, y⟩
  openNodes := Function.update (fun _ => false) 0 true
  nodeTable := Function.update (fun _ => none) (tableKey x y) (some 0)
  curNode := 1
  closedNodes := 0

def createOpenNode (t : AStarNodes) (parent : Nat) (x y : UInt16) (f : Nat) : Option AStarNodes :=
  if t.curNode ≥ MAX_NODES then none
  else
    some { t with
      curNode := t.curNode + 1
      openNodes := Function.update t.openNodes t.curNode true
      nodeTable := Function.update t.nodeTable (tableKey x y) (some t.curNode)
      nodes := Function.update t.nodes t.curNode ⟨some parent, f, x, y⟩ }

/-- The open node of least cost, the first one among equals. -/
def getBestNode (t : AStarNodes) : Option Nat :=
  ((List.range t.curNode).foldl (fun (best_node_f, best_node) i =>
    if t.openNodes i ∧ (t.nodes i).f < best_node_f then ((t.nodes i).f, some i)
    else (best_node_f, best_node)) (0x7FFFFFFF, none)).2

def closeNode (t : AStarNodes) (node : Nat) : AStarNodes :=
  { t with
    openNodes := Function.update t.openNodes node false
    closedNodes := t.closedNodes + 1 }

def openNode (t : AStarNodes) (node : Nat) : AStarNodes :=
  if t.openNodes node then t
  else
    { t with
      openNodes := Function.update t.openNodes node true
      closedNodes := t.closedNodes - 1 }

/-- The assignments to a node that is reached on a cheaper way. -/
def setParent (t : AStarNodes) (node parent f : Nat) : AStarNodes :=
  { t with
    nodes := Function.update t.nodes node { t.nodes node with f := f, parent := some parent } }

def getNodeByPosition (t : AStarNodes) (x y : UInt16) : Option Nat := t.nodeTable (tableKey x y)

def getMapWalkCost (node : AStarNode) (neighborPos : MapPosition) : Nat :=
  if ((node.x.toNat : Int) - neighborPos.x.toNat).natAbs =
      ((node.y.toNat : Int) - neighborPos.y.toNat).natAbs then
    MAP_DIAGONALWALKCOST
  else MAP_NORMALWALKCOST

def getTileWalkCost (w : Walker) (tile : Option TileRef) : Nat :=
  match tile with
  | none => 0
  | some tile =>
    (if w.getTopVisibleCreature tile then MAP_NORMALWALKCOST * 3 else 0) +
      (if w.avoidsField tile then MAP_NORMALWALKCOST * 18 else 0)

end AStarNodes

/-! ### The search -/

def dirNeighbors : Direction → List (Int × Int)
  | .north => [(-1, 0), (0, 1), (1, 0), (1, 1), (-1, 1)]
  | .east => [(-1, 0), (0, 1), (0, -1), (-1, -1), (-1, 1)]
  | .south => [(-1, 0), (1, 0), (0, -1), (-1, -1), (1, -1)]
  | .west => [(0, 1), (1, 0), (0, -1), (1, -1), (1, 1)]
  | .southwest => [(1, 0), (0, -1), (-1, -1), (1, -1), (1, 1)]
  | .southeast => [(-1, 0), (0, -1), (-1, -1), (1, -1), (-1, 1)]
  | .northwest => [(0, 1), (1, 0), (1, -1), (1, 1), (-1, 1)]
  | .northeast => [(-1, 0), (0, 1), (-1, -1), (1, 1), (-1, 1)]

def allNeighbors : List (Int × Int) :=
  [(-1, 0), (0, 1), (1, 0), (0, -1), (-1, -1), (1, -1), (1, 1), (-1, 1)]

/-- The neighbours that a node looks at, without those behind it. -/
def neighbors (fpp : FindPathParams) (node : AStarNode) (parent : Option AStarNode) :
    List (Int × Int) :=
  match parent with
  | none => allNeighbors
  | some parent =>
    let offset_x : Int := parent.x.toNat - node.x.toNat
    let offset_y : Int := parent.y.toNat - node.y.toNat
    let direction : Direction :=
      if offset_y = 0 then if offset_x = -1 then .west else .east
      else if !fpp.allowDiagonal ∨ offset_x = 0 then if offset_y = -1 then .north else .south
      else if offset_y = -1 then if offset_x = -1 then .northwest else .northeast
      else if offset_x = -1 then .southwest
      else .southeast
    (dirNeighbors direction).take (if fpp.allowDiagonal then 5 else 3)

structure PathQuery where
  walker : Walker
  fpp : FindPathParams
  startPos : MapPosition
  targetPos : MapPosition

structure PathSearch where
  nodes : AStarNodes
  found : Option Nat
  endPos : MapPosition
  bestMatch : Int

namespace PathQuery

variable (q : PathQuery)

def position (node : AStarNode) : MapPosition := ⟨node.x, node.y, q.startPos.z⟩

def inBounds (pos : MapPosition) : Bool :=
  !(q.fpp.maxSearchDist ≠ 0 && (q.startPos.getDistanceX pos > q.fpp.maxSearchDist ||
      q.startPos.getDistanceY pos > q.fpp.maxSearchDist)) &&
    !(q.fpp.keepDistance && !q.fpp.isInRange q.targetPos q.startPos pos)

/-- One round of the inner loop, for the node as it was before the loop. There is no result when
the pool is full. -/
def visitNeighbor (t : AStarNodes) (n : Nat) (node : AStarNode) (offset : Int × Int) :
    Option AStarNodes :=
  let pos := (q.position node).shift offset
  if !q.inBounds pos then some t
  else
    match t.getNodeByPosition pos.x pos.y with
    | some neighborNode =>
      let newf := node.f + AStarNodes.getMapWalkCost node pos +
        AStarNodes.getTileWalkCost q.walker (q.walker.getTile pos)
      if (t.nodes neighborNode).f ≤ newf then some t
      else
        some ((t.setParent neighborNode n newf).openNode neighborNode)
    | none =>
      match q.walker.canWalkTo pos with
      | none => some t
      | some tile =>
        let newf := node.f + AStarNodes.getMapWalkCost node pos +
          AStarNodes.getTileWalkCost q.walker (some tile)
        t.createOpenNode n pos.x pos.y newf

def visitNeighbors (n : Nat) (node : AStarNode) :
    List (Int × Int) → AStarNodes → AStarNodes × Bool
  | [], t => (t, false)
  | offset :: offsets, t =>
    match q.visitNeighbor t n node offset with
    | none => (t, true)
    | some t => visitNeighbors n node offsets t

inductive Round where
  | running (s : PathSearch)
  | finished (s : PathSearch)
  | failed

def expand (s : PathSearch) (n : Nat) : Round :=
  let node := s.nodes.nodes n
  let (nodes, full) :=
    q.visitNeighbors n node (neighbors q.fpp node (node.parent.map s.nodes.nodes)) s.nodes
  if full ∧ s.found.isNone then .failed
  else .running { s with nodes := nodes.closeNode n }

def round (s : PathSearch) : Round :=
  if ¬(q.fpp.maxSearchDist ≠ 0 ∨ s.nodes.closedNodes < 100) then .finished s
  else
    match s.nodes.getBestNode with
    | none => if s.found.isSome then .finished s else .failed
    | some n =>
      let pos := q.position (s.nodes.nodes n)
      match q.fpp.pathCondition q.walker q.targetPos q.startPos pos s.bestMatch with
      | (true, bestMatch) =>
        let s := { s with found := some n, endPos := pos, bestMatch := bestMatch }
        if bestMatch = 0 then .finished s else q.expand s n
      | (false, bestMatch) => q.expand { s with bestMatch := bestMatch } n

def init : PathSearch where
  nodes := AStarNodes.init q.startPos.x q.startPos.y
  found := none
  endPos := ⟨0, 0, 0⟩
  bestMatch := 0

/-- The outer loop for so many rounds; the inner result is missing when the search fails. -/
def searchLoop : Nat → PathSearch → Option (Option PathSearch)
  | 0, _ => none
  | fuel + 1, s =>
    match q.round s with
    | .running s => searchLoop fuel s
    | .finished s => some (some s)
    | .failed => some none

def stepDirection (dx dy : Int) : Option Direction :=
  if dx = 1 ∧ dy = 1 then some .northwest
  else if dx = -1 ∧ dy = 1 then some .northeast
  else if dx = 1 ∧ dy = -1 then some .southwest
  else if dx = -1 ∧ dy = -1 then some .southeast
  else if dx = 1 then some .west
  else if dx = -1 then some .east
  else if dy = 1 then some .north
  else if dy = -1 then some .south
  else none

def collectDirections (t : AStarNodes) :
    Nat → Option Nat → UInt16 → UInt16 → List Direction → Option (List Direction)
  | 0, _, _, _, _ => none
  | _ + 1, none, _, _, dirList => some dirList
  | fuel + 1, some found, prevx, prevy, dirList =>
    let node := t.nodes found
    let dx : Int := node.x.toNat - prevx.toNat
    let dy : Int := node.y.toNat - prevy.toNat
    collectDirections t fuel node.parent node.x node.y
      (dirList ++ (stepDirection dx dy).toList)

/-- The answer with the list of directions, or nothing when the loops need more rounds. -/
def getPathMatching (fuel : Nat) (dirList : List Direction) : Option (Bool × List Direction) :=
  match q.searchLoop fuel q.init with
  | none => none
  | some none => some (false, dirList)
  | some (some s) =>
    match s.found with
    | none => some (false, dirList)
    | some found =>
      match collectDirections s.nodes fuel (s.nodes.nodes found).parent s.endPos.x s.endPos.y
        dirList with
      | none => none
      | some dirList => some (true, dirList)

end PathQuery

end Eloth
