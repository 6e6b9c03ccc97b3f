import Eloth.Lib.InPlace
import Eloth.Lib.Run
import Eloth.PathFinding

/-!
# The walk cache of a creature

A creature remembers which tiles of the window around it accept it. When it walks, the window is
shifted by one tile and only the rows and columns that come into the window are asked again; after
any other move the whole window is asked.
-/

namespace Eloth

open InPlace (fromTo)

abbrev mapWalkWidth : Int := 23
abbrev mapWalkHeight : Int := 23

/-- What a creature meets on the map: the tiles that accept it while it stands elsewhere, those
that accept it while it stands on them, and those with a ground. -/
structure Terrain where
  accepts : MapPosition → Bool
  acceptsOwn : MapPosition → Bool
  getGround : MapPosition → Bool

/-- Whether there is a tile and its `queryAdd` accepts the creature that stands at `myPos`. -/
def Terrain.queryAdd (t : Terrain) (myPos pos : MapPosition) : Bool :=
  if pos = myPos then t.acceptsOwn pos else t.accepts pos

namespace MapPosition

def getOffsetX (p1 p2 : MapPosition) : Int := p1.x.toNat - p2.x.toNat

def getOffsetY (p1 p2 : MapPosition) : Int := p1.y.toNat - p2.y.toNat

def getDistanceZ (p1 p2 : MapPosition) : Int := ((p1.z.toNat : Int) - p2.z.toNat).natAbs

end MapPosition

namespace WalkCache

def setCell (c : WalkCache) (row column : Int) (accepted : Bool) : WalkCache :=
  { c with
    localMapCache := Function.update c.localMapCache row
      (Function.update (c.localMapCache row) column accepted) }

/-- `updateTileCache` of a tile at an offset from the creature. -/
def updateTileCache (c : WalkCache) (accepted : Bool) (dx dy : Int) : WalkCache :=
  if dx.natAbs ≤ maxWalkCacheWidth ∧ dy.natAbs ≤ maxWalkCacheHeight then
    c.setCell (maxWalkCacheHeight + dy) (maxWalkCacheWidth + dx) accepted
  else c

/-- `updateTileCache` of the tile at a position. -/
def updateTileCacheAt (c : WalkCache) (t : Terrain) (pos : MapPosition) : WalkCache :=
  if pos.z = c.position.z then
    c.updateTileCache (t.queryAdd c.position pos) (pos.getOffsetX c.position)
      (pos.getOffsetY c.position)
  else c

def updateMapCache (c : WalkCache) (t : Terrain) : WalkCache :=
  (fromTo (-maxWalkCacheHeight) maxWalkCacheHeight).foldl (fun c y =>
    (fromTo (-maxWalkCacheWidth) maxWalkCacheWidth).foldl (fun c x =>
      c.updateTileCacheAt t (c.position.shift (x, y))) c) c

def refreshTile (c : WalkCache) (t : Terrain) (dx dy : Int) : WalkCache :=
  c.updateTileCache (t.queryAdd c.position (c.position.shift (dx, dy))) dx dy

def refreshRow (c : WalkCache) (t : Terrain) (dy : Int) : WalkCache :=
  (fromTo (-maxWalkCacheWidth) maxWalkCacheWidth).foldl (fun c x => c.refreshTile t x dy) c

def refreshColumn (c : WalkCache) (t : Terrain) (dx : Int) : WalkCache :=
  (fromTo (-maxWalkCacheHeight) maxWalkCacheHeight).foldl (fun c y => c.refreshTile t dx y) c

def shiftSouth (c : WalkCache) : WalkCache :=
  { c with
    localMapCache := (fromTo 0 (mapWalkHeight - 2)).reverse.foldl
      (fun cache y => Function.update cache (y + 1) (cache y)) c.localMapCache }

def shiftNorth (c : WalkCache) : WalkCache :=
  { c with
    localMapCache := (fromTo 0 (mapWalkHeight - 2)).foldl
      (fun cache y => Function.update cache y (cache (y + 1))) c.localMapCache }

def shiftWest (c : WalkCache) (starty endy : Int) : WalkCache :=
  (fromTo starty endy).foldl (fun c y =>
    (fromTo 0 (mapWalkWidth - 2)).foldl (fun c x =>
      c.setCell y x (c.localMapCache y (x + 1))) c) c

def shiftEast (c : WalkCache) (starty endy : Int) : WalkCache :=
  (fromTo starty endy).foldl (fun c y =>
    (fromTo 0 (mapWalkWidth - 2)).reverse.foldl (fun c x =>
      c.setCell y (x + 1) (c.localMapCache y x)) c) c

/-- The rows of the window after a step. -/
def moveRows (c : WalkCache) (t : Terrain) (oldPos newPos : MapPosition) : WalkCache :=
  if newPos.y < oldPos.y then c.shiftSouth.refreshRow t (-maxWalkCacheHeight)
  else if oldPos.y < newPos.y then c.shiftNorth.refreshRow t maxWalkCacheHeight
  else c

def startRow (dy : Int) : Int := if dy < 0 then 0 else if dy > 0 then dy else 0

def endRow (dy : Int) : Int := if dy < 0 then mapWalkHeight - 1 + dy else mapWalkHeight - 1

/-- The columns of the window after a step. -/
def moveColumns (c : WalkCache) (t : Terrain) (oldPos newPos : MapPosition) : WalkCache :=
  let dy := oldPos.getDistanceY newPos
  if oldPos.x < newPos.x then
    (c.shiftWest (startRow dy) (endRow dy)).refreshColumn t maxWalkCacheWidth
  else if newPos.x < oldPos.x then
    (c.shiftEast (startRow dy) (endRow dy)).refreshColumn t (-maxWalkCacheWidth)
  else c

/-- `onCreatureMove` for a move of the creature itself, whose map cache is loaded. -/
def onCreatureMove (c : WalkCache) (t : Terrain) (newPos oldPos : MapPosition)
    (teleport : Bool) : WalkCache :=
  if teleport ∨ oldPos.z ≠ newPos.z then c.updateMapCache t
  else ((c.moveRows t oldPos newPos).moveColumns t oldPos newPos).updateTileCacheAt t oldPos

end WalkCache

/-- A move of the creature: the tile it comes to, and whether a teleport is forced. -/
structure OwnMove where
  newPos : MapPosition
  forceTeleport : Bool

namespace OwnMove

def teleport (m : OwnMove) (t : Terrain) (oldPos : MapPosition) : Bool :=
  m.forceTeleport || !t.getGround m.newPos ||
    !(oldPos.getDistanceX m.newPos ≤ 1 && oldPos.getDistanceY m.newPos ≤ 1 &&
      oldPos.getDistanceZ m.newPos ≤ 0)

/-- `Map::moveCreature` puts the creature on the new tile before it notifies it. -/
def apply (m : OwnMove) (t : Terrain) (c : WalkCache) : WalkCache :=
  { c with position := m.newPos }.onCreatureMove t m.newPos c.position (m.teleport t c.position)

end OwnMove

end Eloth
