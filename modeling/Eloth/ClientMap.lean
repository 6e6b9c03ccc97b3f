import Eloth.MapDescription
import Eloth.SpectatorCache

/-!
# The map that a client shows

A client is told of the tiles around its player when the player appears, of the edge that comes
into view with each step, and of the changes that its player can see. The messages for a step name
no place: the client counts its own position on, and reads the edge relative to it. What is out of
its sight it forgets.
-/

namespace Eloth

open MapDescription

/-- A place as the messages count it. -/
abbrev Cell := Int × Int × Int

def MapPosition.cell (pos : MapPosition) : Cell := (pos.x.toNat, pos.y.toNat, pos.z.toNat)

/-- The place that is meant by a cell: the coordinates are cut to the widths of the map. -/
def MapPosition.ofCell (cell : Cell) : MapPosition :=
  ⟨.ofInt cell.1, .ofInt cell.2.1, .ofInt cell.2.2⟩

def MapPosition.toPosition (pos : MapPosition) : Position :=
  ⟨pos.x.toNat, pos.y.toNat, pos.z.toNat⟩

def canSee (myPos pos : Cell) : Bool :=
  let offsetz := myPos.2.2 - pos.2.2
  (if myPos.2.2 ≤ 7 then decide (pos.2.2 ≤ 7) else decide (offsetz.natAbs ≤ 2)) &&
    (decide (pos.1 ≥ myPos.1 - maxClientViewportX + offsetz) &&
      decide (pos.1 ≤ myPos.1 + (maxClientViewportX + 1) + offsetz) &&
      decide (pos.2.1 ≥ myPos.2.1 - maxClientViewportY + offsetz) &&
      decide (pos.2.1 ≤ myPos.2.1 + (maxClientViewportY + 1) + offsetz))

/-- A tile with the creatures on it that one player can see. -/
structure ShownTile (τ : Type) where
  content : τ
  creatures : List CreatureId

/-- The edges of the view, one for each direction of a step. -/
inductive Edge where
  | north
  | east
  | south
  | west

/-- The messages about the map. The descriptions hold the tiles of a window one after another. -/
inductive MapMessage (τ : Type) where
  | mapDescription (pos : MapPosition) (tiles : List (Option (ShownTile τ)))
  | floorUp (tiles : List (Option (ShownTile τ)))
  | floorDown (tiles : List (Option (ShownTile τ)))
  | row (edge : Edge) (tiles : List (Option (ShownTile τ)))
  | updateTile (pos : MapPosition) (tile : Option (ShownTile τ))
  | addCreature (c : CreatureId) (pos : MapPosition)
  | moveCreature (c : CreatureId) (newPos : MapPosition)
  | removeCreature (c : CreatureId)

/-! ## The client -/

/-- What a client shows: its own position, the content of the tiles, and where the creatures
stand. -/
structure ClientMap (τ : Type) where
  position : Cell
  tiles : MapPosition → Option τ
  creatures : CreatureId → Option MapPosition

namespace Edge

def step : Edge → Cell → Cell
  | north, (x, y, z) => (x, y - 1, z)
  | east, (x, y, z) => (x + 1, y, z)
  | south, (x, y, z) => (x, y + 1, z)
  | west, (x, y, z) => (x - 1, y, z)

/-- The edge of the view from a position. -/
def window : Edge → Cell → List FloorWindow
  | north, (x, y, z) => mapWindow (x - maxClientViewportX) (y - maxClientViewportY) z viewWidth 1
  | east, (x, y, z) =>
    mapWindow (x + (maxClientViewportX + 1)) (y - maxClientViewportY) z 1 viewHeight
  | south, (x, y, z) =>
    mapWindow (x - maxClientViewportX) (y + (maxClientViewportY + 1)) z viewWidth 1
  | west, (x, y, z) => mapWindow (x - maxClientViewportX) (y - maxClientViewportY) z 1 viewHeight

end Edge

/-- The whole view from a position. -/
def viewWindow (position : Cell) : List FloorWindow :=
  mapWindow (position.1 - maxClientViewportX) (position.2.1 - maxClientViewportY) position.2.2
    viewWidth viewHeight

/-- The floors that come into view on the way up to a floor, seen from the floor below it. -/
def floorsAbove : Cell → List FloorWindow
  | (x, y, z) =>
    if z = 7 then
      (List.range 6).map fun (i : Nat) => ⟨x - maxClientViewportX, y - maxClientViewportY, 5 - i,
        viewWidth, viewHeight, 8 - (5 - i)⟩
    else if z > 7 then
      [⟨x - maxClientViewportX, y - maxClientViewportY, z - 2, viewWidth, viewHeight, 3⟩]
    else []

def floorsBelow : Cell → List FloorWindow
  | (x, y, z) =>
    if z = 8 then
      (List.range 3).map fun (i : Nat) => ⟨x - maxClientViewportX, y - maxClientViewportY, z + i,
        viewWidth, viewHeight, -i - 1⟩
    else if z > 8 ∧ z < 14 then
      [⟨x - maxClientViewportX, y - maxClientViewportY, z + 2, viewWidth, viewHeight, -3⟩]
    else []

namespace ClientMap

variable {τ : Type}

/-- The tile at a position is shown anew. -/
def put (v : ClientMap τ) (pos : MapPosition) (tile : Option (ShownTile τ)) : ClientMap τ :=
  { v with
    tiles := Function.update v.tiles pos (tile.map ShownTile.content)
    creatures := fun c =>
      if c ∈ (tile.map ShownTile.creatures).getD [] then some pos
      else if v.creatures c = some pos then none
      else v.creatures c }

def fill (v : ClientMap τ) (floors : List FloorWindow) (tiles : List (Option (ShownTile τ))) :
    ClientMap τ :=
  ((cellsOf floors).zip tiles).foldl (fun v (cell, tile) => v.put (.ofCell cell) tile) v

/-- From another position, without all that cannot be seen from there. -/
def lookFrom (v : ClientMap τ) (position : Cell) : ClientMap τ where
  position := position
  tiles pos := if canSee position pos.cell then v.tiles pos else none
  creatures c := (v.creatures c).filter fun pos => canSee position pos.cell

/-- A change of the floor moves the view by one tile in each direction, and two edges follow that
move it back. -/
def receive (v : ClientMap τ) : MapMessage τ → ClientMap τ
  | .mapDescription pos tiles => (v.lookFrom pos.cell).fill (viewWindow pos.cell) tiles
  | .floorUp tiles =>
    let (x, y, z) := v.position
    (v.lookFrom (x + 1, y + 1, z - 1)).fill (floorsAbove (x, y, z - 1)) tiles
  | .floorDown tiles =>
    let (x, y, z) := v.position
    (v.lookFrom (x - 1, y - 1, z + 1)).fill (floorsBelow (x, y, z + 1)) tiles
  | .row edge tiles =>
    let position := edge.step v.position
    (v.lookFrom position).fill (edge.window position) tiles
  | .updateTile pos tile => v.put pos tile
  | .addCreature c pos => { v with creatures := Function.update v.creatures c (some pos) }
  | .moveCreature c newPos => { v with creatures := Function.update v.creatures c (some newPos) }
  | .removeCreature c => { v with creatures := Function.update v.creatures c none }

end ClientMap

/-! ## The server -/

/-- What the map code asks of creatures and tiles. A player can see itself. -/
structure MapEnv where
  isPlayer : CreatureId → Bool
  canSeeCreature : CreatureId → CreatureId → Bool
  canSeeCreature_self : ∀ c, canSeeCreature c c
  hasGround : TileRef → Bool

/-- The map with what lies on its tiles, and the clients of the players. -/
structure ServedMap (τ : Type) where
  cached : CachedMap
  content : TileRef → τ
  clients : CreatureId → ClientMap τ

namespace ServedMap

variable {τ : Type} (env : MapEnv)

def position (s : ServedMap τ) (c : CreatureId) : Option MapPosition := s.cached.map.position c

def contentAt (s : ServedMap τ) (pos : MapPosition) : Option τ :=
  (s.cached.map.getTile pos.x pos.y pos.z).map s.content

def shown (s : ServedMap τ) (viewer : CreatureId) (pos : MapPosition) : Option (ShownTile τ) :=
  (s.contentAt pos).map fun content =>
    ⟨content, (s.cached.map.creatures pos).filter (env.canSeeCreature viewer)⟩

def describe (s : ServedMap τ) (viewer : CreatureId) (floors : List FloorWindow) :
    List (Option (ShownTile τ)) :=
  (cellsOf floors).map fun cell => s.shown env viewer (.ofCell cell)

def canSeePos (s : ServedMap τ) (viewer : CreatureId) (pos : MapPosition) : Bool :=
  (s.position viewer).any fun myPos => canSee myPos.cell pos.cell

def sendMapDescription (s : ServedMap τ) (viewer : CreatureId) (pos : MapPosition) :
    MapMessage τ :=
  .mapDescription pos (s.describe env viewer (mapWindow (pos.x.toNat - maxClientViewportX)
    (pos.y.toNat - maxClientViewportY) pos.z.toNat viewWidth viewHeight))

def sendAddCreature (s : ServedMap τ) (viewer c : CreatureId) (pos : MapPosition) :
    List (MapMessage τ) :=
  if !s.canSeePos viewer pos then []
  else if c ≠ viewer then [.addCreature c pos]
  else [s.sendMapDescription env viewer pos]

def sendRemoveTileCreature (s : ServedMap τ) (viewer c : CreatureId) (pos : MapPosition) :
    List (MapMessage τ) :=
  if s.canSeePos viewer pos then [.removeCreature c] else []

def sendUpdateTile (s : ServedMap τ) (viewer : CreatureId) (pos : MapPosition) :
    List (MapMessage τ) :=
  if s.canSeePos viewer pos then [.updateTile pos (s.shown env viewer pos)] else []

def MoveUpCreature (s : ServedMap τ) (viewer : CreatureId) (newPos oldPos : Position) :
    List (MapMessage τ) :=
  [.floorUp (s.describe env viewer (moveUpFloors newPos oldPos)),
    .row .west (s.describe env viewer (mapWindow (oldPos.x - maxClientViewportX)
      (oldPos.y - (maxClientViewportY - 1)) newPos.z 1 viewHeight)),
    .row .north (s.describe env viewer (mapWindow (oldPos.x - maxClientViewportX)
      (oldPos.y - maxClientViewportY) newPos.z viewWidth 1))]

def MoveDownCreature (s : ServedMap τ) (viewer : CreatureId) (newPos oldPos : Position) :
    List (MapMessage τ) :=
  [.floorDown (s.describe env viewer (moveDownFloors newPos oldPos)),
    .row .east (s.describe env viewer (mapWindow (oldPos.x + (maxClientViewportX + 1))
      (oldPos.y - (maxClientViewportY + 1)) newPos.z 1 viewHeight)),
    .row .south (s.describe env viewer (mapWindow (oldPos.x - maxClientViewportX)
      (oldPos.y + (maxClientViewportY + 1)) newPos.z viewWidth 1))]

/-- The change of the floor, the edge for the old x and the edge with the new y. -/
def sendEdges (s : ServedMap τ) (viewer : CreatureId) (newPos oldPos : Position) :
    List (MapMessage τ) :=
  (if newPos.z > oldPos.z then s.MoveDownCreature env viewer newPos oldPos
    else if newPos.z < oldPos.z then s.MoveUpCreature env viewer newPos oldPos
    else []) ++
  (if oldPos.y > newPos.y then
      [.row .north (s.describe env viewer (mapWindow (oldPos.x - maxClientViewportX)
        (newPos.y - maxClientViewportY) newPos.z viewWidth 1))]
    else if oldPos.y < newPos.y then
      [.row .south (s.describe env viewer (mapWindow (oldPos.x - maxClientViewportX)
        (newPos.y + (maxClientViewportY + 1)) newPos.z viewWidth 1))]
    else []) ++
  (if oldPos.x < newPos.x then
      [.row .east (s.describe env viewer (mapWindow (newPos.x + (maxClientViewportX + 1))
        (newPos.y - maxClientViewportY) newPos.z 1 viewHeight))]
    else if oldPos.x > newPos.x then
      [.row .west (s.describe env viewer (mapWindow (newPos.x - maxClientViewportX)
        (newPos.y - maxClientViewportY) newPos.z 1 viewHeight))]
    else [])

/-- The creature stands on the new tile by now. -/
def sendMoveCreature (s : ServedMap τ) (viewer c : CreatureId) (newPos oldPos : MapPosition)
    (teleport : Bool) : List (MapMessage τ) :=
  if c = viewer then
    if teleport then
      s.sendRemoveTileCreature viewer c oldPos ++ [s.sendMapDescription env viewer newPos]
    else
      (if oldPos.z = 7 ∧ newPos.z ≥ 8 then [.removeCreature c] else [.moveCreature c newPos]) ++
        s.sendEdges env viewer newPos.toPosition oldPos.toPosition
  else if s.canSeePos viewer oldPos && s.canSeePos viewer newPos then
    if teleport ∨ oldPos.z = 7 ∧ newPos.z ≥ 8 then
      s.sendRemoveTileCreature viewer c oldPos ++ s.sendAddCreature env viewer c newPos
    else [.moveCreature c newPos]
  else if s.canSeePos viewer oldPos then s.sendRemoveTileCreature viewer c oldPos
  else if s.canSeePos viewer newPos then s.sendAddCreature env viewer c newPos
  else []

/-- Every spectator is found once, and each player among them has a client of its own. -/
def send (s : ServedMap τ) (spectators : List CreatureId)
    (messages : CreatureId → List (MapMessage τ)) : ServedMap τ :=
  { s with clients := fun viewer =>
      if env.isPlayer viewer ∧ viewer ∈ spectators then
        (messages viewer).foldl ClientMap.receive (s.clients viewer)
      else s.clients viewer }

def spectators (s : ServedMap τ) (pos : MapPosition) : List CreatureId :=
  (s.cached.getSpectators env.isPlayer [] (CachedMap.around pos)).2

/-- The search of a move, around the old position and around the new one. -/
def moveSpectators (s : ServedMap τ) (oldPos newPos : MapPosition) : List CreatureId :=
  let (cached, spectators) := s.cached.getSpectators env.isPlayer [] (CachedMap.around oldPos)
  addSpectators spectators (cached.getSpectators env.isPlayer [] (CachedMap.around newPos)).2

def placeCreature (s : ServedMap τ) (c : CreatureId) (dest : MapPosition) : ServedMap τ :=
  let s := { s with cached := s.cached.apply env.isPlayer (.placeCreature c dest) }
  let (cached, spectators) := s.cached.getSpectators env.isPlayer [] (CachedMap.around dest)
  { s with cached := cached }.send env spectators fun viewer => s.sendAddCreature env viewer c dest

def areInRange (p1 p2 : MapPosition) : Bool :=
  ((p1.x.toNat : Int) - p2.x.toNat).natAbs ≤ 1 && ((p1.y.toNat : Int) - p2.y.toNat).natAbs ≤ 1 &&
    ((p1.z.toNat : Int) - p2.z.toNat).natAbs ≤ 0

def moveCreature (s : ServedMap τ) (c : CreatureId) (newPos : MapPosition)
    (forceTeleport : Bool) : ServedMap τ :=
  match s.position c with
  | none => s
  | some oldPos =>
    let teleport := forceTeleport ||
      !(s.cached.map.getTile newPos.x newPos.y newPos.z).any env.hasGround ||
      !areInRange oldPos newPos
    let spectators := s.moveSpectators env oldPos newPos
    let s := { s with cached := s.cached.apply env.isPlayer (.moveCreature c newPos) }
    s.send env spectators fun viewer =>
      if env.canSeeCreature viewer c then s.sendMoveCreature env viewer c newPos oldPos teleport
      else []

def removeCreature (s : ServedMap τ) (c : CreatureId) : ServedMap τ :=
  match s.position c with
  | none => s
  | some pos =>
    let spectators := s.spectators env pos
    let s := { s with cached := s.cached.apply env.isPlayer (.removeCreature c) }
    s.send env spectators fun viewer =>
      if env.canSeeCreature viewer c then s.sendRemoveTileCreature viewer c pos else []

/-- A change of what lies on a tile that is told by `Tile::onUpdateTile`. -/
def updateTile (s : ServedMap τ) (pos : MapPosition) (tile : TileRef) (content : τ) :
    ServedMap τ :=
  let s := { s with content := Function.update s.content tile content }
  let (cached, spectators) :=
    s.cached.getSpectators env.isPlayer [] { CachedMap.around pos with onlyPlayers := true }
  { s with cached := cached }.send env spectators fun viewer => s.sendUpdateTile env viewer pos

end ServedMap

inductive ServedOp (τ : Type) where
  | placeCreature (c : CreatureId) (dest : MapPosition)
  | moveCreature (c : CreatureId) (newPos : MapPosition) (forceTeleport : Bool)
  | removeCreature (c : CreatureId)
  | updateTile (pos : MapPosition) (tile : TileRef) (content : τ)
  | getSpectators (q : SpectatorQuery)

namespace ServedOp

variable {τ : Type} (env : MapEnv)

/-- A creature that is removed is seen by every player who is told of it. -/
def Allowed (s : ServedMap τ) : ServedOp τ → Prop
  | placeCreature c dest => (MapOp.placeCreature c dest).Allowed s.cached.map
  | moveCreature c newPos _ => (MapOp.moveCreature c newPos).Allowed s.cached.map
  | removeCreature c => (MapOp.removeCreature c).Allowed s.cached.map ∧ ∀ pos,
      s.position c = some pos → ∀ viewer ∈ s.spectators env pos, env.isPlayer viewer →
        env.canSeeCreature viewer c
  | updateTile pos tile _ => s.cached.map.getTile pos.x pos.y pos.z = some tile
  | getSpectators _ => True

def apply (s : ServedMap τ) : ServedOp τ → ServedMap τ
  | placeCreature c dest => s.placeCreature env c dest
  | moveCreature c newPos forceTeleport => s.moveCreature env c newPos forceTeleport
  | removeCreature c => s.removeCreature env c
  | updateTile pos tile content => s.updateTile env pos tile content
  | getSpectators q => { s with cached := (s.cached.getSpectators env.isPlayer [] q).1 }

end ServedOp

/-- The runs on a map that is loaded and that nobody has entered yet. -/
def servedSystem {τ : Type} (env : MapEnv) : Run.System (ServedMap τ) (ServedOp τ) where
  init s := Run.Reachable (cacheSystem env.isPlayer) s.cached ∧ ∀ c, s.position c = none
  step s op s' := op.Allowed env s ∧ s' = op.apply env s

/-! ## Windows -/

theorem ofInt_coordinate (x : UInt16) : UInt16.ofInt x.toNat = x := by
  have hx := x.toNat_lt
  rw [UInt16.ofInt, Int.emod_eq_of_lt (Int.natCast_nonneg _) (by omega), Int.toNat_natCast,
    UInt16.ofNat_toNat]

theorem ofInt_floor (z : UInt8) : UInt8.ofInt z.toNat = z := by
  have hz := z.toNat_lt
  rw [UInt8.ofInt, Int.emod_eq_of_lt (Int.natCast_nonneg _) (by omega), Int.toNat_natCast,
    UInt8.ofNat_toNat]

theorem MapPosition.ofCell_cell (pos : MapPosition) : ofCell pos.cell = pos := by
  rw [ofCell, cell, ofInt_coordinate, ofInt_coordinate, ofInt_floor]

theorem canSee_iff {myPos pos : Cell} : canSee myPos pos ↔
    (myPos.2.2 ≤ 7 ∧ pos.2.2 ≤ 7 ∨
      7 < myPos.2.2 ∧ myPos.2.2 - 2 ≤ pos.2.2 ∧ pos.2.2 ≤ myPos.2.2 + 2) ∧
    (myPos.1 - 8 + (myPos.2.2 - pos.2.2) ≤ pos.1 ∧ pos.1 ≤ myPos.1 + 9 + (myPos.2.2 - pos.2.2)) ∧
    myPos.2.1 - 6 + (myPos.2.2 - pos.2.2) ≤ pos.2.1 ∧
      pos.2.1 ≤ myPos.2.1 + 7 + (myPos.2.2 - pos.2.2) := by
  simp only [canSee, maxClientViewportX, maxClientViewportY, Bool.and_eq_true, decide_eq_true_eq]
  split_ifs <;> simp only [decide_eq_true_eq] <;> omega

namespace MapDescription

theorem mem_cells {f : FloorWindow} {cell : Cell} : cell ∈ f.cells ↔ cell.2.2 = f.z ∧
    (f.x + f.offset ≤ cell.1 ∧ cell.1 < f.x + f.offset + f.width) ∧
    f.y + f.offset ≤ cell.2.1 ∧ cell.2.1 < f.y + f.offset + f.height := by
  obtain ⟨a, b, c⟩ := cell
  simp only [FloorWindow.cells, List.mem_flatMap, List.mem_map, List.mem_range, Prod.mk.injEq]
  constructor
  · rintro ⟨nx, hnx, ny, hny, rfl, rfl, rfl⟩
    omega
  · rintro ⟨hz, hx, hy⟩
    exact ⟨(a - (f.x + f.offset)).toNat, by omega, (b - (f.y + f.offset)).toNat, by omega,
      by omega, by omega, hz.symm⟩

theorem mem_cellsOf {floors : List FloorWindow} {cell : Cell} :
    cell ∈ cellsOf floors ↔ ∃ f ∈ floors, cell ∈ f.cells := List.mem_flatMap

theorem mem_floorsOf {z nz : Int} : nz ∈ floorsOf z ↔
    7 < z ∧ z - 2 ≤ nz ∧ nz ≤ 15 ∧ nz ≤ z + 2 ∨ z ≤ 7 ∧ 0 ≤ nz ∧ nz ≤ 7 := by
  unfold floorsOf
  split_ifs with hz
  · simp only [List.mem_map, List.mem_range]
    constructor
    · rintro ⟨i, hi, rfl⟩
      omega
    · intro h
      exact ⟨(nz - (z - 2)).toNat, by omega, by omega⟩
  · simp only [List.mem_map, List.mem_range]
    constructor
    · rintro ⟨i, hi, rfl⟩
      omega
    · intro h
      exact ⟨(7 - nz).toNat, by omega, by omega⟩

theorem mem_mapWindow {x y z width height : Int} {cell : Cell} :
    cell ∈ cellsOf (mapWindow x y z width height) ↔ cell.2.2 ∈ floorsOf z ∧
      (x + (z - cell.2.2) ≤ cell.1 ∧ cell.1 < x + (z - cell.2.2) + width) ∧
      y + (z - cell.2.2) ≤ cell.2.1 ∧ cell.2.1 < y + (z - cell.2.2) + height := by
  simp only [mapWindow, mem_cellsOf, List.mem_map]
  constructor
  · rintro ⟨_, ⟨nz, hnz, rfl⟩, hcell⟩
    rw [mem_cells] at hcell
    obtain ⟨rfl, hx, hy⟩ := hcell
    exact ⟨hnz, hx, hy⟩
  · rintro ⟨hz, hx, hy⟩
    exact ⟨_, ⟨_, hz, rfl⟩, mem_cells.mpr ⟨rfl, hx, hy⟩⟩

end MapDescription

/-! ## What comes into view -/

section Views

variable {myPos cell : Cell}

theorem mem_viewWindow (h : canSee myPos cell) (hfloor : 0 ≤ cell.2.2 ∧ cell.2.2 ≤ 15) :
    cell ∈ cellsOf (viewWindow myPos) := by
  rw [canSee_iff] at h
  rw [viewWindow, mem_mapWindow, mem_floorsOf]
  simp only [viewWidth, viewHeight, maxClientViewportX, maxClientViewportY]
  omega

theorem seen_row (edge : Edge) (h : canSee (edge.step myPos) cell)
    (hfloor : 0 ≤ cell.2.2 ∧ cell.2.2 ≤ 15) :
    canSee myPos cell ∨ cell ∈ cellsOf (edge.window (edge.step myPos)) := by
  obtain ⟨x, y, z⟩ := myPos
  cases edge <;>
  · rw [canSee_iff] at h ⊢
    simp only [Edge.step] at h ⊢
    rw [Edge.window, mem_mapWindow, mem_floorsOf]
    simp only [viewWidth, viewHeight, maxClientViewportX, maxClientViewportY]
    omega

theorem seen_floorUp {x y z : Int} (h : canSee (x + 1, y + 1, z - 1) cell)
    (hfloor : 0 ≤ cell.2.2 ∧ cell.2.2 ≤ 15) :
    canSee (x, y, z) cell ∨ cell ∈ cellsOf (floorsAbove (x, y, z - 1)) := by
  rw [canSee_iff] at h ⊢
  by_contra hnew
  push Not at hnew
  obtain ⟨hold, hnew⟩ := hnew
  simp only [floorsAbove, maxClientViewportX, maxClientViewportY, mem_cellsOf] at hnew
  dsimp only at h hold
  split_ifs at hnew with h7 h8
  · refine hnew ⟨_, List.mem_map.mpr ⟨(5 - cell.2.2).toNat, List.mem_range.mpr (by omega), rfl⟩,
      mem_cells.mpr ?_⟩
    simp only [viewWidth, viewHeight, maxClientViewportX, maxClientViewportY]
    omega
  · refine hnew ⟨_, List.mem_singleton_self _, mem_cells.mpr ?_⟩
    simp only [viewWidth, viewHeight, maxClientViewportX, maxClientViewportY]
    omega
  · omega

theorem seen_floorDown {x y z : Int} (h : canSee (x - 1, y - 1, z + 1) cell)
    (hfloor : 0 ≤ cell.2.2 ∧ cell.2.2 ≤ 15) :
    canSee (x, y, z) cell ∨ cell ∈ cellsOf (floorsBelow (x, y, z + 1)) := by
  rw [canSee_iff] at h ⊢
  by_contra hnew
  push Not at hnew
  obtain ⟨hold, hnew⟩ := hnew
  simp only [floorsBelow, maxClientViewportX, maxClientViewportY, mem_cellsOf] at hnew
  dsimp only at h hold
  split_ifs at hnew with h8 h14
  · refine hnew ⟨_, List.mem_map.mpr ⟨(cell.2.2 - 8).toNat, List.mem_range.mpr (by omega), rfl⟩,
      mem_cells.mpr ?_⟩
    simp only [viewWidth, viewHeight, maxClientViewportX, maxClientViewportY]
    omega
  · refine hnew ⟨_, List.mem_singleton_self _, mem_cells.mpr ?_⟩
    simp only [viewWidth, viewHeight, maxClientViewportX, maxClientViewportY]
    omega
  · omega

end Views

/-! ## Agreement of a client with the map -/

section Agreement

variable {τ : Type} {env : MapEnv} {s : ServedMap τ} {viewer c : CreatureId} {v : ClientMap τ}
  {pos q : MapPosition}

/-- At a position, the client shows the tile and the creatures that its player can see. -/
structure Agrees (env : MapEnv) (s : ServedMap τ) (viewer : CreatureId) (v : ClientMap τ)
    (pos : MapPosition) : Prop where
  tile : v.tiles pos = s.contentAt pos
  creature : ∀ c, env.canSeeCreature viewer c →
    (v.creatures c = some pos ↔ s.position c = some pos)

/-- The client is right about all that it can see. -/
def Current (env : MapEnv) (s : ServedMap τ) (viewer : CreatureId) (v : ClientMap τ) : Prop :=
  ∀ pos, pos.z.toNat < MAP_MAX_LAYERS → canSee v.position pos.cell → Agrees env s viewer v pos

theorem mem_shown (hinv : s.cached.map.Inv env.isPlayer) :
    c ∈ ((s.shown env viewer pos).map ShownTile.creatures).getD [] ↔
      s.position c = some pos ∧ env.canSeeCreature viewer c := by
  have hmem := (hinv.vectors pos).2 c
  unfold ServedMap.shown ServedMap.contentAt
  cases htile : s.cached.map.getTile pos.x pos.y pos.z with
  | none =>
    have habsent : s.position c ≠ some pos := fun hc => by simpa [htile] using hinv.standing hc
    simp [habsent]
  | some tile => simp [hmem, ServedMap.position]

theorem content_shown : (s.shown env viewer pos).map ShownTile.content = s.contentAt pos := by
  cases h : s.contentAt pos <;> simp [ServedMap.shown, h]

theorem creatures_put {tile : Option (ShownTile τ)} :
    (v.put q tile).creatures c = some pos ↔
      if c ∈ (tile.map ShownTile.creatures).getD [] then q = pos
      else q ≠ pos ∧ v.creatures c = some pos := by
  unfold ClientMap.put
  dsimp only
  split_ifs with hmem hq
  · exact Option.some_inj
  · rw [hq]
    simp
  · exact ⟨fun h => ⟨fun hqp => hq (hqp ▸ h), h⟩, And.right⟩

theorem agrees_put (hinv : s.cached.map.Inv env.isPlayer) :
    Agrees env s viewer (v.put pos (s.shown env viewer pos)) pos where
  tile := (Function.update_self ..).trans content_shown
  creature c hc := by
    rw [creatures_put]
    split_ifs with hstands <;> rw [mem_shown hinv] at hstands
    · simp [hstands.1]
    · have habsent : s.position c ≠ some pos := fun h => hstands ⟨h, hc⟩
      simp [habsent]

theorem Agrees.put (h : Agrees env s viewer v pos) (hinv : s.cached.map.Inv env.isPlayer)
    (q : MapPosition) : Agrees env s viewer (v.put q (s.shown env viewer q)) pos := by
  by_cases hq : q = pos
  · rw [hq]
    exact agrees_put hinv
  · refine ⟨(Function.update_of_ne (Ne.symm hq) ..).trans h.tile, fun c hc => ?_⟩
    rw [creatures_put]
    split_ifs with hstands
    · rw [mem_shown hinv] at hstands
      simp [hstands.1, hq]
    · rw [← h.creature c hc, and_iff_right hq]

theorem fill_describe (floors : List FloorWindow) :
    v.fill floors (s.describe env viewer floors) = (cellsOf floors).foldl
      (fun v cell => v.put (.ofCell cell) (s.shown env viewer (.ofCell cell))) v := by
  have hzip (cells : List Cell) (f : Cell → Option (ShownTile τ)) :
      cells.zip (cells.map f) = cells.map fun cell => (cell, f cell) := by
    induction cells with
    | nil => rfl
    | cons cell cells ih => rw [List.map_cons, List.zip_cons_cons, ih, List.map_cons]
  rw [ClientMap.fill, ServedMap.describe, hzip, List.foldl_map]

theorem agrees_fill (hinv : s.cached.map.Inv env.isPlayer) (floors : List FloorWindow)
    (h : Agrees env s viewer v pos ∨ pos.cell ∈ cellsOf floors) :
    Agrees env s viewer (v.fill floors (s.describe env viewer floors)) pos := by
  rw [fill_describe]
  generalize cellsOf floors = cells at h
  induction cells generalizing v with
  | nil => exact h.resolve_right List.not_mem_nil
  | cons cell cells ih =>
    refine ih ?_
    obtain hv | hcell := h
    · exact .inl (hv.put hinv _)
    · obtain rfl | hcell := List.mem_cons.mp hcell
      · refine .inl ?_
        dsimp only
        rw [MapPosition.ofCell_cell]
        exact agrees_put hinv
      · exact .inr hcell

theorem position_fill (floors : List FloorWindow) (tiles : List (Option (ShownTile τ))) :
    (v.fill floors tiles).position = v.position := by
  unfold ClientMap.fill
  induction (cellsOf floors).zip tiles generalizing v with
  | nil => rfl
  | cons cell cells ih => exact ih

theorem Agrees.lookFrom (h : Agrees env s viewer v pos) {position : Cell}
    (hsee : canSee position pos.cell) : Agrees env s viewer (v.lookFrom position) pos where
  tile := (if_pos hsee).trans h.tile
  creature c hc := by
    rw [← h.creature c hc]
    simp [ClientMap.lookFrom, Option.filter_eq_some_iff, hsee]

theorem current_fill (hinv : s.cached.map.Inv env.isPlayer) {position : Cell}
    {floors : List FloorWindow}
    (h : ∀ pos : MapPosition, pos.z.toNat < MAP_MAX_LAYERS → canSee position pos.cell →
      Agrees env s viewer v pos ∨ pos.cell ∈ cellsOf floors) :
    Current env s viewer
      ((v.lookFrom position).fill floors (s.describe env viewer floors)) := by
  intro pos hz hsee
  rw [position_fill] at hsee
  exact agrees_fill hinv floors ((h pos hz hsee).imp_left fun hv => hv.lookFrom hsee)

theorem floor_cell (hz : pos.z.toNat < MAP_MAX_LAYERS) :
    0 ≤ pos.cell.2.2 ∧ pos.cell.2.2 ≤ 15 := by
  simp only [MAP_MAX_LAYERS] at hz
  simp only [MapPosition.cell]
  omega

theorem current_mapDescription (hinv : s.cached.map.Inv env.isPlayer) (pos : MapPosition) :
    Current env s viewer (v.receive (s.sendMapDescription env viewer pos)) :=
  current_fill hinv fun _ hz hsee => .inr (mem_viewWindow hsee (floor_cell hz))

theorem current_row (hinv : s.cached.map.Inv env.isPlayer) (h : Current env s viewer v)
    (edge : Edge) : Current env s viewer
      (v.receive (.row edge (s.describe env viewer (edge.window (edge.step v.position))))) :=
  current_fill hinv fun pos hz hsee => (seen_row edge hsee (floor_cell hz)).imp_left (h pos hz)

theorem position_row (edge : Edge) (tiles : List (Option (ShownTile τ))) :
    (v.receive (.row edge tiles)).position = edge.step v.position := position_fill _ _

theorem current_floorUp (hinv : s.cached.map.Inv env.isPlayer) (h : Current env s viewer v)
    {x y z : Int} (hposition : v.position = (x, y, z)) : Current env s viewer
      (v.receive (.floorUp (s.describe env viewer (floorsAbove (x, y, z - 1))))) := by
  rw [ClientMap.receive, hposition]
  exact current_fill hinv fun pos hz hsee =>
    (seen_floorUp hsee (floor_cell hz)).imp_left fun hold => h pos hz (hposition ▸ hold)

theorem current_floorDown (hinv : s.cached.map.Inv env.isPlayer) (h : Current env s viewer v)
    {x y z : Int} (hposition : v.position = (x, y, z)) : Current env s viewer
      (v.receive (.floorDown (s.describe env viewer (floorsBelow (x, y, z + 1))))) := by
  rw [ClientMap.receive, hposition]
  exact current_fill hinv fun pos hz hsee =>
    (seen_floorDown hsee (floor_cell hz)).imp_left fun hold => h pos hz (hposition ▸ hold)

/-- The client at a position, and right about what it sees from there. -/
def CurrentAt (env : MapEnv) (s : ServedMap τ) (viewer : CreatureId) (position : Cell)
    (v : ClientMap τ) : Prop := v.position = position ∧ Current env s viewer v

theorem currentAt_row (hinv : s.cached.map.Inv env.isPlayer) {position : Cell}
    (h : CurrentAt env s viewer position v) (edge : Edge) (next : Cell)
    (hnext : edge.step position = next) {floors : List FloorWindow}
    (hfloors : floors = edge.window next) :
    CurrentAt env s viewer next (v.receive (.row edge (s.describe env viewer floors))) := by
  obtain ⟨rfl, hcurrent⟩ := h
  rw [hfloors, ← hnext]
  exact ⟨position_row edge _, current_row hinv hcurrent edge⟩

theorem moveDownFloors_eq {newPos oldPos : Position} (hz : newPos.z = oldPos.z + 1) :
    moveDownFloors newPos oldPos = floorsBelow (oldPos.x, oldPos.y, (oldPos.z : Int) + 1) := by
  have hz' : (newPos.z : Int) = oldPos.z + 1 := by omega
  have h8 : newPos.z = 8 ↔ (oldPos.z : Int) + 1 = 8 := by omega
  have h14 : newPos.z > oldPos.z ∧ newPos.z > 8 ∧ newPos.z < 14 ↔
      (oldPos.z : Int) + 1 > 8 ∧ (oldPos.z : Int) + 1 < 14 := by omega
  simp only [moveDownFloors, floorsBelow, hz', h8, h14]

theorem moveUpFloors_eq {newPos oldPos : Position} (hz : newPos.z + 1 = oldPos.z) :
    moveUpFloors newPos oldPos = floorsAbove (oldPos.x, oldPos.y, (oldPos.z : Int) - 1) := by
  have h7 : newPos.z = 7 ↔ (oldPos.z : Int) - 1 = 7 := by omega
  have h8 : newPos.z > 7 ↔ (oldPos.z : Int) - 1 > 7 := by omega
  have hfloor : (oldPos.z : Int) - 1 - 2 = oldPos.z - 3 := by omega
  simp only [moveUpFloors, floorsAbove, h7, h8, hfloor]

theorem currentAt_moveDown (hinv : s.cached.map.Inv env.isPlayer) {newPos oldPos : Position}
    (h : CurrentAt env s viewer (oldPos.x, oldPos.y, oldPos.z) v) (hz : newPos.z = oldPos.z + 1) :
    CurrentAt env s viewer (oldPos.x, oldPos.y, newPos.z)
      ((s.MoveDownCreature env viewer newPos oldPos).foldl ClientMap.receive v) := by
  have hz' : (newPos.z : Int) = oldPos.z + 1 := by omega
  rw [ServedMap.MoveDownCreature, moveDownFloors_eq hz]
  simp only [List.foldl_cons, List.foldl_nil, hz']
  have hdown := current_floorDown hinv h.2 h.1
  have hposition : (v.receive (.floorDown (s.describe env viewer
      (floorsBelow (oldPos.x, oldPos.y, (oldPos.z : Int) + 1))))).position =
        ((oldPos.x : Int) - 1, (oldPos.y : Int) - 1, (oldPos.z : Int) + 1) := by
    rw [ClientMap.receive, h.1]
    exact position_fill _ _
  refine currentAt_row hinv (currentAt_row hinv ⟨hposition, hdown⟩ .east
    (oldPos.x, (oldPos.y : Int) - 1, (oldPos.z : Int) + 1) ?_ ?_) .south _ ?_ ?_
  · simp [Edge.step]
  · simp only [Edge.window]
    congr 1
    omega
  · simp [Edge.step]
  · simp only [Edge.window]

theorem currentAt_moveUp (hinv : s.cached.map.Inv env.isPlayer) {newPos oldPos : Position}
    (h : CurrentAt env s viewer (oldPos.x, oldPos.y, oldPos.z) v) (hz : newPos.z + 1 = oldPos.z) :
    CurrentAt env s viewer (oldPos.x, oldPos.y, newPos.z)
      ((s.MoveUpCreature env viewer newPos oldPos).foldl ClientMap.receive v) := by
  have hz' : (newPos.z : Int) = oldPos.z - 1 := by omega
  rw [ServedMap.MoveUpCreature, moveUpFloors_eq hz]
  simp only [List.foldl_cons, List.foldl_nil, hz']
  have hup := current_floorUp hinv h.2 h.1
  have hposition : (v.receive (.floorUp (s.describe env viewer
      (floorsAbove (oldPos.x, oldPos.y, (oldPos.z : Int) - 1))))).position =
        ((oldPos.x : Int) + 1, (oldPos.y : Int) + 1, (oldPos.z : Int) - 1) := by
    rw [ClientMap.receive, h.1]
    exact position_fill _ _
  refine currentAt_row hinv (currentAt_row hinv ⟨hposition, hup⟩ .west
    (oldPos.x, (oldPos.y : Int) + 1, (oldPos.z : Int) - 1) ?_ ?_) .north _ ?_ ?_
  · simp [Edge.step]
  · simp only [Edge.window]
    congr 1
    omega
  · simp [Edge.step]
  · simp only [Edge.window]

/-- A step of at most one field in each direction, also to the floor above or below. -/
def Adjacent (newPos oldPos : Position) : Prop :=
  (newPos.x ≤ oldPos.x + 1 ∧ oldPos.x ≤ newPos.x + 1) ∧
    (newPos.y ≤ oldPos.y + 1 ∧ oldPos.y ≤ newPos.y + 1) ∧
      newPos.z ≤ oldPos.z + 1 ∧ oldPos.z ≤ newPos.z + 1

/-- The messages for a step take the client to the new position, and it has been told of all that
it sees from there. -/
theorem currentAt_sendEdges (hinv : s.cached.map.Inv env.isPlayer) {newPos oldPos : Position}
    (h : CurrentAt env s viewer (oldPos.x, oldPos.y, oldPos.z) v)
    (hadjacent : Adjacent newPos oldPos) :
    CurrentAt env s viewer (newPos.x, newPos.y, newPos.z)
      ((s.sendEdges env viewer newPos oldPos).foldl ClientMap.receive v) := by
  obtain ⟨hx, hy, hz⟩ := hadjacent
  rw [ServedMap.sendEdges, List.foldl_append, List.foldl_append]
  have hfloor : CurrentAt env s viewer (oldPos.x, oldPos.y, newPos.z)
      ((if newPos.z > oldPos.z then s.MoveDownCreature env viewer newPos oldPos
        else if newPos.z < oldPos.z then s.MoveUpCreature env viewer newPos oldPos
        else []).foldl ClientMap.receive v) := by
    split_ifs with hdown hup
    · exact currentAt_moveDown hinv h (by omega)
    · exact currentAt_moveUp hinv h (by omega)
    · have hsame : newPos.z = oldPos.z := by omega
      rw [hsame]
      exact h
  generalize List.foldl ClientMap.receive v _ = v₁ at hfloor ⊢
  have hrow : CurrentAt env s viewer (oldPos.x, newPos.y, newPos.z)
      ((if oldPos.y > newPos.y then
          [MapMessage.row .north (s.describe env viewer (mapWindow (oldPos.x - maxClientViewportX)
            (newPos.y - maxClientViewportY) newPos.z viewWidth 1))]
        else if oldPos.y < newPos.y then
          [.row .south (s.describe env viewer (mapWindow (oldPos.x - maxClientViewportX)
            (newPos.y + (maxClientViewportY + 1)) newPos.z viewWidth 1))]
        else []).foldl ClientMap.receive v₁) := by
    split_ifs with hnorth hsouth
    · refine currentAt_row hinv hfloor .north _ ?_ rfl
      simp only [Edge.step, Prod.mk.injEq, true_and, and_true]
      omega
    · refine currentAt_row hinv hfloor .south _ ?_ rfl
      simp only [Edge.step, Prod.mk.injEq, true_and, and_true]
      omega
    · have hsame : newPos.y = oldPos.y := by omega
      rw [hsame]
      exact hfloor
  generalize List.foldl ClientMap.receive v₁ _ = v₂ at hrow ⊢
  split_ifs with heast hwest
  · refine currentAt_row hinv hrow .east _ ?_ rfl
    simp only [Edge.step, Prod.mk.injEq, and_true]
    omega
  · refine currentAt_row hinv hrow .west _ ?_ rfl
    simp only [Edge.step, Prod.mk.injEq, and_true]
    omega
  · have hsame : newPos.x = oldPos.x := by omega
    rw [hsame]
    exact hrow

end Agreement

end Eloth
