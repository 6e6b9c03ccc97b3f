import Eloth.Lib.SkipCode
import Eloth.NetworkMessage
import Eloth.KnownCreatures

/-!
# Map descriptions

What a client is sent of a window of the map: the tiles column by column and floor by floor, with
the number of tiles that do not exist in between.
-/

namespace Eloth

open NetworkMessage

/-- A thing on a tile, as the writes that describe it. The client finds where it ends. -/
structure Thing (r : SkipCode.Reader) where
  writes : List (List UInt8)
  readable : SkipCode.Readable r writes.flatten

/-- A tile as one player sees it. The creatures are those that the player can see, from the
bottom of the tile up. -/
structure DescribedTile (r : SkipCode.Reader) where
  ground : Option (Thing r)
  topItems : List (Thing r)
  creatures : List (Thing r)
  downItems : List (Thing r)

abbrev TileMap (r : SkipCode.Reader) := Int × Int × Int → Option (DescribedTile r)

namespace MapDescription

variable {r : SkipCode.Reader}

/-- The things that `GetTileDescription` writes: ten things at most, apart from creatures. -/
def things (tile : DescribedTile r) : List (Thing r) :=
  let top := tile.ground.toList ++ tile.topItems.take (10 - tile.ground.toList.length)
  let shown := top ++ tile.creatures.reverse
  if shown.length < 10 then shown ++ tile.downItems.take (10 - shown.length) else shown

def GetTileDescription (tile : DescribedTile r) (msg : NetworkMessage) : NetworkMessage :=
  (things tile).foldl (fun msg thing => thing.writes.foldl NetworkMessage.add msg) msg

/-- The pending number of missing tiles is written. -/
def addSkip (msg : NetworkMessage) (skip : Int) : NetworkMessage :=
  if skip ≥ 0 then (msg.addByte (UInt8.ofNat skip.toNat)).addByte 0xFF else msg

def describeCell (state : NetworkMessage × Int) (tile : Option (DescribedTile r)) :
    NetworkMessage × Int :=
  let (msg, skip) := state
  match tile with
  | some tile => (GetTileDescription tile (addSkip msg skip), 0)
  | none =>
    if skip = 0xFE then ((msg.addByte 0xFF).addByte 0xFF, -1)
    else (msg, skip + 1)

structure FloorWindow where
  x : Int
  y : Int
  z : Int
  width : Int
  height : Int
  offset : Int

def FloorWindow.cells (f : FloorWindow) : List (Int × Int × Int) :=
  (List.range f.width.toNat).flatMap fun (nx : Nat) =>
    (List.range f.height.toNat).map fun (ny : Nat) => (f.x + nx + f.offset, f.y + ny + f.offset, f.z)

def GetFloorDescription (getTile : TileMap r) (f : FloorWindow) (state : NetworkMessage × Int) :
    NetworkMessage × Int :=
  f.cells.foldl (fun state cell => describeCell state (getTile cell)) state

def describeFloors (getTile : TileMap r) (floors : List FloorWindow) (msg : NetworkMessage) :
    NetworkMessage :=
  let state := floors.foldl (fun state f => GetFloorDescription getTile f state) (msg, -1)
  addSkip state.1 state.2

/-- From the second floor below to the second above, or from the surface up. -/
def floorsOf (z : Int) : List Int :=
  if z > 7 then
    (List.range (min 15 (z + 2) + 1 - (z - 2)).toNat).map fun (i : Nat) => z - 2 + i
  else (List.range 8).map fun (i : Nat) => 7 - i

def mapWindow (x y z width height : Int) : List FloorWindow :=
  (floorsOf z).map fun nz => ⟨x, y, nz, width, height, z - nz⟩

def GetMapDescription (getTile : TileMap r) (x y z width height : Int) (msg : NetworkMessage) :
    NetworkMessage :=
  describeFloors getTile (mapWindow x y z width height) msg

abbrev viewWidth : Int := maxClientViewportX * 2 + 2
abbrev viewHeight : Int := maxClientViewportY * 2 + 2

def moveUpFloors (newPos oldPos : Position) : List FloorWindow :=
  let x : Int := oldPos.x - maxClientViewportX
  let y : Int := oldPos.y - maxClientViewportY
  if newPos.z = 7 then
    (List.range 6).map fun (i : Nat) => ⟨x, y, 5 - i, viewWidth, viewHeight, 8 - (5 - i)⟩
  else if newPos.z > 7 then [⟨x, y, (oldPos.z : Int) - 3, viewWidth, viewHeight, 3⟩]
  else []

def MoveUpCreature (getTile : TileMap r) (newPos oldPos : Position) (msg : NetworkMessage) :
    NetworkMessage :=
  let x : Int := oldPos.x - maxClientViewportX
  let msg := describeFloors getTile (moveUpFloors newPos oldPos) (msg.addByte 0xBE)
  let msg := GetMapDescription getTile x (oldPos.y - (maxClientViewportY - 1)) newPos.z 1 viewHeight
    (msg.addByte 0x68)
  GetMapDescription getTile x (oldPos.y - maxClientViewportY) newPos.z viewWidth 1
    (msg.addByte 0x65)

def moveDownFloors (newPos oldPos : Position) : List FloorWindow :=
  let x : Int := oldPos.x - maxClientViewportX
  let y : Int := oldPos.y - maxClientViewportY
  if newPos.z = 8 then
    (List.range 3).map fun (i : Nat) =>
      ⟨x, y, (newPos.z : Int) + i, viewWidth, viewHeight, -i - 1⟩
  else if newPos.z > oldPos.z ∧ newPos.z > 8 ∧ newPos.z < 14 then
    [⟨x, y, (newPos.z : Int) + 2, viewWidth, viewHeight, -3⟩]
  else []

def MoveDownCreature (getTile : TileMap r) (newPos oldPos : Position) (msg : NetworkMessage) :
    NetworkMessage :=
  let msg := describeFloors getTile (moveDownFloors newPos oldPos) (msg.addByte 0xBF)
  let msg := GetMapDescription getTile (oldPos.x + (maxClientViewportX + 1))
    (oldPos.y - (maxClientViewportY + 1)) newPos.z 1 viewHeight (msg.addByte 0x66)
  GetMapDescription getTile (oldPos.x - maxClientViewportX) (oldPos.y + (maxClientViewportY + 1))
    newPos.z viewWidth 1 (msg.addByte 0x67)

/-! ## What the client makes of it -/

def codeAt (getTile : TileMap r) (cell : Int × Int × Int) : Option (List (List UInt8)) :=
  (getTile cell).map fun tile => (things tile).map fun thing => thing.writes.flatten

def cellsOf (floors : List FloorWindow) : List (Int × Int × Int) := floors.flatMap FloorWindow.cells

def stream (getTile : TileMap r) (floors : List FloorWindow) : List UInt8 :=
  SkipCode.encode ((cellsOf floors).map (codeAt getTile)) (-1)

/-- From these bytes the client fills each cell of the floors once, an empty one where no tile
exists, and then no cell and no byte is left over. -/
def Shows (getTile : TileMap r) (floors : List FloorWindow) (bytes : List UInt8) : Prop :=
  (cellsOf floors).Nodup ∧ SkipCode.decode r (cellsOf floors) 0 bytes =
    some ((cellsOf floors).map fun cell => (cell, (codeAt getTile cell).getD []), 0, [])

variable {getTile : TileMap r} {msg : NetworkMessage}

theorem appends_GetTileDescription {tile : DescribedTile r}
    (h : INITIAL_BUFFER_POSITION ≤ msg.position)
    (hfits : msg.position + ((things tile).map fun thing => thing.writes.flatten).flatten.length <
      MAX_BODY_LENGTH) :
    Appends msg ((things tile).map fun thing => thing.writes.flatten).flatten
      (GetTileDescription tile msg) := by
  unfold GetTileDescription
  generalize things tile = list at hfits ⊢
  induction list generalizing msg with
  | nil => exact .refl msg
  | cons thing list ih =>
    rw [List.map_cons, List.flatten_cons, List.length_append] at hfits
    have hthing := @appends_foldl_add msg thing.writes h (by omega)
    have hposition := hthing.position
    exact hthing.trans (ih (by omega) (by omega))

theorem appends_addSkip (skip : Int) (h : INITIAL_BUFFER_POSITION ≤ msg.position)
    (hfits : msg.position + (if 0 ≤ skip then
      [UInt8.ofNat skip.toNat, SkipCode.marker] else []).length < MAX_BODY_LENGTH) :
    Appends msg (if 0 ≤ skip then [UInt8.ofNat skip.toNat, SkipCode.marker] else [])
      (addSkip msg skip) := by
  unfold addSkip
  split_ifs at hfits ⊢
  · exact @appends_foldl_add msg [[UInt8.ofNat skip.toNat], [0xFF]] h hfits
  · exact .refl msg

theorem appends_describeCells (cells : List (Int × Int × Int)) {skip : Int}
    (h : INITIAL_BUFFER_POSITION ≤ msg.position)
    (hfits : msg.position + (SkipCode.encode (cells.map (codeAt getTile)) skip).length <
      MAX_BODY_LENGTH) :
    Appends msg (SkipCode.encode (cells.map (codeAt getTile)) skip)
      (let state := cells.foldl (fun state cell => describeCell state (getTile cell)) (msg, skip)
      addSkip state.1 state.2) := by
  induction cells generalizing msg skip with
  | nil => exact appends_addSkip skip h hfits
  | cons cell cells ih =>
    rw [List.map_cons] at hfits ⊢
    rw [List.foldl_cons]
    cases htile : getTile cell with
    | some tile =>
      have hcode : codeAt getTile cell =
          some ((things tile).map fun thing => thing.writes.flatten) := by simp [codeAt, htile]
      rw [hcode, SkipCode.encode] at hfits ⊢
      rw [List.length_append, List.length_append] at hfits
      have hskip := appends_addSkip skip h (by omega)
      have hskipPos := hskip.position
      have hdescription := @appends_GetTileDescription _ (addSkip msg skip) tile (by omega) (by omega)
      have hdescriptionPos := hdescription.position
      exact hskip.trans (hdescription.trans (ih (by omega) (by omega)))
    | none =>
      have hcode : codeAt getTile cell = none := by simp [codeAt, htile]
      rw [hcode, SkipCode.encode] at hfits ⊢
      simp only [describeCell]
      split_ifs at hfits ⊢
      · simp only [List.length_cons] at hfits
        have hpair : Appends msg [0xFF, 0xFF] ((msg.addByte 0xFF).addByte 0xFF) :=
          @appends_foldl_add msg [[0xFF], [0xFF]] h (by simp; omega)
        have hpos : ((msg.addByte 0xFF).addByte 0xFF).position = msg.position + 2 := hpair.position
        exact hpair.trans (ih (by omega) (by omega))
      · exact ih h hfits

theorem appends_describeFloors (floors : List FloorWindow)
    (h : INITIAL_BUFFER_POSITION ≤ msg.position)
    (hfits : msg.position + (stream getTile floors).length < MAX_BODY_LENGTH) :
    Appends msg (stream getTile floors) (describeFloors getTile floors msg) := by
  have hcells := appends_describeCells (cellsOf floors) h hfits
  unfold describeFloors GetFloorDescription
  rw [cellsOf, List.foldl_flatMap] at hcells
  exact hcells

theorem shows_stream {floors : List FloorWindow} (hnodup : (cellsOf floors).Nodup) :
    Shows getTile floors (stream getTile floors) := by
  refine ⟨hnodup, ?_⟩
  have hdecode := SkipCode.decode_encode (r := r)
    ((cellsOf floors).map fun cell => (cell, codeAt getTile cell)) (by
      simp only [List.mem_map]
      rintro _ ⟨cell, -, rfl⟩ symbols hsymbols s hs
      obtain ⟨tile, -, rfl⟩ := Option.map_eq_some_iff.mp hsymbols
      obtain ⟨thing, -, rfl⟩ := List.mem_map.mp hs
      exact thing.readable)
  simpa [stream, SkipCode.shown, Function.comp_def] using hdecode

/-! ## Windows -/

theorem floor_of_mem_cells {f : FloorWindow} {cell : Int × Int × Int} (h : cell ∈ f.cells) :
    cell.2.2 = f.z := by
  simp only [FloorWindow.cells, List.mem_flatMap, List.mem_map] at h
  obtain ⟨nx, -, ny, -, rfl⟩ := h
  rfl

theorem nodup_cells (f : FloorWindow) : f.cells.Nodup := by
  unfold FloorWindow.cells
  rw [List.nodup_flatMap]
  refine ⟨fun nx _ => ?_, ?_⟩
  · refine List.Nodup.map (fun ny ny' h => ?_) List.nodup_range
    simp only [Prod.mk.injEq] at h
    omega
  · refine List.nodup_range.imp fun {nx nx'} hne => ?_
    simp only [Function.onFun, List.disjoint_left, List.mem_map, not_exists, not_and]
    rintro _ ⟨ny, -, rfl⟩ ny' - h
    simp only [Prod.mk.injEq] at h
    omega

theorem nodup_cellsOf {floors : List FloorWindow} (h : (floors.map FloorWindow.z).Nodup) :
    (cellsOf floors).Nodup := by
  rw [cellsOf, List.nodup_flatMap]
  refine ⟨fun f _ => nodup_cells f, ?_⟩
  refine (List.pairwise_map.mp h).imp fun {f g} hne => ?_
  simp only [Function.onFun, List.disjoint_left]
  exact fun cell hf hg => hne ((floor_of_mem_cells hf).symm.trans (floor_of_mem_cells hg))

theorem nodup_mapWindow (x y z width height : Int) :
    ((mapWindow x y z width height).map FloorWindow.z).Nodup := by
  have hfloors : (floorsOf z).Nodup := by
    unfold floorsOf
    split_ifs
    · exact List.Nodup.map (fun i j h => by simpa using h) List.nodup_range
    · exact List.Nodup.map (fun i j h => by simpa using h) List.nodup_range
  simpa [mapWindow, Function.comp_def] using hfloors

theorem nodup_moveUpFloors (newPos oldPos : Position) :
    ((moveUpFloors newPos oldPos).map FloorWindow.z).Nodup := by
  unfold moveUpFloors
  split_ifs
  · rw [List.map_map]
    exact List.Nodup.map (fun i j h => by simpa using h) List.nodup_range
  · exact List.nodup_singleton _
  · exact List.nodup_nil

theorem nodup_moveDownFloors (newPos oldPos : Position) :
    ((moveDownFloors newPos oldPos).map FloorWindow.z).Nodup := by
  unfold moveDownFloors
  split_ifs
  · rw [List.map_map]
    exact List.Nodup.map (fun i j h => by simpa using h) List.nodup_range
  · exact List.nodup_singleton _
  · exact List.nodup_nil

theorem appends_section (getTile : TileMap r) (msg : NetworkMessage) (opcode : UInt8)
    (floors : List FloorWindow) (h : INITIAL_BUFFER_POSITION ≤ msg.position)
    (hfits : msg.position + 1 + (stream getTile floors).length < MAX_BODY_LENGTH) :
    Appends msg (opcode :: stream getTile floors)
      (describeFloors getTile floors (msg.addByte opcode)) := by
  have hopcode : Appends msg [opcode] (msg.addByte opcode) :=
    appends_add h (by simp only [List.length_singleton]; omega)
  have hposition : (msg.addByte opcode).position = msg.position + 1 := hopcode.position
  exact hopcode.trans (appends_describeFloors floors (by omega) (by omega))

theorem appends_sections (getTile : TileMap r) (opcode₁ opcode₂ opcode₃ : UInt8)
    (floors₁ floors₂ floors₃ : List FloorWindow) (h : INITIAL_BUFFER_POSITION ≤ msg.position)
    (hfits : msg.position + 3 + (stream getTile floors₁).length +
      (stream getTile floors₂).length + (stream getTile floors₃).length < MAX_BODY_LENGTH) :
    Appends msg (opcode₁ :: stream getTile floors₁ ++
        (opcode₂ :: stream getTile floors₂ ++ opcode₃ :: stream getTile floors₃))
      (describeFloors getTile floors₃ ((describeFloors getTile floors₂
        ((describeFloors getTile floors₁ (msg.addByte opcode₁)).addByte opcode₂)).addByte
          opcode₃)) := by
  have hfirst := appends_section getTile msg opcode₁ floors₁ h (by omega)
  have hfirstPos := hfirst.position
  rw [List.length_cons] at hfirstPos
  have hsecond := appends_section getTile _ opcode₂ floors₂ (by omega : _ ≤ (describeFloors getTile
    floors₁ (msg.addByte opcode₁)).position) (by omega)
  have hsecondPos := hsecond.position
  rw [List.length_cons] at hsecondPos
  exact hfirst.trans (hsecond.trans
    (appends_section getTile _ opcode₃ floors₃ (by omega) (by omega)))

/-- Descriptions of windows, and of the floors and edges that come into view on the way up and
down, show the client the map wherever they fit into the message. -/
theorem shows_descriptions (getTile : TileMap r) (msg : NetworkMessage)
    (h : INITIAL_BUFFER_POSITION ≤ msg.position) :
    (∀ x y z width height : Int,
      msg.position + (stream getTile (mapWindow x y z width height)).length < MAX_BODY_LENGTH →
      ∃ bytes, Appends msg bytes (GetMapDescription getTile x y z width height msg) ∧
        Shows getTile (mapWindow x y z width height) bytes) ∧
    (∀ newPos oldPos : Position,
      let west := mapWindow (oldPos.x - maxClientViewportX) (oldPos.y - (maxClientViewportY - 1))
        newPos.z 1 viewHeight
      let north := mapWindow (oldPos.x - maxClientViewportX) (oldPos.y - maxClientViewportY)
        newPos.z viewWidth 1
      msg.position + 3 + (stream getTile (moveUpFloors newPos oldPos)).length +
        (stream getTile west).length + (stream getTile north).length < MAX_BODY_LENGTH →
      ∃ up left top, Appends msg (0xBE :: up ++ (0x68 :: left ++ 0x65 :: top))
          (MoveUpCreature getTile newPos oldPos msg) ∧
        Shows getTile (moveUpFloors newPos oldPos) up ∧ Shows getTile west left ∧
        Shows getTile north top) ∧
    (∀ newPos oldPos : Position,
      let east := mapWindow (oldPos.x + (maxClientViewportX + 1))
        (oldPos.y - (maxClientViewportY + 1)) newPos.z 1 viewHeight
      let south := mapWindow (oldPos.x - maxClientViewportX) (oldPos.y + (maxClientViewportY + 1))
        newPos.z viewWidth 1
      msg.position + 3 + (stream getTile (moveDownFloors newPos oldPos)).length +
        (stream getTile east).length + (stream getTile south).length < MAX_BODY_LENGTH →
      ∃ down right bottom, Appends msg (0xBF :: down ++ (0x66 :: right ++ 0x67 :: bottom))
          (MoveDownCreature getTile newPos oldPos msg) ∧
        Shows getTile (moveDownFloors newPos oldPos) down ∧ Shows getTile east right ∧
        Shows getTile south bottom) := by
  have hshows : ∀ x y z width height, Shows getTile (mapWindow x y z width height)
      (stream getTile (mapWindow x y z width height)) := fun x y z width height =>
    shows_stream (nodup_cellsOf (nodup_mapWindow x y z width height))
  refine ⟨fun x y z width height hfits => ?_, fun newPos oldPos => ?_, fun newPos oldPos => ?_⟩
  · exact ⟨_, appends_describeFloors _ h hfits, hshows _ _ _ _ _⟩
  · intro west north hfits
    exact ⟨_, _, _, appends_sections getTile 0xBE 0x68 0x65 _ west north h hfits,
      shows_stream (nodup_cellsOf (nodup_moveUpFloors newPos oldPos)), hshows _ _ _ _ _,
      hshows _ _ _ _ _⟩
  · intro east south hfits
    exact ⟨_, _, _, appends_sections getTile 0xBF 0x66 0x67 _ east south h hfits,
      shows_stream (nodup_cellsOf (nodup_moveDownFloors newPos oldPos)), hshows _ _ _ _ _,
      hshows _ _ _ _ _⟩

/-! ## Windows that do not fit -/

theorem position_GetTileDescription_lt {tile : DescribedTile r}
    (h : msg.position < MAX_BODY_LENGTH) :
    (GetTileDescription tile msg).position < MAX_BODY_LENGTH := by
  unfold GetTileDescription
  generalize things tile = list
  induction list generalizing msg with
  | nil => exact h
  | cons thing list ih => exact ih (position_foldl_add_lt h)

theorem position_addSkip_lt {skip : Int} (h : msg.position < MAX_BODY_LENGTH) :
    (addSkip msg skip).position < MAX_BODY_LENGTH := by
  unfold addSkip
  split_ifs
  · exact position_add_lt (position_add_lt h)
  · exact h

theorem position_describeCell_lt {state : NetworkMessage × Int} {tile : Option (DescribedTile r)}
    (h : state.1.position < MAX_BODY_LENGTH) :
    (describeCell state tile).1.position < MAX_BODY_LENGTH := by
  cases tile with
  | some tile => exact position_GetTileDescription_lt (position_addSkip_lt h)
  | none =>
    unfold describeCell
    dsimp only
    split_ifs
    · exact position_add_lt (position_add_lt h)
    · exact h

theorem position_describeFloors_lt {floors : List FloorWindow}
    (h : msg.position < MAX_BODY_LENGTH) :
    (describeFloors getTile floors msg).position < MAX_BODY_LENGTH := by
  have hcells : ∀ (cells : List (Int × Int × Int)) (state : NetworkMessage × Int),
      state.1.position < MAX_BODY_LENGTH →
      (cells.foldl (fun state cell => describeCell state (getTile cell)) state).1.position <
        MAX_BODY_LENGTH := by
    intro cells
    induction cells with
    | nil => exact fun _ h => h
    | cons cell cells ih => exact fun state h => ih _ (position_describeCell_lt h)
  have hfloors := hcells (cellsOf floors) (msg, -1) h
  rw [cellsOf, List.foldl_flatMap] at hfloors
  exact position_addSkip_lt hfloors

/-! Ten stacks of items on every tile, where each item takes three bytes. -/

def stackReader : SkipCode.Reader := ⟨fun _ => 3⟩

def stackThing : Thing stackReader where
  writes := [[0x64, 0x00], [0x05]]
  readable := ⟨by decide, by decide, fun _ => rfl⟩

def stackTile : DescribedTile stackReader where
  ground := some stackThing
  topItems := []
  creatures := []
  downItems := List.replicate 9 stackThing

def groundTile : DescribedTile stackReader where
  ground := some stackThing
  topItems := []
  creatures := []
  downItems := []

def islandMap : TileMap stackReader := fun cell => if cell.2.2 = 7 then some groundTile else none

theorem shows_islandMap :
    ∃ bytes, Appends (NetworkMessage.new fun _ => 0) bytes
        (GetMapDescription islandMap 100 100 7 1 1 (NetworkMessage.new fun _ => 0)) ∧
      Shows islandMap (mapWindow 100 100 7 1 1) bytes :=
  (shows_descriptions islandMap (NetworkMessage.new fun _ => 0) (Nat.le_refl _)).1 100 100 7 1 1
    (by decide)

theorem length_cellsOf_view : (cellsOf (mapWindow 100 100 7 18 14)).length = 2016 := by
  simp only [cellsOf, mapWindow, floorsOf, FloorWindow.cells, List.length_flatMap,
    List.length_map, List.length_range]
  decide

/-- A view of the surface full of stacks does not fit, and the client cannot see all of them. -/
theorem not_shows_stackTile :
    ¬ ∀ (r : SkipCode.Reader) (getTile : TileMap r) (msg : NetworkMessage),
      INITIAL_BUFFER_POSITION ≤ msg.position → ∀ x y z width height : Int,
      ∃ bytes, Appends msg bytes (GetMapDescription getTile x y z width height msg) ∧
        Shows getTile (mapWindow x y z width height) bytes := by
  intro h
  obtain ⟨bytes, happends, -, hdecode⟩ := h stackReader (fun _ => some stackTile)
    (NetworkMessage.new fun _ => 0) (Nat.le_refl _) 100 100 7 18 14
  have hposition := happends.position
  have hlt : (GetMapDescription (fun _ => some stackTile) 100 100 7 18 14
      (NetworkMessage.new fun _ => 0)).position < MAX_BODY_LENGTH :=
    position_describeFloors_lt (by decide)
  have hle := SkipCode.decode_length hdecode
  have hcode : ∀ cell : Int × Int × Int,
      ((codeAt (fun _ => some stackTile) cell).getD []).flatten.length = 30 := fun _ => rfl
  rw [List.map_map] at hle
  simp only [Function.comp_def, hcode, List.map_const', List.sum_replicate_nat, length_cellsOf_view,
    List.length_nil] at hle
  have hmax : MAX_BODY_LENGTH = 24576 := rfl
  rw [hposition] at hlt
  omega

end MapDescription

end Eloth
