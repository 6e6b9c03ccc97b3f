import Eloth.MatrixArea

/-!
# Set-up areas

Patterns of spells become matrices, which are turned into the other directions, and a matrix laid
over the map around its centre gives the tiles that are hit.
-/

namespace Eloth

open MatrixArea

/-- The values of a pattern: 1 for a hit cell, 2 for the centre, 3 for both. -/
structure AreaPattern where
  values : List UInt32
  short : values.length < 2 ^ 32

namespace MatrixArea

/-- `MatrixArea area{rows, cols}`. -/
def blank (rows cols : UInt32) (bounded : rows.toNat * cols.toNat < 2 ^ 32) : MatrixArea where
  arr := List.replicate (rows.toNat * cols.toNat) false
  center := (0, 0)
  rows := rows
  cols := cols
  size := List.length_replicate
  bounded := bounded

def setCell (m : MatrixArea) (row col : UInt32) : Option MatrixArea :=
  let index := row.toNat * m.cols.toNat + col.toNat
  if index < m.arr.length then
    some { m with arr := m.arr.set index true, size := List.length_set.trans m.size }
  else none

def setCenter (m : MatrixArea) (y x : UInt32) : MatrixArea := { m with center := (x, y) }

end MatrixArea

/-- The loop over the values of a pattern; a hit outside the matrix leaves no result. -/
def fillArea (cols : UInt32) : List UInt32 → UInt32 → UInt32 → MatrixArea → Option MatrixArea
  | [], _, _, area => some area
  | value :: rest, x, y, area =>
    match if value = 1 ∨ value = 3 then area.setCell y x else some area with
    | none => none
    | some area =>
      let area := if value = 2 ∨ value = 3 then area.setCenter y x else area
      if cols = x + 1 then fillArea cols rest 0 (y + 1) area else fillArea cols rest (x + 1) y area

def AreaPattern.cols (vec : AreaPattern) (rows : UInt32) : UInt32 :=
  if rows = 0 then 0 else .ofNat (vec.values.length / rows.toNat)

theorem AreaPattern.bounded (vec : AreaPattern) (rows : UInt32) :
    rows.toNat * (vec.cols rows).toNat < 2 ^ 32 := by
  unfold AreaPattern.cols
  split_ifs with hzero
  · simp
  · have hle := Nat.mul_div_le vec.values.length rows.toNat
    have hdiv : vec.values.length / rows.toNat < 2 ^ 32 :=
      (Nat.div_le_self _ _).trans_lt vec.short
    rw [UInt32.toNat_ofNat_of_lt' hdiv]
    exact hle.trans_lt vec.short

def createArea (vec : AreaPattern) (rows : UInt32) : Option MatrixArea :=
  let cols := vec.cols rows
  fillArea cols vec.values 0 0 (.blank rows cols (vec.bounded rows))

/-! ## Tiles that are hit -/

/-- One row of `getList`: the hit positions, and where the running position stands after it. -/
def hitRow (area : MatrixArea) (row : Nat) (sees : MapPosition → Bool) :
    List Nat → MapPosition → List MapPosition × MapPosition
  | [], tmpPos => ([], tmpPos)
  | col :: rest, tmpPos =>
    let (hits, endPos) := hitRow area row sees rest { tmpPos with x := tmpPos.x + 1 }
    (if area.cell row col && sees tmpPos then tmpPos :: hits else hits, endPos)

def hitRows (area : MatrixArea) (sees : MapPosition → Bool) :
    List Nat → MapPosition → List MapPosition
  | [], _ => []
  | row :: rest, tmpPos =>
    let (hits, endPos) := hitRow area row sees (List.range area.cols.toNat) tmpPos
    hits ++ hitRows area sees rest
      { endPos with x := endPos.x - area.cols.toUInt16, y := endPos.y + 1 }

/-- The positions of the tiles hit; a tile that the map lacks is made there. -/
def getList (isSightClear : MapPosition → MapPosition → Bool) (area : MatrixArea)
    (targetPos : MapPosition) (dir : Direction) : List MapPosition :=
  let casterPos := getNextPosition dir targetPos
  let (x, y) := area.center
  let tmpPos : MapPosition :=
    { x := (targetPos.x.toUInt32 - x).toUInt16
      y := (targetPos.y.toUInt32 - y).toUInt16
      z := targetPos.z }
  hitRows area (isSightClear casterPos) (List.range area.rows.toNat) tmpPos

/-! ## Areas by direction -/

def Direction.toNat : Direction → Nat
  | .north => 0
  | .east => 1
  | .south => 2
  | .west => 3
  | .southwest => 4
  | .southeast => 5
  | .northwest => 6
  | .northeast => 7

def resizeAreas (areas : List MatrixArea) (n : Nat) : List MatrixArea :=
  areas.take n ++ List.replicate (n - areas.length) (.blank 0 0 (by decide))

structure AreaCombat where
  areas : List MatrixArea
  hasExtArea : Bool
  sizes : areas.length = 0 ∨ areas.length = 4 ∨ areas.length = 8

theorem length_resizeAreas (areas : List MatrixArea) (n : Nat) :
    (resizeAreas areas n).length = n := by
  simp only [resizeAreas, List.length_append, List.length_take, List.length_replicate]
  omega

namespace AreaCombat

variable (a : AreaCombat)

/-- The areas with room for the straight directions. -/
def straightAreas : List MatrixArea :=
  if a.areas.length = 0 then resizeAreas a.areas 4 else a.areas

theorem length_straightAreas : a.straightAreas.length = 4 ∨ a.straightAreas.length = 8 := by
  unfold straightAreas
  split_ifs with hzero
  · exact .inl (length_resizeAreas _ _)
  · exact a.sizes.resolve_left hzero

def setupArea (vec : AreaPattern) (rows : UInt32) : Option AreaCombat :=
  match createArea vec rows with
  | none => none
  | some area =>
    match area.rotate90, area.rotate270 with
    | some east, some west =>
      some
        { a with
          areas := (((a.straightAreas.set Direction.east.toNat east).set Direction.south.toNat
            area.rotate180).set Direction.west.toNat west).set Direction.north.toNat area
          sizes := by
            simp only [List.length_set]
            exact .inr a.length_straightAreas }
    | _, _ => none

def setupExtArea (vec : AreaPattern) (rows : UInt32) : Option AreaCombat :=
  if vec.values.isEmpty then some a
  else
    match createArea vec rows with
    | none => none
    | some area =>
      match area.mirror, area.flip, area.transpose with
      | some northeast, some southwest, some southeast =>
        some
          { areas := ((((resizeAreas a.areas 8).set Direction.northeast.toNat northeast).set
              Direction.southwest.toNat southwest).set Direction.southeast.toNat southeast).set
              Direction.northwest.toNat area
            hasExtArea := true
            sizes := by
              simp only [List.length_set, length_resizeAreas]
              exact .inr (.inr trivial) }
      | _, _, _ => none

end AreaCombat

/-! ## Offsets from the target -/

namespace MatrixArea

/-- The offsets from the target of the tiles hit when sight is ignored. -/
def hitOffsets (m : MatrixArea) (targetPos : MapPosition) (dir : Direction) :
    Set (UInt16 × UInt16) :=
  {o | ∃ pos ∈ getList (fun _ _ => true) m targetPos dir,
    o = (pos.x - targetPos.x, pos.y - targetPos.y)}

def offsetFrom (c p : Cell) : UInt16 × UInt16 := ((p.2 - c.2).toUInt16, (p.1 - c.1).toUInt16)

theorem hitRow_spec (area : MatrixArea) (row : Nat) (sees : MapPosition → Bool) (n : Nat) :
    ∀ (a : Nat) (tmpPos : MapPosition),
      (hitRow area row sees (List.range' a n) tmpPos).2 =
        { tmpPos with x := tmpPos.x + .ofNat n } ∧
      ∀ pos, pos ∈ (hitRow area row sees (List.range' a n) tmpPos).1 ↔
        ∃ j < n, area.cell row (a + j) = true ∧ sees pos = true ∧
          pos = { tmpPos with x := tmpPos.x + .ofNat j } := by
  induction n with
  | zero =>
    intro a tmpPos
    simp [hitRow]
  | succ n ih =>
    intro a tmpPos
    obtain ⟨hend, hhits⟩ := ih (a + 1) { tmpPos with x := tmpPos.x + 1 }
    have hx : ∀ j : Nat, tmpPos.x + 1 + UInt16.ofNat j = tmpPos.x + UInt16.ofNat (j + 1) := by
      intro j
      rw [Nat.add_comm j, UInt16.ofNat_add, ← UInt16.add_assoc]
      rfl
    rw [List.range'_succ]
    constructor
    · simp only [hitRow, hend, hx]
    · intro pos
      have hfirst : ({ tmpPos with x := tmpPos.x + .ofNat 0 } : MapPosition) = tmpPos := by simp
      have hlater : (pos ∈ (hitRow area row sees (List.range' (a + 1) n)
          { tmpPos with x := tmpPos.x + 1 }).1) ↔
          ∃ j < n, area.cell row (a + (j + 1)) = true ∧ sees pos = true ∧
            pos = { tmpPos with x := tmpPos.x + .ofNat (j + 1) } := by
        rw [hhits]
        simp only [hx, Nat.add_assoc, Nat.add_comm 1]
      rw [Nat.exists_lt_succ_left, hfirst, ← hlater]
      simp only [hitRow, Nat.add_zero]
      split_ifs with hhit
      · obtain ⟨hcell, hsees⟩ := Bool.and_eq_true_iff.mp hhit
        rw [List.mem_cons]
        refine or_congr_left ⟨?_, fun h => h.2.2⟩
        rintro rfl
        exact ⟨hcell, hsees, rfl⟩
      · refine ⟨Or.inr, fun h => h.resolve_left ?_⟩
        rintro ⟨hcell, hsees, rfl⟩
        exact hhit (Bool.and_eq_true_iff.mpr ⟨hcell, hsees⟩)

theorem mem_hitRows (area : MatrixArea) (sees : MapPosition → Bool) (n : Nat)
    (pos : MapPosition) : ∀ (a : Nat) (tmpPos : MapPosition),
      pos ∈ hitRows area sees (List.range' a n) tmpPos ↔
        ∃ i < n, ∃ j < area.cols.toNat, area.cell (a + i) j = true ∧ sees pos = true ∧
          pos = { tmpPos with x := tmpPos.x + .ofNat j, y := tmpPos.y + .ofNat i } := by
  induction n with
  | zero =>
    intro a tmpPos
    simp [hitRows]
  | succ n ih =>
    intro a tmpPos
    obtain ⟨hend, hhits⟩ := hitRow_spec area a sees area.cols.toNat 0 tmpPos
    have hx : tmpPos.x + UInt16.ofNat area.cols.toNat - area.cols.toUInt16 = tmpPos.x :=
      UInt16.add_sub_cancel _ _
    have hy : ∀ i : Nat, tmpPos.y + 1 + UInt16.ofNat i = tmpPos.y + UInt16.ofNat (i + 1) := by
      intro i
      rw [Nat.add_comm i, UInt16.ofNat_add, ← UInt16.add_assoc]
      rfl
    rw [List.range'_succ, Nat.exists_lt_succ_left]
    simp only [hitRows, List.range_eq_range', List.mem_append, hhits, hend, hx, ih, hy,
      Nat.zero_add, Nat.add_zero, Nat.add_assoc, Nat.add_comm 1]
    simp

theorem mem_getList (isSightClear : MapPosition → MapPosition → Bool) (area : MatrixArea)
    (targetPos : MapPosition) (dir : Direction) (pos : MapPosition) :
    pos ∈ getList isSightClear area targetPos dir ↔
      ∃ p, area.Inside p ∧ area.cellAt p = true ∧
        isSightClear (getNextPosition dir targetPos) pos = true ∧
        pos = { targetPos with
          x := targetPos.x + (offsetFrom area.centerCell p).1
          y := targetPos.y + (offsetFrom area.centerCell p).2 } := by
  have hstart : ∀ (t : UInt16) (c q : UInt32), (t.toUInt32 - c).toUInt16 + q.toUInt16 =
      t + (q - c).toUInt16 := by
    intro t c q
    rw [UInt32.toUInt16_sub, UInt32.toUInt16_sub, UInt16.toUInt16_toUInt32]
    grind
  simp only [getList, List.range_eq_range', mem_hitRows, Nat.zero_add]
  constructor
  · rintro ⟨i, hi, j, hj, hcell, hsees, hpos⟩
    have hrow := UInt32.toNat_ofNat_of_lt' (hi.trans area.rows.toNat_lt)
    have hcol := UInt32.toNat_ofNat_of_lt' (hj.trans area.cols.toNat_lt)
    refine ⟨(.ofNat i, .ofNat j), ⟨?_, ?_⟩, ?_, hsees, ?_⟩
    · rwa [UInt32.lt_iff_toNat_lt, hrow]
    · rwa [UInt32.lt_iff_toNat_lt, hcol]
    · rwa [cellAt, hrow, hcol]
    · simp only [hpos, offsetFrom, centerCell, ← hstart, UInt32.toUInt16_ofNat']
  · rintro ⟨p, ⟨hrow, hcol⟩, hcell, hsees, hpos⟩
    refine ⟨p.1.toNat, UInt32.lt_iff_toNat_lt.mp hrow, p.2.toNat, UInt32.lt_iff_toNat_lt.mp hcol,
      hcell, hsees, ?_⟩
    simp only [hpos, offsetFrom, centerCell, ← hstart]
    rfl

/-- The hit offsets are those of the hit cells from the centre. -/
theorem hitOffsets_eq (m : MatrixArea) (targetPos : MapPosition) (dir : Direction) :
    m.hitOffsets targetPos dir =
      offsetFrom m.centerCell '' {p | m.Inside p ∧ m.cellAt p = true} := by
  ext o
  simp only [hitOffsets, mem_getList, Set.mem_ofPred_eq, Set.mem_image, true_and]
  constructor
  · rintro ⟨pos, ⟨p, hp, hcell, rfl⟩, rfl⟩
    refine ⟨p, ⟨hp, hcell⟩, ?_⟩
    simp only [UInt16.add_comm targetPos.x, UInt16.add_comm targetPos.y, UInt16.add_sub_cancel]
  · rintro ⟨p, ⟨hp, hcell⟩, rfl⟩
    refine ⟨_, ⟨p, hp, hcell, rfl⟩, ?_⟩
    simp only [UInt16.add_comm targetPos.x, UInt16.add_comm targetPos.y, UInt16.add_sub_cancel]

variable {m m' : MatrixArea} {rows cols : UInt32} {move : Cell → Cell}

/-- Where every cell and the centre move in the same way, and that way moves offsets by `turn`,
the hit offsets move by `turn`. -/
theorem MovedBy.hitOffsets {turn : UInt16 × UInt16 → UInt16 × UInt16}
    (h : MovedBy m m' rows cols move) (honto : m.Onto rows cols move)
    (hin : ∀ p, m.Inside p → m'.Inside (move p))
    (hturn : ∀ c p, offsetFrom (move c) (move p) = turn (offsetFrom c p))
    (targetPos : MapPosition) (dir dir' : Direction) :
    m'.hitOffsets targetPos dir' = turn '' m.hitOffsets targetPos dir := by
  have hcells : {p | m'.Inside p ∧ m'.cellAt p = true} =
      move '' {p | m.Inside p ∧ m.cellAt p = true} := by
    ext q
    constructor
    · rintro ⟨hq, hcell⟩
      obtain ⟨p, hp, rfl⟩ := honto q (h.rows ▸ hq.1) (h.cols ▸ hq.2)
      exact ⟨p, ⟨hp, (h.cell p hp).symm.trans hcell⟩, rfl⟩
    · rintro ⟨p, ⟨hp, hcell⟩, rfl⟩
      exact ⟨hin p hp, (h.cell p hp).trans hcell⟩
  rw [hitOffsets_eq, hitOffsets_eq, hcells, h.center, Set.image_image, Set.image_image]
  exact Set.image_congr fun p _ => hturn m.centerCell p

/-- A quarter turn: north becomes east. -/
def rotateOffset (o : UInt16 × UInt16) : UInt16 × UInt16 := (-o.2, o.1)

theorem mirrored_sub (n a b : UInt32) : n - a - 1 - (n - b - 1) = b - a := by grind

theorem toUInt16_sub_swap (a b : UInt32) : (b - a).toUInt16 = -(a - b).toUInt16 := by
  rw [← UInt32.toUInt16_neg, UInt32.neg_sub]

theorem offsetFrom_turn90 (m : MatrixArea) (c p : Cell) :
    offsetFrom (m.turn90 c) (m.turn90 p) = rotateOffset (offsetFrom c p) := by
  simp only [offsetFrom, turn90, rotateOffset, mirrored_sub, toUInt16_sub_swap p.1]

theorem offsetFrom_turn180 (m : MatrixArea) (c p : Cell) :
    offsetFrom (m.turn180 c) (m.turn180 p) = rotateOffset^[2] (offsetFrom c p) := by
  simp only [offsetFrom, turn180, rotateOffset, mirrored_sub, toUInt16_sub_swap p.1,
    toUInt16_sub_swap p.2, Function.iterate_succ, Function.iterate_zero, Function.comp_apply, id_eq]

theorem offsetFrom_turn270 (m : MatrixArea) (c p : Cell) :
    offsetFrom (m.turn270 c) (m.turn270 p) = rotateOffset^[3] (offsetFrom c p) := by
  simp only [offsetFrom, turn270, rotateOffset, mirrored_sub, toUInt16_sub_swap p.2,
    Function.iterate_succ, Function.iterate_zero, Function.comp_apply, id_eq, UInt16.neg_neg]

theorem MovedBy.inside_turn270 (h : MovedBy m m' m.cols m.rows m.turn270) {p : Cell}
    (hp : m.Inside p) : m'.Inside (m.turn270 p) :=
  ⟨by rw [h.rows]; exact mirrored_lt hp.2, by rw [h.cols]; exact hp.1⟩

theorem hitOffsets_rotate90 {m m' : MatrixArea} (h : m.rotate90 = some m')
    (targetPos : MapPosition) (dir : Direction) :
    m'.hitOffsets targetPos dir = rotateOffset '' m.hitOffsets targetPos dir := by
  obtain ⟨m₁, hm₁, hmoved⟩ := rotate90_moved m
  obtain rfl := Option.some.inj (hm₁.symm.trans h)
  exact hmoved.hitOffsets (onto_turn90 m) (fun _ hp => hmoved.inside_turn90 hp)
    (offsetFrom_turn90 m) targetPos dir dir

theorem hitOffsets_rotate180 (m : MatrixArea) (targetPos : MapPosition) (dir : Direction) :
    m.rotate180.hitOffsets targetPos dir = rotateOffset^[2] '' m.hitOffsets targetPos dir :=
  (rotate180_moved m).hitOffsets (onto_turn180 m)
    (fun _ hp => (rotate180_moved m).inside_turn180 hp) (offsetFrom_turn180 m) targetPos dir dir

theorem hitOffsets_rotate270 {m m' : MatrixArea} (h : m.rotate270 = some m')
    (targetPos : MapPosition) (dir : Direction) :
    m'.hitOffsets targetPos dir = rotateOffset^[3] '' m.hitOffsets targetPos dir := by
  obtain ⟨m₃, hm₃, hmoved⟩ := rotate270_moved m
  obtain rfl := Option.some.inj (hm₃.symm.trans h)
  exact hmoved.hitOffsets (onto_turn270 m) (fun _ hp => hmoved.inside_turn270 hp)
    (offsetFrom_turn270 m) targetPos dir dir

end MatrixArea

/-- The straight directions with the quarter turns from the north. -/
def quarterTurns : List (Direction × Nat) := [(.north, 0), (.east, 1), (.south, 2), (.west, 3)]

theorem setupArea_spec (a : AreaCombat) {vec : AreaPattern} {rows : UInt32} {m : MatrixArea}
    (hcreate : createArea vec rows = some m) :
    ∃ a' east west, a.setupArea vec rows = some a' ∧ m.rotate90 = some east ∧
      m.rotate270 = some west ∧ a'.areas[Direction.north.toNat]? = some m ∧
      a'.areas[Direction.east.toNat]? = some east ∧
      a'.areas[Direction.south.toNat]? = some m.rotate180 ∧
      a'.areas[Direction.west.toNat]? = some west := by
  obtain ⟨east, heast, -⟩ := rotate90_moved m
  obtain ⟨west, hwest, -⟩ := rotate270_moved m
  refine ⟨_, east, west, by simp only [AreaCombat.setupArea, hcreate, heast, hwest]; rfl,
    heast, hwest, ?_⟩
  have hlength : 3 < a.straightAreas.length := by
    have := a.length_straightAreas
    omega
  simp only [Direction.toNat]
  grind

/-- A wave of two rows and three columns before a caster in the middle of the second row. -/
def waveArea : AreaPattern := ⟨[1, 1, 1, 0, 3, 0], by decide⟩

def waveMatrix : MatrixArea where
  arr := [true, true, true, false, true, false]
  center := (1, 1)
  rows := 2
  cols := 3
  size := by decide
  bounded := by decide

namespace MatrixArea

def flipOffset (o : UInt16 × UInt16) : UInt16 × UInt16 := (o.1, -o.2)
def mirrorOffset (o : UInt16 × UInt16) : UInt16 × UInt16 := (-o.1, o.2)
def transposeOffset (o : UInt16 × UInt16) : UInt16 × UInt16 := (o.2, o.1)

theorem onto_upsideDown (m : MatrixArea) : m.Onto m.rows m.cols m.upsideDown := fun q hr hc =>
  ⟨(m.rows - q.1 - 1, q.2), ⟨mirrored_lt hr, hc⟩, by simp [upsideDown]⟩

theorem onto_leftRight (m : MatrixArea) : m.Onto m.rows m.cols m.leftRight := fun q hr hc =>
  ⟨(q.1, m.cols - q.2 - 1), ⟨hr, mirrored_lt hc⟩, by simp [leftRight]⟩

theorem onto_acrossDiagonal (m : MatrixArea) : m.Onto m.cols m.rows acrossDiagonal :=
  fun q hr hc => ⟨(q.2, q.1), ⟨hc, hr⟩, rfl⟩

theorem offsetFrom_upsideDown (m : MatrixArea) (c p : Cell) :
    offsetFrom (m.upsideDown c) (m.upsideDown p) = flipOffset (offsetFrom c p) := by
  simp only [offsetFrom, upsideDown, flipOffset, mirrored_sub, toUInt16_sub_swap p.1]

theorem offsetFrom_leftRight (m : MatrixArea) (c p : Cell) :
    offsetFrom (m.leftRight c) (m.leftRight p) = mirrorOffset (offsetFrom c p) := by
  simp only [offsetFrom, leftRight, mirrorOffset, mirrored_sub, toUInt16_sub_swap p.2]

theorem MovedBy.hitOffsets_flip {m m' : MatrixArea}
    (h : MovedBy m m' m.rows m.cols m.upsideDown) (targetPos : MapPosition) (dir : Direction) :
    m'.hitOffsets targetPos dir = flipOffset '' m.hitOffsets targetPos dir :=
  h.hitOffsets (onto_upsideDown m)
    (fun _ hp => ⟨by rw [h.rows]; exact mirrored_lt hp.1, by rw [h.cols]; exact hp.2⟩)
    (offsetFrom_upsideDown m) targetPos dir dir

theorem MovedBy.hitOffsets_mirror {m m' : MatrixArea}
    (h : MovedBy m m' m.rows m.cols m.leftRight) (targetPos : MapPosition) (dir : Direction) :
    m'.hitOffsets targetPos dir = mirrorOffset '' m.hitOffsets targetPos dir :=
  h.hitOffsets (onto_leftRight m)
    (fun _ hp => ⟨by rw [h.rows]; exact hp.1, by rw [h.cols]; exact mirrored_lt hp.2⟩)
    (offsetFrom_leftRight m) targetPos dir dir

theorem MovedBy.hitOffsets_transpose {m m' : MatrixArea}
    (h : MovedBy m m' m.cols m.rows acrossDiagonal) (targetPos : MapPosition) (dir : Direction) :
    m'.hitOffsets targetPos dir = transposeOffset '' m.hitOffsets targetPos dir :=
  h.hitOffsets (onto_acrossDiagonal m)
    (fun _ hp => ⟨by rw [h.rows]; exact hp.2, by rw [h.cols]; exact hp.1⟩)
    (fun _ _ => rfl) targetPos dir dir

end MatrixArea

/-- The diagonal directions with the reflections from the north-west. -/
def extReflections : List (Direction × (UInt16 × UInt16 → UInt16 × UInt16)) :=
  [(.northeast, mirrorOffset), (.southwest, flipOffset), (.southeast, transposeOffset)]

/-- The reflections of a matrix move its cells and its centre alike, undo themselves, and give the
diagonal areas the offsets of the north-western one, reflected. -/
structure MatrixArea.Reflects (m : MatrixArea) : Prop where
  flip : ∃ m', m.flip = some m' ∧ MovedBy m m' m.rows m.cols m.upsideDown
  mirror : ∃ m', m.mirror = some m' ∧ MovedBy m m' m.rows m.cols m.leftRight
  transpose : ∃ m', m.transpose = some m' ∧ MovedBy m m' m.cols m.rows acrossDiagonal
  flip_twice : m.flip.bind MatrixArea.flip = some m
  mirror_twice : m.mirror.bind MatrixArea.mirror = some m
  transpose_twice : m.transpose.bind MatrixArea.transpose = some m
  setup : ∀ (a : AreaCombat) (vec : AreaPattern) (rows : UInt32), vec.values ≠ [] →
    createArea vec rows = some m →
      ∃ a', a.setupExtArea vec rows = some a' ∧ a'.areas[Direction.northwest.toNat]? = some m ∧
        ∀ d ∈ extReflections, ∃ area, a'.areas[d.1.toNat]? = some area ∧
          ∀ targetPos dir, area.hitOffsets targetPos dir = d.2 '' m.hitOffsets targetPos dir

theorem setupExtArea_spec (a : AreaCombat) {vec : AreaPattern} {rows : UInt32}
    {m northeast southwest southeast : MatrixArea} (hvec : vec.values ≠ [])
    (hcreate : createArea vec rows = some m) (hmirror : m.mirror = some northeast)
    (hflip : m.flip = some southwest) (htranspose : m.transpose = some southeast) :
    ∃ a', a.setupExtArea vec rows = some a' ∧ a'.areas[Direction.northwest.toNat]? = some m ∧
      a'.areas[Direction.northeast.toNat]? = some northeast ∧
      a'.areas[Direction.southwest.toNat]? = some southwest ∧
      a'.areas[Direction.southeast.toNat]? = some southeast := by
  have hempty : vec.values.isEmpty = false := List.isEmpty_eq_false_iff.mpr hvec
  refine ⟨_, by
    simp only [AreaCombat.setupExtArea, hempty, Bool.false_eq_true, if_false, hcreate, hmirror,
      hflip, htranspose]
    rfl, ?_⟩
  have hlength := length_resizeAreas a.areas 8
  simp only [Direction.toNat]
  grind

/-- Reflections are right exactly on squares with the centre in the middle. -/
theorem reflects_iff_centred (m : MatrixArea) : m.Reflects ↔ m.Centred := by
  constructor
  · intro h
    obtain ⟨hcol, hrow⟩ := (flip_moved_iff m).mp h.flip
    exact ⟨(transpose_moved_iff m).mp h.transpose, hcol, hrow⟩
  · intro h
    have hflip := (flip_moved_iff m).mpr ⟨h.middle_col, h.middle_row⟩
    have hmirror := h.mirror_moved
    have htranspose := (transpose_moved_iff m).mpr h.square
    refine ⟨hflip, hmirror, htranspose, h.flip_twice, h.mirror_twice,
      transpose_twice h.square, fun a vec rows hvec hcreate => ?_⟩
    obtain ⟨southwest, hsw, hswMoved⟩ := hflip
    obtain ⟨northeast, hne, hneMoved⟩ := hmirror
    obtain ⟨southeast, hse, hseMoved⟩ := htranspose
    obtain ⟨a', ha', hnw, hareas⟩ := setupExtArea_spec a hvec hcreate hne hsw hse
    refine ⟨a', ha', hnw, fun d hd => ?_⟩
    simp only [extReflections, List.mem_cons, List.not_mem_nil, or_false] at hd
    obtain rfl | rfl | rfl := hd
    · exact ⟨northeast, hareas.1, hneMoved.hitOffsets_mirror⟩
    · exact ⟨southwest, hareas.2.1, hswMoved.hitOffsets_flip⟩
    · exact ⟨southeast, hareas.2.2, hseMoved.hitOffsets_transpose⟩

/-- The pattern `AREADIAGONAL_WAVE4` of the spell library, with the caster in its last corner. -/
def diagonalWave : AreaPattern where
  values := [
    0, 0, 0, 0, 1, 0,
    0, 0, 0, 1, 1, 0,
    0, 0, 1, 1, 1, 0,
    0, 1, 1, 1, 1, 0,
    1, 1, 1, 1, 1, 0,
    0, 0, 0, 0, 0, 3]
  short := by decide

theorem diagonalWave_not_reflected :
    ∃ m, createArea diagonalWave 6 = some m ∧ ¬ m.Reflects := by
  refine ⟨_, rfl, fun h => ?_⟩
  have hcentre := (flip_moved_iff _).mp h.flip
  revert hcentre
  decide

end Eloth
