import Eloth.MapCache

/-!
# The walk cache over a run of moves

One lemma for each loop says what the cells hold after it. A step keeps the cache in agreement
with the map, but for the steps to the south-east and south-west.
-/

namespace Eloth

open InPlace (fromTo mem_fromTo nodup_fromTo)

namespace MapPosition

variable {p q pos : MapPosition}

theorem shift_offset (hz : pos.z = p.z) :
    p.shift (pos.getOffsetX p, pos.getOffsetY p) = pos := by
  have hx : (p.x.toNat : Int) + pos.getOffsetX p = (pos.x.toNat : Int) := by
    simp only [getOffsetX]
    omega
  have hy : (p.y.toNat : Int) + pos.getOffsetY p = (pos.y.toNat : Int) := by
    simp only [getOffsetY]
    omega
  have hofInt (v : UInt16) : UInt16.ofInt (v.toNat : Int) = v := by
    rw [← UInt16.toNat_inj, UInt16.ofInt, UInt16.toNat_ofNat']
    have := v.toNat_lt
    omega
  cases pos
  simp only [shift, hx, hy, hofInt]
  simp_all

theorem eq_of_offsets (hz : pos.z = q.z) (hx : pos.getOffsetX p = q.getOffsetX p)
    (hy : pos.getOffsetY p = q.getOffsetY p) : pos = q := by
  simp only [getOffsetX, getOffsetY] at hx hy
  have hx' : pos.x = q.x := UInt16.toNat_inj.mp (by omega)
  have hy' : pos.y = q.y := UInt16.toNat_inj.mp (by omega)
  cases pos
  cases q
  simp_all

end MapPosition

namespace WalkCache

variable {c : WalkCache} {t : Terrain} {p q pos : MapPosition} {i j dx dy : Int}

/-- The cell of a position in the window around the creature. -/
def entry (c : WalkCache) (pos : MapPosition) : Bool :=
  c.localMapCache (maxWalkCacheHeight + pos.getOffsetY c.position)
    (maxWalkCacheWidth + pos.getOffsetX c.position)

def InWindow (myPos pos : MapPosition) : Prop :=
  pos.z = myPos.z ∧ (pos.getOffsetX myPos).natAbs ≤ maxWalkCacheWidth ∧
    (pos.getOffsetY myPos).natAbs ≤ maxWalkCacheHeight

/-! ## What the loops leave in the cells -/

theorem mem_window {d : Int} (hd : -11 ≤ d ∧ d ≤ 11) : d ∈ fromTo (-11) 11 := mem_fromTo.mpr hd

theorem setCell_apply (c : WalkCache) (row column : Int) (accepted : Bool) :
    (c.setCell row column accepted).localMapCache i j =
      if i = row ∧ j = column then accepted else c.localMapCache i j := by
  by_cases hi : i = row
  · subst hi
    by_cases hj : j = column
    · simp [setCell, hj]
    · simp [setCell, hj]
  · simp [setCell, hi]

@[simp] theorem updateTileCache_position (accepted : Bool) :
    (c.updateTileCache accepted dx dy).position = c.position := by
  unfold updateTileCache setCell
  split_ifs <;> rfl

theorem updateTileCache_apply (accepted : Bool) (hi : 0 ≤ i ∧ i ≤ 22) (hj : 0 ≤ j ∧ j ≤ 22) :
    (c.updateTileCache accepted dx dy).localMapCache i j =
      if i = 11 + dy ∧ j = 11 + dx then accepted else c.localMapCache i j := by
  unfold updateTileCache
  by_cases hcell : i = 11 + dy ∧ j = 11 + dx
  · have hwindow : dx.natAbs ≤ (11 : Int) ∧ dy.natAbs ≤ (11 : Int) := by omega
    rw [if_pos hwindow, setCell_apply]
  · rw [if_neg hcell]
    split_ifs
    · rw [setCell_apply, if_neg hcell]
    · rfl

@[simp] theorem updateTileCacheAt_position : (c.updateTileCacheAt t pos).position = c.position := by
  unfold updateTileCacheAt
  split_ifs <;> simp

@[simp] theorem refreshTile_position : (c.refreshTile t dx dy).position = c.position := by
  simp [refreshTile]

theorem refreshTile_apply (hp : c.position = p) (hi : 0 ≤ i ∧ i ≤ 22) (hj : 0 ≤ j ∧ j ≤ 22) :
    (c.refreshTile t dx dy).localMapCache i j =
      if i = 11 + dy ∧ j = 11 + dx then t.queryAdd p (p.shift (j - 11, i - 11))
      else c.localMapCache i j := by
  rw [refreshTile, updateTileCache_apply _ hi hj, hp]
  split_ifs with hcell
  · obtain ⟨rfl, rfl⟩ := hcell
    simp
  · rfl

@[simp] theorem refreshRow_position : (c.refreshRow t dy).position = c.position :=
  InPlace.inv_foldl (fun s : WalkCache => s.position = c.position) (fun s x hs => by simpa using hs) rfl

@[simp] theorem refreshColumn_position : (c.refreshColumn t dx).position = c.position :=
  InPlace.inv_foldl (fun s : WalkCache => s.position = c.position) (fun s y hs => by simpa using hs) rfl

theorem refreshRow_apply (hp : c.position = p) (hi : 0 ≤ i ∧ i ≤ 22) (hj : 0 ≤ j ∧ j ≤ 22) :
    (c.refreshRow t dy).localMapCache i j =
      if i = 11 + dy then t.queryAdd p (p.shift (j - 11, i - 11)) else c.localMapCache i j := by
  have hinv : ∀ (s : WalkCache) (x : Int), s.position = p → (s.refreshTile t x dy).position = p :=
    fun s x hs => by simpa using hs
  have hmiss : ∀ (s : WalkCache) (x : Int), s.position = p → ¬(i = 11 + dy ∧ j = 11 + x) →
      (s.refreshTile t x dy).localMapCache i j = s.localMapCache i j := by
    intro s x hs hcell
    rw [refreshTile_apply hs hi hj, if_neg hcell]
  split_ifs with hrow
  · refine InPlace.read_foldl_of_exists (fun s : WalkCache => s.localMapCache i j)
      (fun x => i = 11 + dy ∧ j = 11 + x) hinv ?_ hmiss ?_ hp
    · intro s x hs hcell
      rw [refreshTile_apply hs hi hj, if_pos hcell]
    · exact ⟨j - 11, mem_window (by omega), hrow, by omega⟩
  · exact InPlace.read_foldl_of_forall_not (fun s : WalkCache => s.localMapCache i j)
      (fun x => i = 11 + dy ∧ j = 11 + x) hinv hmiss
      (fun x _ hcell => hrow hcell.1) hp

theorem refreshColumn_apply (hp : c.position = p) (hi : 0 ≤ i ∧ i ≤ 22) (hj : 0 ≤ j ∧ j ≤ 22) :
    (c.refreshColumn t dx).localMapCache i j =
      if j = 11 + dx then t.queryAdd p (p.shift (j - 11, i - 11)) else c.localMapCache i j := by
  have hinv : ∀ (s : WalkCache) (y : Int), s.position = p → (s.refreshTile t dx y).position = p :=
    fun s y hs => by simpa using hs
  have hmiss : ∀ (s : WalkCache) (y : Int), s.position = p → ¬(i = 11 + y ∧ j = 11 + dx) →
      (s.refreshTile t dx y).localMapCache i j = s.localMapCache i j := by
    intro s y hs hcell
    rw [refreshTile_apply hs hi hj, if_neg hcell]
  split_ifs with hcolumn
  · refine InPlace.read_foldl_of_exists (fun s : WalkCache => s.localMapCache i j)
      (fun y => i = 11 + y ∧ j = 11 + dx) hinv ?_ hmiss ?_ hp
    · intro s y hs hcell
      rw [refreshTile_apply hs hi hj, if_pos hcell]
    · exact ⟨i - 11, mem_window (by omega), by omega, hcolumn⟩
  · exact InPlace.read_foldl_of_forall_not (fun s : WalkCache => s.localMapCache i j)
      (fun y => i = 11 + y ∧ j = 11 + dx) hinv hmiss
      (fun y _ hcell => hcolumn hcell.2) hp

theorem shiftSouth_apply (hi : 0 < i ∧ i ≤ 22) :
    c.shiftSouth.localMapCache i j = c.localMapCache (i - 1) j := by
  have hshift := congrFun (congrFun (InPlace.foldl_shiftOn c.localMapCache 0 21) i) j
  rwa [if_pos (by omega)] at hshift

theorem shiftNorth_apply (hi : 0 ≤ i ∧ i < 22) :
    c.shiftNorth.localMapCache i j = c.localMapCache (i + 1) j := by
  have hshift := congrFun (congrFun (InPlace.foldl_shiftBack c.localMapCache 0 21) i) j
  rwa [if_pos (by omega)] at hshift

/-- A loop over the cells of one row changes this row as a loop over its cells alone. -/
theorem foldl_row (l : List Int) (y : Int) (cell : Int → Int) (value : (Int → Bool) → Int → Bool)
    (c : WalkCache) :
    l.foldl (fun c x => c.setCell y (cell x) (value (c.localMapCache y) x)) c =
      { c with
        localMapCache := Function.update c.localMapCache y
          (l.foldl (fun row x => Function.update row (cell x) (value row x))
            (c.localMapCache y)) } := by
  induction l generalizing c with
  | nil => simp
  | cons x l ih =>
    rw [List.foldl_cons, ih, List.foldl_cons]
    simp only [setCell, Function.update_self, Function.update_idem]

/-- A loop over rows changes each of them once. -/
theorem foldl_rows (starty endy : Int) (g : (Int → Bool) → Int → Bool) (c : WalkCache) :
    ((fromTo starty endy).foldl (fun c y =>
      { c with localMapCache := Function.update c.localMapCache y (g (c.localMapCache y)) })
        c).localMapCache i =
      if starty ≤ i ∧ i ≤ endy then g (c.localMapCache i) else c.localMapCache i := by
  have hcache (l : List Int) (c : WalkCache) : (l.foldl (fun c y =>
      { c with localMapCache := Function.update c.localMapCache y (g (c.localMapCache y)) })
        c).localMapCache =
      l.foldl (fun cache y => Function.update cache y (g (cache y))) c.localMapCache := by
    induction l generalizing c with
    | nil => rfl
    | cons y l ih => rw [List.foldl_cons, ih, List.foldl_cons]
  rw [hcache, InPlace.foldl_modify (nodup_fromTo _ _)]
  simp only [mem_fromTo]

theorem shiftWest_apply {starty endy : Int} (hj : 0 ≤ j ∧ j < 22) :
    (c.shiftWest starty endy).localMapCache i j =
      if starty ≤ i ∧ i ≤ endy then c.localMapCache i (j + 1) else c.localMapCache i j := by
  have hrow (row : Int → Bool) : (fromTo 0 (mapWalkWidth - 2)).foldl
      (fun row x => Function.update row x (row (x + 1))) row =
      fun j => if 0 ≤ j ∧ j ≤ 21 then row (j + 1) else row j :=
    InPlace.foldl_shiftBack row 0 21
  unfold shiftWest
  simp only [foldl_row _ _ (fun x => x) (fun row x => row (x + 1))]
  rw [foldl_rows starty endy (List.foldl (fun row x => Function.update row x (row (x + 1))) · _),
    hrow]
  split_ifs
  · exact if_pos (by omega)
  · rfl

theorem shiftEast_apply {starty endy : Int} (hj : 0 < j ∧ j ≤ 22) :
    (c.shiftEast starty endy).localMapCache i j =
      if starty ≤ i ∧ i ≤ endy then c.localMapCache i (j - 1) else c.localMapCache i j := by
  have hrow (row : Int → Bool) : (fromTo 0 (mapWalkWidth - 2)).reverse.foldl
      (fun row x => Function.update row (x + 1) (row x)) row =
      fun j => if 0 < j ∧ j ≤ 21 + 1 then row (j - 1) else row j :=
    InPlace.foldl_shiftOn row 0 21
  unfold shiftEast
  simp only [foldl_row _ _ (fun x => x + 1) (fun row x => row x)]
  rw [foldl_rows starty endy (List.foldl (fun row x => Function.update row (x + 1) (row x)) · _),
    hrow]
  split_ifs
  · exact if_pos (by omega)
  · rfl

@[simp] theorem shiftWest_position {starty endy : Int} :
    (c.shiftWest starty endy).position = c.position :=
  InPlace.inv_foldl (fun s : WalkCache => s.position = c.position) (fun _ _ hs =>
    InPlace.inv_foldl (fun s : WalkCache => s.position = c.position) (fun _ _ hs => hs) hs) rfl

@[simp] theorem shiftEast_position {starty endy : Int} :
    (c.shiftEast starty endy).position = c.position :=
  InPlace.inv_foldl (fun s : WalkCache => s.position = c.position) (fun _ _ hs =>
    InPlace.inv_foldl (fun s : WalkCache => s.position = c.position) (fun _ _ hs => hs) hs) rfl

@[simp] theorem shiftSouth_position : c.shiftSouth.position = c.position := rfl

@[simp] theorem shiftNorth_position : c.shiftNorth.position = c.position := rfl

@[simp] theorem moveRows_position : (c.moveRows t p q).position = c.position := by
  unfold moveRows
  split_ifs <;> simp

@[simp] theorem moveColumns_position : (c.moveColumns t p q).position = c.position := by
  unfold moveColumns
  split_ifs <;> simp

/-! ## The cells after a step -/

/-- The positions of a step differ by at most one in either coordinate. -/
structure Adjacent (p q : MapPosition) : Prop where
  z : p.z = q.z
  x : (q.getOffsetX p).natAbs ≤ 1
  y : (q.getOffsetY p).natAbs ≤ 1

theorem lt_y_iff : q.y < p.y ↔ q.getOffsetY p < 0 := by
  rw [UInt16.lt_iff_toNat_lt, MapPosition.getOffsetY]
  omega

theorem lt_x_iff : q.x < p.x ↔ q.getOffsetX p < 0 := by
  rw [UInt16.lt_iff_toNat_lt, MapPosition.getOffsetX]
  omega

theorem lt_y_iff' : p.y < q.y ↔ 0 < q.getOffsetY p := by
  rw [UInt16.lt_iff_toNat_lt, MapPosition.getOffsetY]
  omega

theorem lt_x_iff' : p.x < q.x ↔ 0 < q.getOffsetX p := by
  rw [UInt16.lt_iff_toNat_lt, MapPosition.getOffsetX]
  omega

/-- The rows that come into the window are asked, and the others are shifted. -/
theorem moveRows_apply (hc : c.position = q) (hy : (q.getOffsetY p).natAbs ≤ 1)
    (hi : 0 ≤ i ∧ i ≤ 22) (hj : 0 ≤ j ∧ j ≤ 22) :
    (c.moveRows t p q).localMapCache i j =
      if 0 ≤ i + q.getOffsetY p ∧ i + q.getOffsetY p ≤ 22 then
        c.localMapCache (i + q.getOffsetY p) j
      else t.queryAdd q (q.shift (j - 11, i - 11)) := by
  unfold moveRows
  by_cases hnorth : q.y < p.y
  · have hoff : q.getOffsetY p = -1 := by
      have := lt_y_iff.mp hnorth
      omega
    rw [if_pos hnorth, refreshRow_apply (by simpa using hc) hi hj, hoff]
    by_cases hfresh : i = 11 + -maxWalkCacheHeight
    · rw [if_pos hfresh, if_neg]
      simp only [maxWalkCacheHeight] at hfresh
      omega
    · have hold : 0 < i := by
        simp only [maxWalkCacheHeight] at hfresh
        omega
      rw [if_neg hfresh, if_pos (by omega), shiftSouth_apply (by omega)]
      rfl
  · rw [if_neg hnorth]
    by_cases hsouth : p.y < q.y
    · have hoff : q.getOffsetY p = 1 := by
        have := lt_y_iff'.mp hsouth
        omega
      rw [if_pos hsouth, refreshRow_apply (by simpa using hc) hi hj, hoff]
      by_cases hfresh : i = 11 + maxWalkCacheHeight
      · rw [if_pos hfresh, if_neg]
        simp only [maxWalkCacheHeight] at hfresh
        omega
      · have hold : i < 22 := by
          simp only [maxWalkCacheHeight] at hfresh
          omega
        rw [if_neg hfresh, if_pos (by omega), shiftNorth_apply (by omega)]
    · have hoff : q.getOffsetY p = 0 := by
        rw [lt_y_iff] at hnorth
        rw [lt_y_iff'] at hsouth
        omega
      rw [if_neg hsouth, hoff, if_pos (by omega), Int.add_zero]

theorem getDistanceY_eq : p.getDistanceY q = (q.getOffsetY p).natAbs := by
  rw [MapPosition.getDistanceY, MapPosition.getOffsetY]
  omega

theorem getDistanceX_eq : p.getDistanceX q = (q.getOffsetX p).natAbs := by
  rw [MapPosition.getDistanceX, MapPosition.getOffsetX]
  omega

/-- The columns that come into the window are asked. The others are shifted, but not in the first
row after a diagonal step. -/
theorem moveColumns_apply (hc : c.position = q) (hx : (q.getOffsetX p).natAbs ≤ 1)
    (hi : 0 ≤ i ∧ i ≤ 22) (hj : 0 ≤ j ∧ j ≤ 22) :
    (c.moveColumns t p q).localMapCache i j =
      if 0 ≤ j + q.getOffsetX p ∧ j + q.getOffsetX p ≤ 22 then
        if (q.getOffsetY p).natAbs ≤ i then c.localMapCache i (j + q.getOffsetX p)
        else c.localMapCache i j
      else t.queryAdd q (q.shift (j - 11, i - 11)) := by
  have hstart : startRow (p.getDistanceY q) = (q.getOffsetY p).natAbs := by
    rw [getDistanceY_eq, startRow]
    split_ifs <;> omega
  have hend : endRow (p.getDistanceY q) = 22 := by
    rw [getDistanceY_eq, endRow, if_neg (by omega)]
    rfl
  have hrows : ((q.getOffsetY p).natAbs : Int) ≤ i ∧ i ≤ 22 ↔ (q.getOffsetY p).natAbs ≤ i :=
    ⟨And.left, fun h => ⟨h, hi.2⟩⟩
  simp only [moveColumns, hstart, hend]
  by_cases heast : p.x < q.x
  · have hoff : q.getOffsetX p = 1 := by
      have := lt_x_iff'.mp heast
      omega
    rw [if_pos heast, refreshColumn_apply (by simpa using hc) hi hj, hoff]
    by_cases hfresh : j = 11 + maxWalkCacheWidth
    · rw [if_pos hfresh, if_neg]
      simp only [maxWalkCacheWidth] at hfresh
      omega
    · have hold : j < 22 := by
        simp only [maxWalkCacheWidth] at hfresh
        omega
      rw [if_neg hfresh, if_pos (by omega), shiftWest_apply (by omega)]
      simp only [hrows]
  · rw [if_neg heast]
    by_cases hwest : q.x < p.x
    · have hoff : q.getOffsetX p = -1 := by
        have := lt_x_iff.mp hwest
        omega
      rw [if_pos hwest, refreshColumn_apply (by simpa using hc) hi hj, hoff]
      by_cases hfresh : j = 11 + -maxWalkCacheWidth
      · rw [if_pos hfresh, if_neg]
        simp only [maxWalkCacheWidth] at hfresh
        omega
      · have hold : 0 < j := by
          simp only [maxWalkCacheWidth] at hfresh
          omega
        rw [if_neg hfresh, if_pos (by omega), shiftEast_apply (by omega)]
        simp only [hrows]
        rfl
    · have hoff : q.getOffsetX p = 0 := by
        rw [lt_x_iff'] at heast
        rw [lt_x_iff] at hwest
        omega
      rw [if_neg hwest, hoff, if_pos (by omega), Int.add_zero, ite_self]

/-! ## Agreement with the map -/

/-- Every cell says whether the tile there accepts the creature. -/
def Agrees (t : Terrain) (c : WalkCache) : Prop :=
  ∀ pos, InWindow c.position pos → c.entry pos = t.queryAdd c.position pos

/-- The same for every cell but that of the creature's own tile. -/
def AgreesAround (t : Terrain) (c : WalkCache) : Prop :=
  ∀ pos, InWindow c.position pos → pos ≠ c.position → c.entry pos = t.accepts pos

theorem entry_eq (c : WalkCache) (pos : MapPosition) : c.entry pos =
    c.localMapCache (11 + pos.getOffsetY c.position) (11 + pos.getOffsetX c.position) := rfl

theorem queryAdd_of_ne (h : pos ≠ p) : t.queryAdd p pos = t.accepts pos := if_neg h

theorem Agrees.around (h : c.Agrees t) : c.AgreesAround t :=
  fun pos hpos hne => (h pos hpos).trans (queryAdd_of_ne hne)

theorem entry_updateTileCacheAt (hpos : InWindow c.position pos) :
    (c.updateTileCacheAt t q).entry pos =
      if q = pos then t.queryAdd c.position pos else c.entry pos := by
  obtain ⟨hz, hx, hy⟩ := hpos
  have hi : 0 ≤ maxWalkCacheHeight + pos.getOffsetY c.position ∧
      maxWalkCacheHeight + pos.getOffsetY c.position ≤ 22 := by
    simp only [maxWalkCacheHeight] at hy ⊢
    omega
  have hj : 0 ≤ maxWalkCacheWidth + pos.getOffsetX c.position ∧
      maxWalkCacheWidth + pos.getOffsetX c.position ≤ 22 := by
    simp only [maxWalkCacheWidth] at hx ⊢
    omega
  unfold entry
  rw [updateTileCacheAt_position, updateTileCacheAt]
  by_cases hq : q = pos
  · subst hq
    rw [if_pos hz, updateTileCache_apply _ hi hj, if_pos ⟨rfl, rfl⟩, if_pos rfl]
  · rw [if_neg hq]
    by_cases hqz : q.z = c.position.z
    · rw [if_pos hqz, updateTileCache_apply _ hi hj, if_neg]
      rintro ⟨hcelly, hcellx⟩
      simp only [maxWalkCacheWidth, maxWalkCacheHeight] at hcelly hcellx
      exact hq (MapPosition.eq_of_offsets (p := c.position) (hqz.trans hz.symm) (by omega)
        (by omega))
    · rw [if_neg hqz]

theorem updateMapCache_position : (c.updateMapCache t).position = c.position :=
  InPlace.inv_foldl (fun s : WalkCache => s.position = c.position) (fun _ _ hs =>
    InPlace.inv_foldl (fun s : WalkCache => s.position = c.position)
      (fun _ _ hs => updateTileCacheAt_position.trans hs) hs) rfl

/-- A full update makes the cache agree, whatever it held before. -/
theorem agrees_updateMapCache (t : Terrain) (c : WalkCache) : (c.updateMapCache t).Agrees t := by
  intro pos hpos
  rw [updateMapCache_position] at hpos ⊢
  have hoffset : c.position.shift (pos.getOffsetX c.position, pos.getOffsetY c.position) = pos :=
    MapPosition.shift_offset hpos.1
  have hinv : ∀ (s : WalkCache) (q : MapPosition), s.position = c.position →
      (s.updateTileCacheAt t q).position = c.position :=
    fun s q hs => updateTileCacheAt_position.trans hs
  have hmiss : ∀ (s : WalkCache) (y x : Int), s.position = c.position →
      ¬s.position.shift (x, y) = pos →
      (s.updateTileCacheAt t (s.position.shift (x, y))).entry pos = s.entry pos := by
    intro s y x hs hne
    rw [entry_updateTileCacheAt (by rwa [hs]), if_neg hne]
  have hrow : ∀ (s : WalkCache) (y : Int), s.position = c.position →
      ((fromTo (-maxWalkCacheWidth) maxWalkCacheWidth).foldl (fun c x =>
        c.updateTileCacheAt t (c.position.shift (x, y))) s).position = c.position :=
    fun s y hs => InPlace.inv_foldl (fun s : WalkCache => s.position = c.position)
      (fun s x hs => hinv s _ hs) hs
  refine InPlace.read_foldl_of_exists (fun s : WalkCache => s.entry pos)
    (fun y => ∃ x, (-11 ≤ x ∧ x ≤ 11) ∧ c.position.shift (x, y) = pos) hrow ?_ ?_ ?_ rfl
  · rintro s y hs ⟨x, hx, hpos'⟩
    refine InPlace.read_foldl_of_exists (fun s : WalkCache => s.entry pos)
      (fun x => c.position.shift (x, y) = pos) (fun s x hs => hinv s _ hs) ?_ ?_
      ⟨x, mem_window hx, hpos'⟩ hs
    · intro s x hs hpos''
      rw [entry_updateTileCacheAt (by rwa [hs]), hs, if_pos hpos'']
    · intro s x hs hne
      exact hmiss s y x hs (by rwa [hs])
  · intro s y hs hnone
    refine InPlace.read_foldl_of_forall_not (fun s : WalkCache => s.entry pos)
      (fun x => c.position.shift (x, y) = pos) (fun s x hs => hinv s _ hs) ?_ ?_ hs
    · intro s x hs hne
      exact hmiss s y x hs (by rwa [hs])
    · intro x hx hpos'
      exact hnone ⟨x, mem_fromTo.mp hx, hpos'⟩
  · obtain ⟨_, hx, hy⟩ := hpos
    simp only [maxWalkCacheWidth, maxWalkCacheHeight] at hx hy
    exact ⟨pos.getOffsetY c.position, mem_window (by omega), pos.getOffsetX c.position, by omega,
      hoffset⟩

theorem Agrees.updateTileCacheAt (h : c.Agrees t) (pos : MapPosition) :
    c.updateTileCacheAt t pos = c := by
  unfold WalkCache.updateTileCacheAt updateTileCache
  split_ifs with hz hwindow
  · have hentry : c.localMapCache (maxWalkCacheHeight + pos.getOffsetY c.position)
        (maxWalkCacheWidth + pos.getOffsetX c.position) = t.queryAdd c.position pos :=
      h pos ⟨hz, hwindow⟩
    rw [setCell, ← hentry, Function.update_eq_self, Function.update_eq_self]
  · rfl
  · rfl

/-- The cache agrees exactly if a full update changes nothing. -/
theorem agrees_iff_updateMapCache : c.Agrees t ↔ c.updateMapCache t = c := by
  constructor
  · intro h
    exact InPlace.inv_foldl (fun s : WalkCache => s = c) (fun s y hs =>
      InPlace.inv_foldl (fun s : WalkCache => s = c)
        (fun s x hs => by rw [hs, h.updateTileCacheAt]) hs) rfl
  · intro h
    rw [← h]
    exact agrees_updateMapCache t c

/-! ## Steps -/

/-- A step to the south-east or to the south-west. -/
def SouthDiagonal (p q : MapPosition) : Prop := p.y < q.y ∧ p.x ≠ q.x

instance (p q : MapPosition) : Decidable (SouthDiagonal p q) :=
  inferInstanceAs (Decidable (p.y < q.y ∧ p.x ≠ q.x))

/-- A position in the old window keeps its cell's value, and one that comes into it is asked. -/
theorem entry_moved (h : c.AgreesAround t) (hadj : Adjacent c.position q)
    (hdiag : ¬SouthDiagonal c.position q) (hpos : InWindow q pos) (hold : pos ≠ c.position) :
    let moved := ({ c with position := q }.moveRows t c.position q).moveColumns t c.position q
    moved.entry pos = t.accepts pos ∨ moved.entry pos = t.queryAdd q pos := by
  intro moved
  obtain ⟨hz, hx, hy⟩ := hpos
  simp only [maxWalkCacheWidth, maxWalkCacheHeight] at hx hy
  have hshift : q.shift (11 + pos.getOffsetX q - 11, 11 + pos.getOffsetY q - 11) = pos := by
    rw [add_sub_cancel_left, add_sub_cancel_left, MapPosition.shift_offset hz]
  have hoffX : pos.getOffsetX c.position = pos.getOffsetX q + q.getOffsetX c.position := by
    simp only [MapPosition.getOffsetX]
    omega
  have hoffY : pos.getOffsetY c.position = pos.getOffsetY q + q.getOffsetY c.position := by
    simp only [MapPosition.getOffsetY]
    omega
  have hfar := hadj.x
  have hfar' := hadj.y
  have hkept (i j : Int) (hi : i = 11 + pos.getOffsetY c.position)
      (hj : j = 11 + pos.getOffsetX c.position) (hi' : 0 ≤ i ∧ i ≤ 22) (hj' : 0 ≤ j ∧ j ≤ 22) :
      c.localMapCache i j = t.accepts pos := by
    subst hi hj
    refine h pos ⟨hz.trans hadj.z.symm, ?_, ?_⟩ hold
    · simp only [maxWalkCacheWidth]
      omega
    · simp only [maxWalkCacheHeight]
      omega
  have hsouth : 0 < q.getOffsetY c.position → q.getOffsetX c.position = 0 := by
    intro hlt
    by_contra hne
    refine hdiag ⟨lt_y_iff'.mpr hlt, fun heq => hne ?_⟩
    rw [MapPosition.getOffsetX, heq]
    omega
  simp only [moved, entry_eq, moveColumns_position, moveRows_position]
  rw [moveColumns_apply (by simp) hadj.x (by omega) (by omega), hshift]
  split_ifs with hcolumn hrow
  · rw [moveRows_apply (q := q) rfl hadj.y (by omega) hcolumn]
    split_ifs with hrows
    · exact .inl (hkept _ _ (by omega) (by omega) hrows hcolumn)
    · -- a row that was asked is shifted only by a step to the south-east or south-west
      rw [hsouth (by omega), Int.add_zero, hshift]
      exact .inr rfl
  · rw [moveRows_apply (q := q) rfl hadj.y (by omega) (by omega), hshift]
    split_ifs with hrows
    · have := hsouth (by omega)
      exact .inl (hkept _ _ (by omega) (by omega) hrows (by omega))
    · exact .inr rfl
  · exact .inr rfl

theorem onCreatureMove_of_step (hz : p.z = q.z) : c.onCreatureMove t q p false =
    ((c.moveRows t p q).moveColumns t p q).updateTileCacheAt t p := by
  rw [onCreatureMove, if_neg (by simp [hz])]

@[simp] theorem onCreatureMove_position (teleport : Bool) :
    (c.onCreatureMove t q p teleport).position = c.position := by
  unfold onCreatureMove
  split_ifs
  · exact updateMapCache_position
  · simp

theorem entry_step (hadj : Adjacent c.position q) (hpos : InWindow q pos) :
    let moved := ({ c with position := q }.moveRows t c.position q).moveColumns t c.position q
    ({ c with position := q }.onCreatureMove t q c.position false).entry pos =
      if c.position = pos then t.queryAdd q pos else moved.entry pos := by
  rw [onCreatureMove_of_step hadj.z, entry_updateTileCacheAt (by simpa using hpos)]
  simp

theorem AgreesAround.step (h : c.AgreesAround t) (hadj : Adjacent c.position q)
    (hdiag : ¬SouthDiagonal c.position q) :
    ({ c with position := q }.onCreatureMove t q c.position false).AgreesAround t := by
  intro pos hpos hne
  rw [onCreatureMove_position] at hpos hne
  rw [entry_step hadj hpos]
  split_ifs with hold
  · exact queryAdd_of_ne hne
  · rcases entry_moved h hadj hdiag hpos (Ne.symm hold) with hentry | hentry
    · exact hentry
    · rw [hentry, queryAdd_of_ne hne]

theorem AgreesAround.step_own (h : c.AgreesAround t) (hadj : Adjacent c.position q)
    (hdiag : ¬SouthDiagonal c.position q) (hown : t.acceptsOwn q = t.accepts q) :
    ({ c with position := q }.onCreatureMove t q c.position false).Agrees t := by
  intro pos hpos
  by_cases hne : pos = q
  · subst hne
    rw [onCreatureMove_position] at hpos ⊢
    rw [entry_step hadj hpos]
    split_ifs with hold
    · rfl
    · rcases entry_moved h hadj hdiag hpos (Ne.symm hold) with hentry | hentry
      · rw [hentry, Terrain.queryAdd, if_pos rfl, hown]
      · exact hentry
  · rw [h.step hadj hdiag pos hpos (by simpa using hne), onCreatureMove_position,
      queryAdd_of_ne hne]

/-- After a diagonal step to the south the first row of the window is left one column off: its
cells keep what the row that comes to the first place held in the same column. -/
theorem entry_southDiagonal (hadj : Adjacent c.position q) (hdiag : SouthDiagonal c.position q)
    (hpos : InWindow q pos) (hfirst : pos.getOffsetY q = -11)
    (hkept : (pos.getOffsetX c.position).natAbs ≤ (11 : Int)) {other : MapPosition}
    (hother : other.getOffsetX c.position = pos.getOffsetX q) (hrow : other.y = pos.y) :
    ({ c with position := q }.onCreatureMove t q c.position false).entry pos = c.entry other := by
  have hoffX : pos.getOffsetX c.position = pos.getOffsetX q + q.getOffsetX c.position := by
    simp only [MapPosition.getOffsetX]
    omega
  have hoffY : pos.getOffsetY c.position = pos.getOffsetY q + q.getOffsetY c.position := by
    simp only [MapPosition.getOffsetY]
    omega
  have hotherY : other.getOffsetY c.position = pos.getOffsetY c.position := by
    rw [MapPosition.getOffsetY, hrow]
    rfl
  have hsouth : q.getOffsetY c.position = 1 := by
    have := lt_y_iff'.mp hdiag.1
    have := hadj.y
    omega
  have hx := hpos.2.1
  simp only [maxWalkCacheWidth] at hx
  have hold : ¬c.position = pos := by
    rintro rfl
    simp only [MapPosition.getOffsetY] at hfirst hsouth
    omega
  rw [entry_step hadj hpos, if_neg hold]
  simp only [entry_eq, moveColumns_position, moveRows_position]
  rw [moveColumns_apply (by simp) hadj.x (by omega) (by omega), if_pos (by omega),
    if_neg (by omega), moveRows_apply (q := q) rfl hadj.y (by omega) (by omega),
    if_pos (by omega), hother, hotherY, hoffY, add_assoc]

end WalkCache

/-! ## Runs -/

namespace OwnMove

open WalkCache

variable {c c' : WalkCache} {t : Terrain} {m : OwnMove}

/-- The creature's map cache has been loaded, and the creature moves on a map that stays as it
is. -/
def moves (t : Terrain) : Run.System WalkCache OwnMove where
  init c := ∃ c₀ : WalkCache, c = c₀.updateMapCache t
  step c m c' := c' = m.apply t c

def NotSouthDiagonal (t : Terrain) (c : WalkCache) (m : OwnMove) : Prop :=
  m.teleport t c.position = true ∨ ¬SouthDiagonal c.position m.newPos

/-- The tile that the creature steps on answers it as before it came. -/
def OwnTileKept (t : Terrain) (c : WalkCache) (m : OwnMove) : Prop :=
  m.teleport t c.position = true ∨ t.acceptsOwn m.newPos = t.accepts m.newPos

theorem adjacent_of_not_teleport (h : m.teleport t c.position = false) :
    Adjacent c.position m.newPos := by
  simp only [teleport, Bool.or_eq_false_iff, Bool.not_eq_false', Bool.and_eq_true,
    decide_eq_true_eq, getDistanceX_eq, getDistanceY_eq] at h
  obtain ⟨_, ⟨hx, hy⟩, hz⟩ := h
  refine ⟨?_, by omega, by omega⟩
  rw [MapPosition.getDistanceZ] at hz
  exact UInt8.toNat_inj.mp (by omega)

theorem agrees_apply_teleport (h : m.teleport t c.position = true) : (m.apply t c).Agrees t := by
  rw [apply, h, onCreatureMove, if_pos (.inl rfl)]
  exact agrees_updateMapCache t _

theorem agreesAround_apply (h : c.AgreesAround t) (hm : m.NotSouthDiagonal t c) :
    (m.apply t c).AgreesAround t := by
  cases hteleport : m.teleport t c.position with
  | true => exact (agrees_apply_teleport hteleport).around
  | false =>
    rw [apply, hteleport]
    exact h.step (adjacent_of_not_teleport hteleport) (hm.resolve_left (by simp [hteleport]))

theorem agrees_apply (h : c.AgreesAround t) (hm : m.NotSouthDiagonal t c)
    (hown : m.OwnTileKept t c) : (m.apply t c).Agrees t := by
  cases hteleport : m.teleport t c.position with
  | true => exact agrees_apply_teleport hteleport
  | false =>
    rw [apply, hteleport]
    exact h.step_own (adjacent_of_not_teleport hteleport) (hm.resolve_left (by simp [hteleport]))
      (hown.resolve_left (by simp [hteleport]))

/-- Without steps to the south-east and south-west, the shifted cache is what a full update would
compute, around the creature and, where its presence makes no difference, under it. -/
theorem updateMapCache_of_reachable (t : Terrain) :
    (∀ c, Run.ReachableBy (moves t) (fun c m => m.NotSouthDiagonal t c) c → c.AgreesAround t) ∧
      ∀ c, Run.ReachableBy (moves t) (fun c m => m.NotSouthDiagonal t c ∧ m.OwnTileKept t c) c →
        c.Agrees t ∧ c.updateMapCache t = c := by
  constructor
  · intro c h
    refine h.invariant (I := AgreesAround t) ?_ ?_
    · rintro c ⟨c₀, hc⟩
      rw [hc]
      exact (agrees_updateMapCache t c₀).around
    · rintro c m c' hc hm rfl
      exact agreesAround_apply hc hm
  · intro c h
    have hagrees : c.Agrees t := by
      refine h.invariant (I := Agrees t) ?_ ?_
      · rintro c ⟨c₀, hc⟩
        rw [hc]
        exact agrees_updateMapCache t c₀
      · rintro c m c' hc ⟨hm, hown⟩ rfl
        exact agrees_apply hc.around hm hown
    exact ⟨hagrees, agrees_iff_updateMapCache.mp hagrees⟩

/-! A creature stands west of a wall that runs from north to south. -/

def wallTerrain : Terrain where
  accepts pos := pos.x ≠ 105
  acceptsOwn pos := pos.x ≠ 105
  getGround _ := true

def wallWalker : WalkCache :=
  WalkCache.updateMapCache ⟨true, ⟨100, 100, 7⟩, fun _ _ => false⟩ wallTerrain

theorem wallWalker_position : wallWalker.position = ⟨100, 100, 7⟩ := updateMapCache_position

theorem wallWalker_agrees : wallWalker.Agrees wallTerrain := agrees_updateMapCache _ _

def northEast : OwnMove := ⟨⟨101, 99, 7⟩, false⟩

def southEast : OwnMove := ⟨⟨101, 101, 7⟩, false⟩

theorem updateMapCache_of_northEast :
    (northEast.apply wallTerrain wallWalker).updateMapCache wallTerrain =
      northEast.apply wallTerrain wallWalker := by
  refine ((updateMapCache_of_reachable wallTerrain).2 _ (.step (i := northEast)
    (.init ⟨_, rfl⟩) ⟨.inr ?_, .inr rfl⟩ rfl)).2
  rw [← wallWalker, wallWalker_position]
  decide

theorem entry_southEast (hagrees : c.Agrees wallTerrain) (hc : c.position = ⟨100, 100, 7⟩) :
    (southEast.apply wallTerrain c).entry ⟨105, 90, 7⟩ = true := by
  have hteleport : southEast.teleport wallTerrain c.position = false := by
    rw [hc]
    decide
  have hadj : Adjacent c.position southEast.newPos := by
    rw [hc]
    exact ⟨rfl, by decide, by decide⟩
  have hdiag : SouthDiagonal c.position southEast.newPos := by
    rw [hc]
    decide
  have hold : c.entry ⟨104, 90, 7⟩ = true := by
    rw [hagrees ⟨104, 90, 7⟩ (by rw [hc]; exact ⟨rfl, by decide, by decide⟩), hc]
    decide
  have hpos : InWindow southEast.newPos ⟨105, 90, 7⟩ := ⟨rfl, by decide, by decide⟩
  rw [apply, hteleport, ← hold]
  refine entry_southDiagonal hadj hdiag hpos (by decide) ?_ ?_ rfl
  · rw [hc]
    decide
  · rw [hc]
    decide

/-- After a step to the south-east the cache tells the creature that it can walk to a tile of the
wall. -/
theorem southEast_through_wall :
    ¬ ∀ t c, Run.Reachable (moves t) c → c.updateMapCache t = c := by
  intro h
  have hfull := h wallTerrain (southEast.apply wallTerrain wallWalker)
    (.step (i := southEast) (.init ⟨_, rfl⟩) trivial rfl)
  have hagrees := agrees_iff_updateMapCache.mpr hfull ⟨105, 90, 7⟩
  rw [entry_southEast wallWalker_agrees wallWalker_position, apply,
    onCreatureMove_position] at hagrees
  exact absurd (hagrees ⟨rfl, by decide, by decide⟩) (by decide)

end OwnMove

end Eloth
