import Mathlib.Data.List.Range
import Mathlib.Data.Set.Image
import Eloth.PathFinding

/-!
# Areas of combat

The cells of an area lie row by row in one array. Rotations and reflections copy slices of it into
a new array; an index outside either array leaves no result.
-/

namespace Eloth

/-- `std::slice`. -/
structure Slice where
  start : Nat
  size : Nat
  stride : Nat

def Slice.index (s : Slice) (j : Nat) : Nat := s.start + j * s.stride

/-- The pairs of an index of the new array and one of the old in `newArr[dst] = arr[src]`. -/
def Slice.assignments (dst src : Slice) : List (Nat × Nat) :=
  (List.range src.size).map fun j => (dst.index j, src.index j)

def copyCells (arr : List Bool) : List (Nat × Nat) → List Bool → Option (List Bool)
  | [], newArr => some newArr
  | (i, j) :: rest, newArr =>
    match arr[j]? with
    | none => none
    | some value => if i < newArr.length then copyCells arr rest (newArr.set i value) else none

@[ext] structure MatrixArea where
  arr : List Bool
  center : UInt32 × UInt32
  rows : UInt32
  cols : UInt32
  size : arr.length = rows.toNat * cols.toNat
  bounded : rows.toNat * cols.toNat < 2 ^ 32

theorem copyCells_length {arr newArr result : List Bool} {cells : List (Nat × Nat)}
    (h : copyCells arr cells newArr = some result) : result.length = newArr.length := by
  induction cells generalizing newArr with
  | nil => rw [Option.some.inj h]
  | cons cell cells ih =>
    obtain ⟨i, j⟩ := cell
    simp only [copyCells] at h
    split at h
    · cases h
    · split_ifs at h
      rw [ih h, List.length_set]

namespace MatrixArea

variable (m : MatrixArea)

/-- `area(row, col)`. -/
def cell (row col : Nat) : Bool := m.arr.getD (row * m.cols.toNat + col) false

/-- A matrix of the same size with other cells. -/
def ofCells (center : UInt32 × UInt32) (rows cols : UInt32) (cells : List (Nat × Nat))
    (hsize : rows.toNat * cols.toNat = m.rows.toNat * m.cols.toNat) : Option MatrixArea :=
  match h : copyCells m.arr cells (List.replicate m.arr.length false) with
  | none => none
  | some newArr =>
    some
      { arr := newArr
        center := center
        rows := rows
        cols := cols
        size := by rw [copyCells_length h, List.length_replicate, m.size, hsize]
        bounded := hsize ▸ m.bounded }

def flip : Option MatrixArea :=
  let rows := m.rows.toNat
  let cols := m.cols.toNat
  m.ofCells (m.cols - m.center.1 - 1, m.center.2) m.rows m.cols
    ((List.range rows).flatMap fun i =>
      Slice.assignments ⟨i * cols, cols, 1⟩ ⟨(rows - i - 1) * cols, cols, 1⟩) rfl

def mirror : Option MatrixArea :=
  let rows := m.rows.toNat
  let cols := m.cols.toNat
  m.ofCells (m.center.1, m.rows - m.center.2 - 1) m.rows m.cols
    ((List.range cols).flatMap fun i =>
      Slice.assignments ⟨i, cols, rows⟩ ⟨cols - i - 1, cols, rows⟩) rfl

/-- `arr[std::gslice(0, {cols, rows}, {1, cols})]`, element after element. The dimensions of the
result are those of the matrix. -/
def transpose : Option MatrixArea :=
  let rows := m.rows.toNat
  let cols := m.cols.toNat
  m.ofCells (m.center.2, m.center.1) m.rows m.cols
    ((List.range cols).flatMap fun i =>
      Slice.assignments ⟨i * rows, rows, 1⟩ ⟨i, rows, cols⟩) rfl

def rotate90 : Option MatrixArea :=
  let rows := m.rows.toNat
  let cols := m.cols.toNat
  m.ofCells (m.rows - m.center.2 - 1, m.center.1) m.cols m.rows
    ((List.range rows).flatMap fun i =>
      Slice.assignments ⟨i, cols, rows⟩ ⟨(rows - i - 1) * cols, cols, 1⟩) (Nat.mul_comm _ _)

def rotate180 : MatrixArea where
  arr := m.arr.reverse
  center := (m.cols - m.center.1 - 1, m.rows - m.center.2 - 1)
  rows := m.rows
  cols := m.cols
  size := by rw [List.length_reverse, m.size]
  bounded := m.bounded

def rotate270 : Option MatrixArea :=
  let rows := m.rows.toNat
  let cols := m.cols.toNat
  m.ofCells (m.center.2, m.cols - m.center.1 - 1) m.cols m.rows
    ((List.range cols).flatMap fun i =>
      Slice.assignments ⟨i * rows, rows, 1⟩ ⟨cols - i - 1, rows, cols⟩) (Nat.mul_comm _ _)

/-! ## Copied cells -/

theorem mem_assignments {dst src : Slice} {p : Nat × Nat} :
    p ∈ Slice.assignments dst src ↔ ∃ j < src.size, p = (dst.index j, src.index j) := by
  simp only [Slice.assignments, List.mem_map, List.mem_range, eq_comm]

end MatrixArea

section CopyCells

variable {arr newArr result : List Bool} {cells : List (Nat × Nat)}

theorem copyCells_isSome (h : ∀ p ∈ cells, p.1 < newArr.length ∧ p.2 < arr.length) :
    ∃ result, copyCells arr cells newArr = some result := by
  induction cells generalizing newArr with
  | nil => exact ⟨newArr, rfl⟩
  | cons p cells ih =>
    obtain ⟨hi, hj⟩ := h p List.mem_cons_self
    simp only [copyCells, List.getElem?_eq_getElem hj, if_pos hi]
    exact ih fun q hq => by
      rw [List.length_set]
      exact h q (List.mem_cons_of_mem p hq)

theorem copyCells_untouched (h : copyCells arr cells newArr = some result) {k : Nat}
    (hk : ∀ p ∈ cells, p.1 ≠ k) : result[k]? = newArr[k]? := by
  induction cells generalizing newArr with
  | nil => rw [Option.some.inj h]
  | cons p cells ih =>
    simp only [copyCells] at h
    split at h
    · cases h
    · split_ifs at h
      rw [ih h fun q hq => hk q (List.mem_cons_of_mem p hq),
        List.getElem?_set_ne (hk p List.mem_cons_self)]

/-- Where all assignments to an index agree, their order does not matter. -/
theorem copyCells_touched (h : copyCells arr cells newArr = some result)
    (hagree : ∀ p ∈ cells, ∀ q ∈ cells, p.1 = q.1 → p.2 = q.2) {p : Nat × Nat} (hp : p ∈ cells) :
    result[p.1]? = arr[p.2]? := by
  induction cells generalizing newArr p with
  | nil => cases hp
  | cons q cells ih =>
    have hrest : ∀ p ∈ cells, ∀ q ∈ cells, p.1 = q.1 → p.2 = q.2 := fun p hp q hq =>
      hagree p (List.mem_cons_of_mem _ hp) q (List.mem_cons_of_mem _ hq)
    simp only [copyCells] at h
    split at h
    · cases h
    rename_i value hvalue
    split_ifs at h with hlt
    by_cases hlater : ∃ p' ∈ cells, p'.1 = p.1
    · obtain ⟨p', hp', hindex⟩ := hlater
      rw [← hindex, ih h hrest hp',
        hagree p' (List.mem_cons_of_mem q hp') p hp hindex]
    · have hpq : p = q := (List.mem_cons.mp hp).resolve_right fun hin => hlater ⟨p, hin, rfl⟩
      rw [copyCells_untouched h fun p' hp' heq => hlater ⟨p', hp', heq⟩, hpq,
        List.getElem?_set_self hlt, hvalue]

end CopyCells

namespace MatrixArea

variable {m m₁ m₂ m₃ : MatrixArea} {center : UInt32 × UInt32} {rows cols : UInt32}

theorem index_inj {n i i' j j' : Nat} (hi : i < n) (hi' : i' < n)
    (h : i + j * n = i' + j' * n) : i = i' ∧ j = j' := by
  have hmod := congrArg (· % n) h
  simp only [Nat.add_mul_mod_self_right, Nat.mod_eq_of_lt hi, Nat.mod_eq_of_lt hi'] at hmod
  subst hmod
  exact ⟨rfl, Nat.eq_of_mul_eq_mul_right (Nat.zero_lt_of_lt hi) (by omega)⟩

theorem index_lt {n k i j : Nat} (hi : i < n) (hj : j < k) : i + j * n < k * n := by
  calc i + j * n < n + j * n := by omega
    _ = (j + 1) * n := by rw [Nat.succ_mul, Nat.add_comm]
    _ ≤ k * n := Nat.mul_le_mul_right n hj

theorem row_inj {n i i' j j' : Nat} (hj : j < n) (hj' : j' < n)
    (h : (Slice.mk (i * n) n 1).index j = (Slice.mk (i' * n) n 1).index j') :
    i = i' ∧ j = j' := by
  simp only [Slice.index, Nat.mul_one] at h
  exact (index_inj hj hj' (by omega)).symm

theorem mirrored_back {n a : Nat} (h : a < n) : n - (n - a - 1) - 1 = a := by omega

/-- A loop over slices that writes no index twice and stays inside the arrays has a result, and
its cells are the copied ones. -/
theorem ofCells_spec {n k : Nat} {dst src : Nat → Slice}
    (hsize : rows.toNat * cols.toNat = m.rows.toNat * m.cols.toNat) (hk : ∀ i, (src i).size = k)
    (hin : ∀ i < n, ∀ j < k, (dst i).index j < m.rows.toNat * m.cols.toNat ∧
      (src i).index j < m.rows.toNat * m.cols.toNat)
    (hinj : ∀ i < n, ∀ j < k, ∀ i' < n, ∀ j' < k, (dst i).index j = (dst i').index j' →
      i = i' ∧ j = j') :
    ∃ m', m.ofCells center rows cols ((List.range n).flatMap fun i =>
        Slice.assignments (dst i) (src i)) hsize = some m' ∧ m'.center = center ∧
      m'.rows = rows ∧ m'.cols = cols ∧ ∀ i < n, ∀ j < k,
        m'.arr.getD ((dst i).index j) false = m.arr.getD ((src i).index j) false := by
  have hmem : ∀ p, p ∈ ((List.range n).flatMap fun i => Slice.assignments (dst i) (src i)) ↔
      ∃ i < n, ∃ j < k, p = ((dst i).index j, (src i).index j) := by
    intro p
    simp only [List.mem_flatMap, List.mem_range, mem_assignments, hk]
  generalize ((List.range n).flatMap fun i => Slice.assignments (dst i) (src i)) = cells at hmem ⊢
  have hagree : ∀ p ∈ cells, ∀ q ∈ cells, p.1 = q.1 → p.2 = q.2 := by
    intro p hp q hq heq
    obtain ⟨i, hi, j, hj, rfl⟩ := (hmem p).mp hp
    obtain ⟨i', hi', j', hj', rfl⟩ := (hmem q).mp hq
    obtain ⟨rfl, rfl⟩ := hinj i hi j hj i' hi' j' hj' heq
    rfl
  obtain ⟨newArr, hcopy⟩ := @copyCells_isSome m.arr (List.replicate m.arr.length false) cells
    (fun p hp => by
      obtain ⟨i, hi, j, hj, rfl⟩ := (hmem p).mp hp
      simpa only [List.length_replicate, m.size] using hin i hi j hj)
  unfold ofCells
  split
  · rename_i hnone
    rw [hcopy] at hnone
    cases hnone
  · rename_i newArr' hsome
    obtain rfl := Option.some.inj (hcopy.symm.trans hsome)
    refine ⟨_, rfl, rfl, rfl, rfl, fun i hi j hj => ?_⟩
    have hcell := copyCells_touched hcopy hagree ((hmem _).mpr ⟨i, hi, j, hj, rfl⟩)
    simp only [List.getD_eq_getElem?_getD, hcell]

/-! ## Motions of the grid -/

/-- A row and a column. -/
abbrev Cell := UInt32 × UInt32

def Inside (m : MatrixArea) (p : Cell) : Prop := p.1 < m.rows ∧ p.2 < m.cols

def cellAt (m : MatrixArea) (p : Cell) : Bool := m.cell p.1.toNat p.2.toNat

/-- The centre is kept as (x, y). -/
def centerCell (m : MatrixArea) : Cell := (m.center.2, m.center.1)

def turn90 (m : MatrixArea) (p : Cell) : Cell := (p.2, m.rows - p.1 - 1)
def turn180 (m : MatrixArea) (p : Cell) : Cell := (m.rows - p.1 - 1, m.cols - p.2 - 1)
def turn270 (m : MatrixArea) (p : Cell) : Cell := (m.cols - p.2 - 1, p.1)

def upsideDown (m : MatrixArea) (p : Cell) : Cell := (m.rows - p.1 - 1, p.2)
def leftRight (m : MatrixArea) (p : Cell) : Cell := (p.1, m.cols - p.2 - 1)
def acrossDiagonal (p : Cell) : Cell := (p.2, p.1)

/-- Every cell and the centre move in the same way into a grid of these dimensions. -/
structure MovedBy (m m' : MatrixArea) (rows cols : UInt32) (move : Cell → Cell) : Prop where
  rows : m'.rows = rows
  cols : m'.cols = cols
  cell : ∀ p, m.Inside p → m'.cellAt (move p) = m.cellAt p
  center : m'.centerCell = move m.centerCell

theorem toNat_mirrored {n a : UInt32} (h : a < n) : (n - a - 1).toNat = n.toNat - a.toNat - 1 := by
  have hlt : a.toNat < n.toNat := UInt32.lt_iff_toNat_lt.mp h
  have hn := n.toNat_lt
  rw [UInt32.toNat_sub_of_le, UInt32.toNat_sub_of_le _ _ (UInt32.le_iff_toNat_le.mpr hlt.le)]
  · rfl
  · rw [UInt32.le_iff_toNat_le, UInt32.toNat_sub_of_le _ _ (UInt32.le_iff_toNat_le.mpr hlt.le)]
    change 1 ≤ _
    omega

theorem mirrored_lt {n a : UInt32} (h : a < n) : n - a - 1 < n := by
  have hlt : a.toNat < n.toNat := UInt32.lt_iff_toNat_lt.mp h
  rw [UInt32.lt_iff_toNat_lt, toNat_mirrored h]
  omega

@[simp] theorem mirrored_mirrored (n a : UInt32) : n - (n - a - 1) - 1 = a := by grind

theorem rotate90_moved (m : MatrixArea) :
    ∃ m', m.rotate90 = some m' ∧ MovedBy m m' m.cols m.rows m.turn90 := by
  obtain ⟨m', hm', hcenter, hrows, hcols, hcell⟩ :=
    @ofCells_spec m (m.rows - m.center.2 - 1, m.center.1) m.cols m.rows m.rows.toNat m.cols.toNat
      (fun i => ⟨i, m.cols.toNat, m.rows.toNat⟩)
      (fun i => ⟨(m.rows.toNat - i - 1) * m.cols.toNat, m.cols.toNat, 1⟩)
      (Nat.mul_comm _ _) (fun _ => rfl)
      (fun i hi j hj => by
        refine ⟨?_, ?_⟩
        · rw [Nat.mul_comm]
          exact index_lt hi hj
        · simp only [Slice.index, Nat.mul_one]
          rw [Nat.add_comm]
          exact index_lt hj (by omega))
      (fun i hi j hj i' hi' j' hj' h => index_inj hi hi' h)
  refine ⟨m', hm', hrows, hcols, fun p hp => ?_, by rw [centerCell, hcenter]; rfl⟩
  obtain ⟨hrow, hcol⟩ := hp
  have hr := UInt32.lt_iff_toNat_lt.mp hrow
  have h := hcell (m.rows.toNat - p.1.toNat - 1) (by omega) p.2.toNat
    (UInt32.lt_iff_toNat_lt.mp hcol)
  simp only [Slice.index, Nat.mul_one] at h
  rw [mirrored_back hr] at h
  simp only [cellAt, cell, turn90, hcols, toNat_mirrored hrow]
  rw [Nat.add_comm]
  exact h

theorem rotate270_moved (m : MatrixArea) :
    ∃ m', m.rotate270 = some m' ∧ MovedBy m m' m.cols m.rows m.turn270 := by
  obtain ⟨m', hm', hcenter, hrows, hcols, hcell⟩ :=
    @ofCells_spec m (m.center.2, m.cols - m.center.1 - 1) m.cols m.rows m.cols.toNat m.rows.toNat
      (fun i => ⟨i * m.rows.toNat, m.rows.toNat, 1⟩)
      (fun i => ⟨m.cols.toNat - i - 1, m.rows.toNat, m.cols.toNat⟩)
      (Nat.mul_comm _ _) (fun _ => rfl)
      (fun i hi j hj => by
        simp only [Slice.index, Nat.mul_one]
        refine ⟨?_, index_lt (by omega) hj⟩
        rw [Nat.add_comm, Nat.mul_comm m.rows.toNat]
        exact index_lt hj hi)
      (fun i hi j hj i' hi' j' hj' h => row_inj hj hj' h)
  refine ⟨m', hm', hrows, hcols, fun p hp => ?_, by rw [centerCell, hcenter]; rfl⟩
  obtain ⟨hrow, hcol⟩ := hp
  have hc := UInt32.lt_iff_toNat_lt.mp hcol
  have h := hcell (m.cols.toNat - p.2.toNat - 1) (by omega) p.1.toNat
    (UInt32.lt_iff_toNat_lt.mp hrow)
  simp only [Slice.index, Nat.mul_one] at h
  rw [mirrored_back hc] at h
  simp only [cellAt, cell, turn270, hcols, toNat_mirrored hcol]
  rw [h, Nat.add_comm]

theorem rotate180_moved (m : MatrixArea) :
    MovedBy m m.rotate180 m.rows m.cols m.turn180 := by
  refine ⟨rfl, rfl, fun p hp => ?_, rfl⟩
  obtain ⟨hrow, hcol⟩ := hp
  have hr := UInt32.lt_iff_toNat_lt.mp hrow
  have hc := UInt32.lt_iff_toNat_lt.mp hcol
  have hlt := index_lt hc hr
  simp only [cellAt, cell, turn180, toNat_mirrored hrow, toNat_mirrored hcol, rotate180,
    List.getD_eq_getElem?_getD]
  have hsum : (m.rows.toNat - p.1.toNat - 1) * m.cols.toNat + p.1.toNat * m.cols.toNat +
      m.cols.toNat = m.rows.toNat * m.cols.toNat := by
    rw [← Nat.add_mul, ← Nat.succ_mul]
    congr 1
    omega
  rw [List.getElem?_reverse (by rw [m.size]; omega), m.size]
  congr 2
  omega

/-! ## Motions one after the other -/

variable {rows' cols' : UInt32} {move move' : Cell → Cell}

theorem MovedBy.refl (m : MatrixArea) : MovedBy m m m.rows m.cols id :=
  ⟨rfl, rfl, fun _ _ => rfl, rfl⟩

theorem MovedBy.trans (h : MovedBy m m₁ rows cols move) (h' : MovedBy m₁ m₂ rows' cols' move')
    (hin : ∀ p, m.Inside p → m₁.Inside (move p)) :
    MovedBy m m₂ rows' cols' (move' ∘ move) where
  rows := h'.rows
  cols := h'.cols
  cell p hp := (h'.cell (move p) (hin p hp)).trans (h.cell p hp)
  center := by rw [h'.center, h.center]; rfl

theorem ext_cell (hrows : m₂.rows = m₁.rows) (hcols : m₂.cols = m₁.cols)
    (hcenter : m₂.centerCell = m₁.centerCell)
    (hcell : ∀ p, m₁.Inside p → m₂.cellAt p = m₁.cellAt p) : m₂ = m₁ := by
  have hlength : m₂.arr.length = m₁.arr.length := by rw [m₁.size, m₂.size, hrows, hcols]
  have harr : m₂.arr = m₁.arr := by
    refine List.ext_getElem hlength fun k hk₂ hk₁ => ?_
    rw [m₁.size] at hk₁
    have hpos : 0 < m₁.cols.toNat := by
      refine Nat.pos_of_ne_zero fun hzero => ?_
      rw [hzero, Nat.mul_zero] at hk₁
      exact Nat.not_lt_zero k hk₁
    have hrow : k / m₁.cols.toNat < m₁.rows.toNat := Nat.div_lt_of_lt_mul (by rwa [Nat.mul_comm])
    have hcol : k % m₁.cols.toNat < m₁.cols.toNat := Nat.mod_lt k hpos
    have hrowNat : (UInt32.ofNat (k / m₁.cols.toNat)).toNat = k / m₁.cols.toNat :=
      UInt32.toNat_ofNat_of_lt' (hrow.trans m₁.rows.toNat_lt)
    have hcolNat : (UInt32.ofNat (k % m₁.cols.toNat)).toNat = k % m₁.cols.toNat :=
      UInt32.toNat_ofNat_of_lt' (hcol.trans m₁.cols.toNat_lt)
    have h := hcell (.ofNat (k / m₁.cols.toNat), .ofNat (k % m₁.cols.toNat))
      ⟨by rwa [UInt32.lt_iff_toNat_lt, hrowNat], by rwa [UInt32.lt_iff_toNat_lt, hcolNat]⟩
    simp only [cellAt, cell, hcols, hrowNat, hcolNat, Nat.div_add_mod'] at h
    rwa [List.getD_eq_getElem _ _ hk₂, List.getD_eq_getElem _ _ (by rwa [m₁.size])] at h
  have hpair := Prod.mk.inj hcenter
  exact MatrixArea.ext harr (Prod.ext hpair.2 hpair.1) hrows hcols

/-- Every cell of the new grid comes from one of the old. -/
def Onto (m : MatrixArea) (rows cols : UInt32) (move : Cell → Cell) : Prop :=
  ∀ q : Cell, q.1 < rows → q.2 < cols → ∃ p, m.Inside p ∧ move p = q

theorem MovedBy.unique (h₁ : MovedBy m m₁ rows cols move) (h₂ : MovedBy m m₂ rows cols move)
    (honto : m.Onto rows cols move) : m₂ = m₁ := by
  refine ext_cell (h₂.rows.trans h₁.rows.symm) (h₂.cols.trans h₁.cols.symm)
    (h₂.center.trans h₁.center.symm) fun q hq => ?_
  obtain ⟨p, hp, rfl⟩ := honto q (h₁.rows ▸ hq.1) (h₁.cols ▸ hq.2)
  rw [h₂.cell p hp, h₁.cell p hp]

theorem onto_id (m : MatrixArea) : m.Onto m.rows m.cols id := fun q hr hc => ⟨q, ⟨hr, hc⟩, rfl⟩

theorem onto_turn90 (m : MatrixArea) : m.Onto m.cols m.rows m.turn90 := fun q hr hc =>
  ⟨(m.rows - q.2 - 1, q.1), ⟨mirrored_lt hc, hr⟩, by simp [turn90]⟩

theorem onto_turn180 (m : MatrixArea) : m.Onto m.rows m.cols m.turn180 := fun q hr hc =>
  ⟨(m.rows - q.1 - 1, m.cols - q.2 - 1), ⟨mirrored_lt hr, mirrored_lt hc⟩, by simp [turn180]⟩

theorem onto_turn270 (m : MatrixArea) : m.Onto m.cols m.rows m.turn270 := fun q hr hc =>
  ⟨(q.2, m.cols - q.1 - 1), ⟨hc, mirrored_lt hr⟩, by simp [turn270]⟩

theorem MovedBy.inside_turn90 (h : MovedBy m m₁ m.cols m.rows m.turn90) {p : Cell}
    (hp : m.Inside p) : m₁.Inside (m.turn90 p) :=
  ⟨by rw [h.rows]; exact hp.2, by rw [h.cols]; exact mirrored_lt hp.1⟩

/-- Two quarter turns are a half turn. -/
theorem MovedBy.turn_twice (h : MovedBy m m₁ m.cols m.rows m.turn90)
    (h' : MovedBy m₁ m₂ m₁.cols m₁.rows m₁.turn90) : MovedBy m m₂ m.rows m.cols m.turn180 := by
  have hturn : m₁.turn90 ∘ m.turn90 = m.turn180 := by
    funext p
    simp only [Function.comp_apply, turn90, turn180, h.rows]
  have htwice := h.trans h' fun p hp => h.inside_turn90 hp
  rwa [hturn, h.rows, h.cols] at htwice

theorem MovedBy.inside_turn180 (h : MovedBy m m₁ m.rows m.cols m.turn180) {p : Cell}
    (hp : m.Inside p) : m₁.Inside (m.turn180 p) :=
  ⟨by rw [h.rows]; exact mirrored_lt hp.1, by rw [h.cols]; exact mirrored_lt hp.2⟩

theorem MovedBy.turn_thrice (h : MovedBy m m₁ m.rows m.cols m.turn180)
    (h' : MovedBy m₁ m₂ m₁.cols m₁.rows m₁.turn90) : MovedBy m m₂ m.cols m.rows m.turn270 := by
  have hturn : m₁.turn90 ∘ m.turn180 = m.turn270 := by
    funext p
    simp only [Function.comp_apply, turn90, turn180, turn270, h.rows, mirrored_mirrored]
  have hthrice := h.trans h' fun p hp => h.inside_turn180 hp
  rwa [hturn, h.rows, h.cols] at hthrice

theorem MovedBy.turn_back (h : MovedBy m m₁ m.rows m.cols m.turn180)
    (h' : MovedBy m₁ m₂ m₁.rows m₁.cols m₁.turn180) : MovedBy m m₂ m.rows m.cols id := by
  have hturn : m₁.turn180 ∘ m.turn180 = id := by
    funext p
    simp only [Function.comp_apply, turn180, h.rows, h.cols, mirrored_mirrored, id_eq]
  have hback := h.trans h' fun p hp => h.inside_turn180 hp
  rwa [hturn, h.rows, h.cols] at hback

theorem rotate90_twice (m : MatrixArea) : m.rotate90.bind rotate90 = some m.rotate180 := by
  obtain ⟨m₁, hm₁, h₁⟩ := rotate90_moved m
  obtain ⟨m₂, hm₂, h₂⟩ := rotate90_moved m₁
  rw [hm₁, Option.bind_some, hm₂,
    (rotate180_moved m).unique (h₁.turn_twice h₂) (onto_turn180 m)]

theorem rotate90_thrice (m : MatrixArea) :
    (m.rotate90.bind rotate90).bind rotate90 = m.rotate270 := by
  obtain ⟨m₁, hm₁, h₁⟩ := rotate90_moved m.rotate180
  obtain ⟨m₂, hm₂, h₂⟩ := rotate270_moved m
  rw [rotate90_twice, Option.bind_some, hm₁, hm₂,
    h₂.unique ((rotate180_moved m).turn_thrice h₁) (onto_turn270 m)]

theorem rotate180_twice (m : MatrixArea) : m.rotate180.rotate180 = m :=
  (MovedBy.refl m).unique ((rotate180_moved m).turn_back (rotate180_moved m.rotate180))
    (onto_id m)

theorem rotate90_four_times (m : MatrixArea) :
    ((m.rotate90.bind rotate90).bind rotate90).bind rotate90 = some m := by
  rw [rotate90_twice, Option.bind_some, rotate90_twice, rotate180_twice]

/-! ## Reflections

The centre of `flip` and that of `mirror` are computed with each other's formula, `mirror` copies
as many elements of a column as there are columns, and `transpose` keeps the dimensions. -/

/-- A square whose centre is its middle cell. -/
structure Centred (m : MatrixArea) : Prop where
  square : m.rows = m.cols
  middle_col : 2 * m.center.1 + 1 = m.cols
  middle_row : 2 * m.center.2 + 1 = m.rows

theorem mirrored_eq_iff (n a : UInt32) : n - a - 1 = a ↔ 2 * a + 1 = n := by grind

theorem flip_cells (m : MatrixArea) :
    ∃ m', m.flip = some m' ∧ m'.rows = m.rows ∧ m'.cols = m.cols ∧
      m'.center = (m.cols - m.center.1 - 1, m.center.2) ∧
      ∀ p, m.Inside p → m'.cellAt (m.upsideDown p) = m.cellAt p := by
  obtain ⟨m', hm', hcenter, hrows, hcols, hcell⟩ :=
    @ofCells_spec m (m.cols - m.center.1 - 1, m.center.2) m.rows m.cols m.rows.toNat m.cols.toNat
      (fun i => ⟨i * m.cols.toNat, m.cols.toNat, 1⟩)
      (fun i => ⟨(m.rows.toNat - i - 1) * m.cols.toNat, m.cols.toNat, 1⟩) rfl (fun _ => rfl)
      (fun i hi j hj => by
        simp only [Slice.index, Nat.mul_one, Nat.add_comm _ j]
        exact ⟨index_lt hj hi, index_lt hj (by omega)⟩)
      (fun i hi j hj i' hi' j' hj' h => row_inj hj hj' h)
  refine ⟨m', hm', hrows, hcols, hcenter, fun p hp => ?_⟩
  obtain ⟨hrow, hcol⟩ := hp
  have hr := UInt32.lt_iff_toNat_lt.mp hrow
  have h := hcell (m.rows.toNat - p.1.toNat - 1) (by omega) p.2.toNat
    (UInt32.lt_iff_toNat_lt.mp hcol)
  simp only [Slice.index, Nat.mul_one] at h
  rw [mirrored_back hr] at h
  simp only [cellAt, cell, upsideDown, hcols, toNat_mirrored hrow]
  exact h

theorem mirror_cells (m : MatrixArea) (hsquare : m.rows = m.cols) :
    ∃ m', m.mirror = some m' ∧ m'.rows = m.rows ∧ m'.cols = m.cols ∧
      m'.center = (m.center.1, m.rows - m.center.2 - 1) ∧
      ∀ p, m.Inside p → m'.cellAt (m.leftRight p) = m.cellAt p := by
  obtain ⟨m', hm', hcenter, hrows, hcols, hcell⟩ :=
    @ofCells_spec m (m.center.1, m.rows - m.center.2 - 1) m.rows m.cols m.cols.toNat m.cols.toNat
      (fun i => ⟨i, m.cols.toNat, m.rows.toNat⟩)
      (fun i => ⟨m.cols.toNat - i - 1, m.cols.toNat, m.rows.toNat⟩) rfl (fun _ => rfl)
      (fun i hi j hj => by
        simp only [Slice.index, hsquare]
        exact ⟨index_lt hi hj, index_lt (by omega) hj⟩)
      (fun i hi j hj i' hi' j' hj' h => by
        simp only [Slice.index, hsquare] at h
        exact index_inj hi hi' h)
  refine ⟨m', hm', hrows, hcols, hcenter, fun p hp => ?_⟩
  obtain ⟨hrow, hcol⟩ := hp
  have hc := UInt32.lt_iff_toNat_lt.mp hcol
  have h := hcell (m.cols.toNat - p.2.toNat - 1) (by omega) p.1.toNat
    (UInt32.lt_iff_toNat_lt.mp (hsquare ▸ hrow))
  simp only [Slice.index, hsquare] at h
  rw [mirrored_back hc] at h
  simp only [cellAt, cell, leftRight, hcols, toNat_mirrored hcol, Nat.add_comm (p.1.toNat * _)]
  exact h

theorem transpose_cells (m : MatrixArea) (hsquare : m.rows = m.cols) :
    ∃ m', m.transpose = some m' ∧ m'.rows = m.rows ∧ m'.cols = m.cols ∧
      m'.center = (m.center.2, m.center.1) ∧
      ∀ p, m.Inside p → m'.cellAt (acrossDiagonal p) = m.cellAt p := by
  obtain ⟨m', hm', hcenter, hrows, hcols, hcell⟩ :=
    @ofCells_spec m (m.center.2, m.center.1) m.rows m.cols m.cols.toNat m.rows.toNat
      (fun i => ⟨i * m.rows.toNat, m.rows.toNat, 1⟩)
      (fun i => ⟨i, m.rows.toNat, m.cols.toNat⟩) rfl (fun _ => rfl)
      (fun i hi j hj => by
        simp only [Slice.index, Nat.mul_one]
        refine ⟨?_, index_lt hi hj⟩
        rw [Nat.add_comm, Nat.mul_comm m.rows.toNat]
        exact index_lt hj hi)
      (fun i hi j hj i' hi' j' hj' h => row_inj hj hj' h)
  refine ⟨m', hm', hrows, hcols, hcenter, fun p hp => ?_⟩
  obtain ⟨hrow, hcol⟩ := hp
  have h := hcell p.2.toNat (UInt32.lt_iff_toNat_lt.mp hcol) p.1.toNat
    (UInt32.lt_iff_toNat_lt.mp hrow)
  simp only [Slice.index, Nat.mul_one, Nat.add_comm p.2.toNat] at h
  simp only [cellAt, cell, acrossDiagonal, hcols, ← h, hsquare]

theorem flip_moved_iff (m : MatrixArea) :
    (∃ m', m.flip = some m' ∧ MovedBy m m' m.rows m.cols m.upsideDown) ↔
      2 * m.center.1 + 1 = m.cols ∧ 2 * m.center.2 + 1 = m.rows := by
  obtain ⟨m', hm', hrows, hcols, hcenter, hcell⟩ := flip_cells m
  have hcenters : m'.centerCell = m.upsideDown m.centerCell ↔
      2 * m.center.1 + 1 = m.cols ∧ 2 * m.center.2 + 1 = m.rows := by
    rw [centerCell, hcenter, upsideDown, centerCell, Prod.mk.injEq, and_comm, mirrored_eq_iff,
      @eq_comm _ m.center.2, mirrored_eq_iff]
  rw [← hcenters]
  constructor
  · rintro ⟨m'', hm'', h⟩
    obtain rfl := Option.some.inj (hm'.symm.trans hm'')
    exact h.center
  · exact fun h => ⟨m', hm', hrows, hcols, hcell, h⟩

theorem Centred.mirror_moved (h : m.Centred) :
    ∃ m', m.mirror = some m' ∧ MovedBy m m' m.rows m.cols m.leftRight := by
  obtain ⟨m', hm', hrows, hcols, hcenter, hcell⟩ := mirror_cells m h.square
  refine ⟨m', hm', hrows, hcols, hcell, ?_⟩
  rw [centerCell, hcenter, leftRight, centerCell, (mirrored_eq_iff _ _).mpr h.middle_col,
    (mirrored_eq_iff _ _).mpr h.middle_row]

/-- A transposed matrix has its dimensions swapped only when they are equal. -/
theorem transpose_moved_iff (m : MatrixArea) :
    (∃ m', m.transpose = some m' ∧ MovedBy m m' m.cols m.rows acrossDiagonal) ↔
      m.rows = m.cols := by
  constructor
  · rintro ⟨m', hm', h⟩
    have hrows : m'.rows = m.rows := by
      simp only [transpose, ofCells] at hm'
      split at hm'
      · cases hm'
      · rw [← Option.some.inj hm']
    exact hrows.symm.trans h.rows
  · intro hsquare
    obtain ⟨m', hm', hrows, hcols, hcenter, hcell⟩ := transpose_cells m hsquare
    refine ⟨m', hm', hrows.trans hsquare, hcols.trans hsquare.symm, hcell, ?_⟩
    rw [centerCell, hcenter, acrossDiagonal, centerCell]

theorem MovedBy.centred (hmove : MovedBy m m₁ m.rows m.cols move) (h : m.Centred)
    (hcenter : move m.centerCell = m.centerCell) : m₁.Centred := by
  have hpair := Prod.mk.inj (hmove.center.trans hcenter)
  refine ⟨?_, ?_, ?_⟩
  · rw [hmove.rows, hmove.cols, h.square]
  · rw [hpair.2, hmove.cols, h.middle_col]
  · rw [hpair.1, hmove.rows, h.middle_row]

/-- A motion that undoes itself undoes itself on matrices. -/
theorem MovedBy.back (reflect : MatrixArea → Cell → Cell)
    (h : MovedBy m m₁ m.rows m.cols (reflect m))
    (h' : MovedBy m₁ m₂ m₁.rows m₁.cols (reflect m₁))
    (hin : ∀ p, m.Inside p → m₁.Inside (reflect m p))
    (hback : ∀ p, reflect m₁ (reflect m p) = p) : m₂ = m := by
  have htwice := h.trans h' hin
  rw [show reflect m₁ ∘ reflect m = id from funext hback, h.rows, h.cols] at htwice
  exact (MovedBy.refl m).unique htwice (onto_id m)

theorem Centred.flip_twice (h : m.Centred) : m.flip.bind flip = some m := by
  obtain ⟨m₁, hm₁, h₁⟩ := (flip_moved_iff m).mpr ⟨h.middle_col, h.middle_row⟩
  have hcentred : m₁.Centred := h₁.centred h <| by
    rw [upsideDown, centerCell, (mirrored_eq_iff _ _).mpr h.middle_row]
  obtain ⟨m₂, hm₂, h₂⟩ := (flip_moved_iff m₁).mpr ⟨hcentred.middle_col, hcentred.middle_row⟩
  rw [hm₁, Option.bind_some, hm₂, h₁.back upsideDown h₂]
  · exact fun p hp => ⟨by rw [h₁.rows]; exact mirrored_lt hp.1, by rw [h₁.cols]; exact hp.2⟩
  · intro p
    simp only [upsideDown, h₁.rows, mirrored_mirrored]

theorem Centred.mirror_twice (h : m.Centred) : m.mirror.bind mirror = some m := by
  obtain ⟨m₁, hm₁, h₁⟩ := h.mirror_moved
  have hcentred : m₁.Centred := h₁.centred h <| by
    rw [leftRight, centerCell, (mirrored_eq_iff _ _).mpr h.middle_col]
  obtain ⟨m₂, hm₂, h₂⟩ := hcentred.mirror_moved
  rw [hm₁, Option.bind_some, hm₂, h₁.back leftRight h₂]
  · exact fun p hp => ⟨by rw [h₁.rows]; exact hp.1, by rw [h₁.cols]; exact mirrored_lt hp.2⟩
  · intro p
    simp only [leftRight, h₁.cols, mirrored_mirrored]

theorem transpose_twice (hsquare : m.rows = m.cols) : m.transpose.bind transpose = some m := by
  obtain ⟨m₁, hm₁, h₁⟩ := (transpose_moved_iff m).mpr hsquare
  have hsquare₁ : m₁.rows = m₁.cols := by rw [h₁.rows, h₁.cols, hsquare]
  obtain ⟨m₂, hm₂, h₂⟩ := (transpose_moved_iff m₁).mpr hsquare₁
  have h : MovedBy m m₁ m.rows m.cols acrossDiagonal :=
    ⟨h₁.rows.trans hsquare.symm, h₁.cols.trans hsquare, h₁.cell, h₁.center⟩
  have h' : MovedBy m₁ m₂ m₁.rows m₁.cols acrossDiagonal :=
    ⟨h₂.rows.trans hsquare₁.symm, h₂.cols.trans hsquare₁, h₂.cell, h₂.center⟩
  rw [hm₁, Option.bind_some, hm₂, MovedBy.back (fun _ => acrossDiagonal) h h']
  · intro p hp
    exact ⟨by rw [h.rows, hsquare]; exact hp.2, by rw [h.cols, ← hsquare]; exact hp.1⟩
  · exact fun _ => rfl

end MatrixArea

end Eloth
