import Eloth.MapCache

/-!
# Keeping the distance

`Monster::getDistanceStep` chooses the step of a monster that stays away from its target, by where
the target stands. Four cases are for targets on a diagonal and four for the others.
-/

namespace Eloth

open MapPosition

/-- What the function asks of the monster and of the map around it. -/
structure DistanceKeeper where
  position : MapPosition
  targetDistance : Int32
  stepDuration : Int32
  isInSpawnRange : MapPosition → Bool
  getWalkCache : MapPosition → Int
  /-- There is a tile without a visible creature that lets the monster in. -/
  hasFreeTile : MapPosition → Bool
  isSightClear : MapPosition → MapPosition → Bool

/-- The results of the random functions. -/
structure StepRandom where
  boolean_random : Bool
  dirList : List Direction
  shuffled : dirList.Perm [.north, .west, .east, .south]

/-! ## The cases -/

/-- The directions of a case with the target on a diagonal, in the order of preference. -/
structure DiagonalCase where
  first : Direction
  second : Direction
  diagonal : Direction
  fleeFirst : Direction
  fleeSecond : Direction
  lastFirst : Direction
  cornerFirst : Direction
  lastSecond : Direction
  cornerSecond : Direction

def playerNW : DiagonalCase where
  first := .south
  second := .east
  diagonal := .southeast
  fleeFirst := .north
  fleeSecond := .west
  lastFirst := .west
  cornerFirst := .southwest
  lastSecond := .north
  cornerSecond := .northeast

def playerSE : DiagonalCase where
  first := .west
  second := .north
  diagonal := .northwest
  fleeFirst := .south
  fleeSecond := .east
  lastFirst := .south
  cornerFirst := .southwest
  lastSecond := .east
  cornerSecond := .northeast

def playerSW : DiagonalCase where
  first := .north
  second := .east
  diagonal := .northeast
  fleeFirst := .south
  fleeSecond := .west
  lastFirst := .west
  cornerFirst := .northwest
  lastSecond := .south
  cornerSecond := .southeast

def playerNE : DiagonalCase where
  first := .west
  second := .south
  diagonal := .southwest
  fleeFirst := .north
  fleeSecond := .east
  lastFirst := .east
  cornerFirst := .southeast
  lastSecond := .north
  cornerSecond := .northwest

/-- The directions of a case with the target on one side. -/
structure StraightCase where
  away : Direction
  left : Direction
  right : Direction
  cornerFirst : Direction
  sideFirst : Direction
  cornerSecond : Direction
  sideSecond : Direction
  toward : Direction

def playerNorth : StraightCase where
  away := .south
  left := .west
  right := .east
  cornerFirst := .southwest
  sideFirst := .west
  cornerSecond := .southeast
  sideSecond := .east
  toward := .north

def playerSouth : StraightCase where
  away := .north
  left := .west
  right := .east
  cornerFirst := .northwest
  sideFirst := .west
  cornerSecond := .northeast
  sideSecond := .east
  toward := .south

def playerWest : StraightCase where
  away := .east
  left := .north
  right := .south
  cornerFirst := .southeast
  sideFirst := .south
  cornerSecond := .northeast
  sideSecond := .north
  toward := .west

def playerEast : StraightCase where
  away := .west
  left := .north
  right := .south
  cornerFirst := .northwest
  sideFirst := .north
  cornerSecond := .southwest
  sideSecond := .south
  toward := .east

/-- One of two directions that may be open; by chance when both are. -/
def oneOf (canWalk : Direction → Bool) (random : Bool) (first second : Direction) :
    Option Direction :=
  if canWalk first && canWalk second then some (if random then first else second)
  else if canWalk first then some first
  else if canWalk second then some second
  else none

variable (canWalk : Direction → Bool) (random flee : Bool)

def DiagonalCase.step (self : DiagonalCase) : Option Direction :=
  (oneOf canWalk random self.first self.second).or
    (if canWalk self.diagonal then some self.diagonal
    else
      (if flee then oneOf canWalk random self.fleeFirst self.fleeSecond else none).or
        (if canWalk self.lastFirst && canWalk self.cornerFirst then some self.lastFirst
        else if canWalk self.lastSecond && canWalk self.cornerSecond then some self.lastSecond
        else none))

def StraightCase.step (self : StraightCase) (offset : Int) : Option Direction :=
  if canWalk self.away then some self.away
  else if canWalk self.left && canWalk self.right && offset = 0 then
    some (if random then self.left else self.right)
  else if canWalk self.left && offset ≤ 0 then some self.left
  else if canWalk self.right && offset ≥ 0 then some self.right
  else
    (if flee then oneOf canWalk random self.left self.right else none).or
      (if canWalk self.cornerFirst || canWalk self.cornerSecond then
        if canWalk self.cornerFirst && canWalk self.cornerSecond then
          some (if random then self.cornerFirst else self.cornerSecond)
        else if canWalk self.sideFirst then some self.sideFirst
        else if canWalk self.cornerFirst then some self.cornerFirst
        else if canWalk self.sideSecond then some self.sideSecond
        else if canWalk self.cornerSecond then some self.cornerSecond
        else none
      else if flee && canWalk self.toward then some self.toward
      else none)

namespace DistanceKeeper

variable (self : DistanceKeeper)

def canWalkTo (pos : MapPosition) (direction : Direction) : Bool :=
  let pos := getNextPosition direction pos
  if self.isInSpawnRange pos then
    if self.getWalkCache pos = 0 then false else self.hasFreeTile pos
  else false

/-- The first direction of the shuffled list that can be walked. -/
def getRandomStep (random : StepRandom) (creaturePos : MapPosition) : Option Direction :=
  random.dirList.find? fun dir => self.canWalkTo creaturePos dir

/-- The choice by the position of the target, from `offsetx` and `offsety` not both zero. -/
def escape (random : StepRandom) (dx dy offsetx offsety : Int) (flee : Bool) :
    Option Direction :=
  let canWalk := self.canWalkTo self.position
  let coin := random.boolean_random
  if dx = dy ∧ offsetx ≥ 1 ∧ offsety ≥ 1 then playerNW.step canWalk coin flee
  else if dx = dy ∧ offsetx ≤ -1 ∧ offsety ≤ -1 then playerSE.step canWalk coin flee
  else if dx = dy ∧ offsetx ≥ 1 ∧ offsety ≤ -1 then playerSW.step canWalk coin flee
  else if dx = dy ∧ offsetx ≤ -1 ∧ offsety ≥ 1 then playerNE.step canWalk coin flee
  else if dy > dx then
    if offsety < 0 then playerSouth.step canWalk coin flee offsetx
    else playerNorth.step canWalk coin flee offsetx
  else
    if offsetx < 0 then playerEast.step canWalk coin flee offsety
    else playerWest.step canWalk coin flee offsety

/-- Near the target the steps get slower. -/
def slowStep (dx dy : Int) : Int32 :=
  if dx ≤ 1 ∧ dy ≤ 1 then
    if self.stepDuration < 2 then self.stepDuration + 1 else self.stepDuration
  else if self.stepDuration > 0 then self.stepDuration - 1
  else self.stepDuration

/-- The new `stepDuration`, and nothing or the direction that is set, if one is. -/
def getDistanceStep (random : StepRandom) (targetPos : MapPosition) (flee : Bool) :
    Int32 × Option (Option Direction) :=
  let creaturePos := self.position
  let dx := getDistanceX creaturePos targetPos
  let dy := getDistanceY creaturePos targetPos
  let distance := max dx dy
  if !flee && (distance > self.targetDistance.toInt ||
      !self.isSightClear creaturePos targetPos) then (self.stepDuration, none)
  else if !flee && distance = self.targetDistance.toInt then (self.stepDuration, some none)
  else
    let offsetx := getOffsetX creaturePos targetPos
    let offsety := getOffsetY creaturePos targetPos
    let stepDuration := self.slowStep dx dy
    if offsetx = 0 ∧ offsety = 0 then
      (stepDuration, (self.getRandomStep random creaturePos).map some)
    else (stepDuration, some (self.escape random dx dy offsetx offsety flee))

end DistanceKeeper

/-! ## What the cases choose -/

section Choices

variable {α : Type} {P : α → Prop} {a b : Option α} {x : α} {c : Prop} [Decidable c]

theorem forall_mem_some (h : P x) : ∀ y ∈ some x, P y := by
  rintro y ⟨⟩
  exact h

theorem forall_mem_none : ∀ y ∈ (none : Option α), P y := fun _ hy => nomatch hy

theorem forall_mem_ite (ha : c → ∀ y ∈ a, P y) (hb : ¬ c → ∀ y ∈ b, P y) :
    ∀ y ∈ if c then a else b, P y := by
  split_ifs with h
  · exact ha h
  · exact hb h

theorem forall_mem_or (ha : ∀ y ∈ a, P y) (hb : ∀ y ∈ b, P y) : ∀ y ∈ a.or b, P y := by
  cases a with
  | none => exact hb
  | some x => exact ha

end Choices

variable {canWalk : Direction → Bool} {random flee : Bool} {P : Direction → Prop}

theorem forall_oneOf {first second : Direction} (hfirst : canWalk first = true → P first)
    (hsecond : canWalk second = true → P second) :
    ∀ d ∈ oneOf canWalk random first second, P d := by
  refine forall_mem_ite (fun hboth => ?_) fun _ => forall_mem_ite
    (fun h => forall_mem_some (hfirst h)) fun _ => forall_mem_ite
    (fun h => forall_mem_some (hsecond h)) fun _ => forall_mem_none
  rw [Bool.and_eq_true] at hboth
  cases random with
  | true => exact forall_mem_some (hfirst hboth.1)
  | false => exact forall_mem_some (hsecond hboth.2)

/-- A step that can be walked, among the directions for a monster that does not flee. -/
def Fits (canWalk : Direction → Bool) (flee : Bool) (staying : List Direction) (d : Direction) :
    Prop :=
  canWalk d = true ∧ (flee = false → d ∈ staying)

theorem fits_of_mem {staying : List Direction} {d : Direction} (hmem : d ∈ staying)
    (hwalk : canWalk d = true) : Fits canWalk flee staying d := ⟨hwalk, fun _ => hmem⟩

theorem fits_of_flee {staying : List Direction} {d : Direction} (hflee : flee = true)
    (hwalk : canWalk d = true) : Fits canWalk flee staying d :=
  ⟨hwalk, fun hstay => absurd (hflee.symm.trans hstay) Bool.noConfusion⟩

/-- What all directions of a case bring, a monster that does not flee gets. -/
theorem Fits.keeps {staying : List Direction} {d : Direction} {Q : Direction → Prop} {R : Prop}
    (h : Fits canWalk flee staying d) (hstaying : ∀ d ∈ staying, Q d) (hkeeps : Q d → R) :
    canWalk d = true ∧ (flee = false → R) :=
  ⟨h.1, fun hflee => hkeeps (hstaying d (h.2 hflee))⟩

namespace DiagonalCase

variable (self : DiagonalCase)

/-- The directions for a monster that does not flee. -/
def staying : List Direction :=
  [self.first, self.second, self.diagonal, self.lastFirst, self.lastSecond]

theorem step_fits : ∀ d ∈ self.step canWalk random flee, Fits canWalk flee self.staying d := by
  have hlast : ∀ d ∈ (if canWalk self.lastFirst && canWalk self.cornerFirst then
      some self.lastFirst
      else if canWalk self.lastSecond && canWalk self.cornerSecond then some self.lastSecond
      else none), Fits canWalk flee self.staying d := by
    refine forall_mem_ite (fun h => ?_) fun _ => forall_mem_ite (fun h => ?_) fun _ =>
      forall_mem_none
    · rw [Bool.and_eq_true] at h
      exact forall_mem_some (fits_of_mem (by simp [staying]) h.1)
    · rw [Bool.and_eq_true] at h
      exact forall_mem_some (fits_of_mem (by simp [staying]) h.1)
  have hflee : ∀ d ∈ (if flee then oneOf canWalk random self.fleeFirst self.fleeSecond else none),
      Fits canWalk flee self.staying d :=
    forall_mem_ite (fun h => forall_oneOf (fits_of_flee h) (fits_of_flee h)) fun _ =>
      forall_mem_none
  refine forall_mem_or (forall_oneOf (fits_of_mem ?_) (fits_of_mem ?_)) (forall_mem_ite
    (fun h => forall_mem_some (fits_of_mem ?_ h)) fun _ => forall_mem_or hflee hlast)
  · simp [staying]
  · simp [staying]
  · simp [staying]

end DiagonalCase

namespace StraightCase

variable (self : StraightCase)

/-- The directions for a monster that does not flee. -/
def staying : List Direction :=
  [self.away, self.left, self.right, self.cornerFirst, self.sideFirst, self.cornerSecond,
    self.sideSecond]

theorem corner_fits :
    ∀ d ∈ (if canWalk self.cornerFirst && canWalk self.cornerSecond then
        some (if random then self.cornerFirst else self.cornerSecond)
      else if canWalk self.sideFirst then some self.sideFirst
      else if canWalk self.cornerFirst then some self.cornerFirst
      else if canWalk self.sideSecond then some self.sideSecond
      else if canWalk self.cornerSecond then some self.cornerSecond
      else none), Fits canWalk flee self.staying d := by
  refine forall_mem_ite (fun hboth => ?_) fun _ => forall_mem_ite
    (fun h => forall_mem_some (fits_of_mem (by simp [staying]) h)) fun _ => forall_mem_ite
    (fun h => forall_mem_some (fits_of_mem (by simp [staying]) h)) fun _ => forall_mem_ite
    (fun h => forall_mem_some (fits_of_mem (by simp [staying]) h)) fun _ => forall_mem_ite
    (fun h => forall_mem_some (fits_of_mem (by simp [staying]) h)) fun _ => forall_mem_none
  rw [Bool.and_eq_true] at hboth
  cases random with
  | true => exact forall_mem_some (fits_of_mem (by simp [staying]) hboth.1)
  | false => exact forall_mem_some (fits_of_mem (by simp [staying]) hboth.2)

theorem step_fits (offset : Int) :
    ∀ d ∈ self.step canWalk random flee offset, Fits canWalk flee self.staying d := by
  refine forall_mem_ite (fun h => forall_mem_some (fits_of_mem (by simp [staying]) h)) fun _ =>
    forall_mem_ite (fun hboth => ?_) fun _ => forall_mem_ite (fun hleft => ?_) fun _ =>
    forall_mem_ite (fun hright => ?_) fun _ => forall_mem_or (forall_mem_ite (fun _ => ?_) fun _ =>
      forall_mem_none) (forall_mem_ite (fun _ => self.corner_fits) fun _ =>
        forall_mem_ite (fun htoward => ?_) fun _ => forall_mem_none)
  · simp only [Bool.and_eq_true] at hboth
    cases random with
    | true => exact forall_mem_some (fits_of_mem (by simp [staying]) hboth.1.1)
    | false => exact forall_mem_some (fits_of_mem (by simp [staying]) hboth.1.2)
  · rw [Bool.and_eq_true] at hleft
    exact forall_mem_some (fits_of_mem (by simp [staying]) hleft.1)
  · rw [Bool.and_eq_true] at hright
    exact forall_mem_some (fits_of_mem (by simp [staying]) hright.1)
  · exact forall_oneOf (fits_of_mem (by simp [staying])) (fits_of_mem (by simp [staying]))
  · rw [Bool.and_eq_true] at htoward
    exact forall_mem_some (fits_of_flee htoward.1 htoward.2)

end StraightCase

/-! ## The distance after a step -/

def stepX : Direction → Int
  | .west | .southwest | .northwest => -1
  | .east | .southeast | .northeast => 1
  | .north | .south => 0

def stepY : Direction → Int
  | .north | .northwest | .northeast => -1
  | .south | .southwest | .southeast => 1
  | .west | .east => 0

/-- The distance of `getDistanceStep`. -/
def distance (p1 p2 : MapPosition) : Int := max (getDistanceX p1 p2) (getDistanceY p1 p2)

/-- The step leaves the range of a coordinate, and comes in on the other side. -/
def Wraps (pos : MapPosition) (d : Direction) : Prop :=
  ¬ (0 ≤ pos.x.toNat + stepX d ∧ pos.x.toNat + stepX d < 2 ^ 16 ∧
    0 ≤ pos.y.toNat + stepY d ∧ pos.y.toNat + stepY d < 2 ^ 16)

variable {pos target : MapPosition} {d : Direction}

theorem toNat_next (c : UInt16) : (((c + 1).toNat : Int) = (c.toNat + 1) % 2 ^ 16) ∧
    (((c - 1).toNat : Int) = (c.toNat + -1) % 2 ^ 16) := by
  have hlt := c.toNat_lt
  constructor
  · rw [UInt16.toNat_add]
    have hone : (1 : UInt16).toNat = 1 := rfl
    omega
  · rw [UInt16.toNat_sub]
    have hone : (1 : UInt16).toNat = 1 := rfl
    omega

theorem getNextPosition_x (d : Direction) (pos : MapPosition) :
    ((getNextPosition d pos).x.toNat : Int) = (pos.x.toNat + stepX d) % 2 ^ 16 := by
  have hlt := pos.x.toNat_lt
  obtain ⟨hup, hdown⟩ := toNat_next pos.x
  cases d with
  | north | south =>
    simp only [getNextPosition, stepX]
    omega
  | west | southwest | northwest => exact hdown
  | east | southeast | northeast => exact hup

theorem getNextPosition_y (d : Direction) (pos : MapPosition) :
    ((getNextPosition d pos).y.toNat : Int) = (pos.y.toNat + stepY d) % 2 ^ 16 := by
  have hlt := pos.y.toNat_lt
  obtain ⟨hup, hdown⟩ := toNat_next pos.y
  cases d with
  | west | east =>
    simp only [getNextPosition, stepY]
    omega
  | north | northwest | northeast => exact hdown
  | south | southwest | southeast => exact hup

theorem step_bounds (d : Direction) :
    -1 ≤ stepX d ∧ stepX d ≤ 1 ∧ -1 ≤ stepY d ∧ stepY d ≤ 1 := by
  cases d <;> decide

/-- A coordinate that comes in on the other side is far from a target that was near. -/
theorem far_of_outside {c t n : Nat} {s : Int} (hc : c < 2 ^ 16) (hlow : -1 ≤ s) (hhigh : s ≤ 1)
    (hn : (n : Int) = (c + s) % 2 ^ 16) (hout : ¬ (0 ≤ c + s ∧ c + s < 2 ^ 16))
    (hnear : (((c : Int) - t).natAbs : Int) ≤ 2 ^ 15 - 1) :
    2 ^ 15 - 1 ≤ (((n : Int) - t).natAbs : Int) := by
  have hedge : (c = 0 ∧ s = -1) ∨ (c = 2 ^ 16 - 1 ∧ s = 1) := by omega
  rcases hedge with ⟨rfl, rfl⟩ | ⟨rfl, rfl⟩
  · have hnext : n = 2 ^ 16 - 1 := by omega
    omega
  · have hnext : n = 0 := by omega
    omega

/-- From a target within half of the range a step over the edge leads away. -/
theorem le_distance_of_wraps (hwraps : Wraps pos d) (hnear : distance pos target ≤ 2 ^ 15 - 1) :
    distance pos target ≤ distance (getNextPosition d pos) target := by
  obtain ⟨hxlow, hxhigh, hylow, hyhigh⟩ := step_bounds d
  obtain ⟨hdx, hdy⟩ := max_le_iff.mp hnear
  have haxis : ¬ (0 ≤ pos.x.toNat + stepX d ∧ pos.x.toNat + stepX d < 2 ^ 16) ∨
      ¬ (0 ≤ pos.y.toNat + stepY d ∧ pos.y.toNat + stepY d < 2 ^ 16) :=
    not_and_or.mp fun hin => hwraps ⟨hin.1.1, hin.1.2, hin.2.1, hin.2.2⟩
  refine hnear.trans ?_
  rcases haxis with hout | hout
  · exact le_max_of_le_left (far_of_outside pos.x.toNat_lt hxlow hxhigh
      (getNextPosition_x d pos) hout hdx)
  · exact le_max_of_le_right (far_of_outside pos.y.toNat_lt hylow hyhigh
      (getNextPosition_y d pos) hout hdy)

theorem distance_of_not_wraps (h : ¬ Wraps pos d) :
    distance (getNextPosition d pos) target =
      max ((getOffsetX pos target + stepX d).natAbs : Int)
        ((getOffsetY pos target + stepY d).natAbs : Int) := by
  obtain ⟨hx0, hx1, hy0, hy1⟩ := not_not.mp h
  have hx := getNextPosition_x d pos
  have hy := getNextPosition_y d pos
  rw [Int.emod_eq_of_lt hx0 hx1] at hx
  rw [Int.emod_eq_of_lt hy0 hy1] at hy
  unfold distance getDistanceX getDistanceY getOffsetX getOffsetY
  rw [hx, hy]
  congr 3
  · omega
  · omega

theorem distance_eq : distance pos target =
    max ((getOffsetX pos target).natAbs : Int) ((getOffsetY pos target).natAbs : Int) := rfl

/-! ## The step that is chosen -/

theorem playerNW_staying : ∀ d ∈ playerNW.staying, 0 ≤ stepX d ∨ 0 ≤ stepY d := by decide

theorem playerSE_staying : ∀ d ∈ playerSE.staying, stepX d ≤ 0 ∨ stepY d ≤ 0 := by decide

theorem playerSW_staying : ∀ d ∈ playerSW.staying, 0 ≤ stepX d ∨ stepY d ≤ 0 := by decide

theorem playerNE_staying : ∀ d ∈ playerNE.staying, stepX d ≤ 0 ∨ 0 ≤ stepY d := by decide

theorem playerNorth_staying : ∀ d ∈ playerNorth.staying, 0 ≤ stepY d := by decide

theorem playerSouth_staying : ∀ d ∈ playerSouth.staying, stepY d ≤ 0 := by decide

theorem playerWest_staying : ∀ d ∈ playerWest.staying, 0 ≤ stepX d := by decide

theorem playerEast_staying : ∀ d ∈ playerEast.staying, stepX d ≤ 0 := by decide

namespace DistanceKeeper

variable {self : DistanceKeeper} {random : StepRandom} {flee : Bool}

/-- The step can be walked, and does not come nearer on the map without edges. -/
theorem escape_spec {offsetx offsety : Int}
    (hd : d ∈ self.escape random offsetx.natAbs offsety.natAbs offsetx offsety flee) :
    self.canWalkTo self.position d = true ∧ (flee = false →
      max (offsetx.natAbs : Int) (offsety.natAbs : Int) ≤
        max ((offsetx + stepX d).natAbs : Int) ((offsety + stepY d).natAbs : Int)) := by
  unfold escape at hd
  dsimp only at hd
  split_ifs at hd with hnw hse hsw hne hvertical hsouth heast
  · refine (playerNW.step_fits d hd).keeps playerNW_staying fun hstep => ?_
    omega
  · refine (playerSE.step_fits d hd).keeps playerSE_staying fun hstep => ?_
    omega
  · refine (playerSW.step_fits d hd).keeps playerSW_staying fun hstep => ?_
    omega
  · refine (playerNE.step_fits d hd).keeps playerNE_staying fun hstep => ?_
    omega
  · refine (playerSouth.step_fits offsetx d hd).keeps playerSouth_staying fun hstep => ?_
    omega
  · refine (playerNorth.step_fits offsetx d hd).keeps playerNorth_staying fun hstep => ?_
    omega
  · refine (playerEast.step_fits offsety d hd).keeps playerEast_staying fun hstep => ?_
    omega
  · refine (playerWest.step_fits offsety d hd).keeps playerWest_staying fun hstep => ?_
    omega

/-- A direction that is set can be walked, and the step of a monster that does not flee comes no
nearer to the target, unless it goes over the edge of the coordinates far from the target. -/
theorem getDistanceStep_spec (self : DistanceKeeper) (random : StepRandom)
    (targetPos : MapPosition) (flee : Bool) (direction : Direction)
    (h : (self.getDistanceStep random targetPos flee).2 = some (some direction)) :
    self.canWalkTo self.position direction = true ∧
      (flee = false → self.position ≠ targetPos →
        distance self.position targetPos ≤ 2 ^ 15 - 1 ∨ ¬ Wraps self.position direction →
        distance self.position targetPos ≤
          distance (getNextPosition direction self.position) targetPos) := by
  unfold getDistanceStep at h
  dsimp only at h
  split_ifs at h with hfar hreached hon
  · cases h
  · -- on the target: any step is one away from it
    obtain ⟨dir, hdir, rfl⟩ : ∃ dir, self.getRandomStep random self.position = some dir ∧
        dir = direction := by simpa using h
    refine ⟨List.find?_some (p := fun dir => self.canWalkTo self.position dir) hdir,
      fun _ _ _ => ?_⟩
    have hzero : distance self.position targetPos = 0 := by
      rw [distance_eq, hon.1, hon.2]
      rfl
    rw [hzero]
    exact le_max_of_le_left (Int.natCast_nonneg _)
  · obtain ⟨hwalk, hkeeps⟩ := escape_spec (d := direction) (Option.some.inj h)
    refine ⟨hwalk, fun hflee _ hedge => ?_⟩
    by_cases hwraps : Wraps self.position direction
    · exact le_distance_of_wraps hwraps (hedge.resolve_right (not_not.mpr hwraps))
    · rw [distance_of_not_wraps hwraps, distance_eq]
      exact hkeeps hflee

/-- An archer at the eastern edge, on a map with one more tile, at the western edge. -/
def edgeArcher : DistanceKeeper where
  position := ⟨65535, 5, 7⟩
  targetDistance := 65535
  stepDuration := 0
  isInSpawnRange := fun _ => true
  getWalkCache := fun pos =>
    if pos = ⟨65535, 5, 7⟩ then 1
    else if getDistanceX pos ⟨65535, 5, 7⟩ ≤ 11 ∧ getDistanceY pos ⟨65535, 5, 7⟩ ≤ 11 then 0
    else 2
  hasFreeTile := fun pos => pos = ⟨0, 5, 7⟩
  isSightClear := fun _ _ => true

def unshuffled : StepRandom where
  boolean_random := true
  dirList := [.north, .west, .east, .south]
  shuffled := List.Perm.refl _

theorem edgeArcher_step :
    (edgeArcher.getDistanceStep unshuffled ⟨1, 5, 7⟩ false).2 = some (some .east) := by decide

/-- A step to the south away from a target in the north. -/
theorem getDistanceStep_spec_south :
    distance ⟨100, 100, 7⟩ ⟨100, 98, 7⟩ ≤
      distance (getNextPosition .south ⟨100, 100, 7⟩) ⟨100, 98, 7⟩ :=
  (getDistanceStep_spec
    { edgeArcher with
      position := ⟨100, 100, 7⟩, targetDistance := 4, getWalkCache := fun _ => 1
      hasFreeTile := fun _ => true }
    unshuffled ⟨100, 98, 7⟩ false .south (by decide)).2 rfl (by decide) (.inl (by decide))

theorem edgeArcher_comes_nearer :
    ¬ ∀ (self : DistanceKeeper) (random : StepRandom) (targetPos : MapPosition) (flee : Bool)
      (direction : Direction),
      (self.getDistanceStep random targetPos flee).2 = some (some direction) →
      self.canWalkTo self.position direction = true ∧
        (flee = false → self.position ≠ targetPos →
          distance self.position targetPos ≤
            distance (getNextPosition direction self.position) targetPos) := by
  intro h
  have hnearer := (h edgeArcher unshuffled ⟨1, 5, 7⟩ false .east edgeArcher_step).2 rfl (by decide)
  revert hnearer
  decide

end DistanceKeeper

end Eloth
