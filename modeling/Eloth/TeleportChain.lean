import Mathlib.Data.Set.Card
import Eloth.Item
import Eloth.PathFinding

/-!
# Chains of teleports

A thing that comes to a teleport is moved on, unless the teleports that would follow lead in a
circle.
-/

namespace Eloth

abbrev TeleportRef := Nat

/-- What a teleport asks of the map: the tiles and the teleports on them. -/
structure Portals where
  getTile : MapPosition → Option TileRef
  getPosition : TileRef → MapPosition
  getTeleportItem : TileRef → Option TeleportRef
  getDestPos : TeleportRef → MapPosition

/-- The thing that is added to a teleport. -/
inductive Traveller where
  | creature (creature : CreatureId) (position : MapPosition)
  | item (item : ItemRef) (position : MapPosition) (count : UInt32)

inductive TeleportAction where
  | internalCreatureTurn (creature : CreatureId) (dir : Direction)
  | moveCreature (creature : CreatureId) (destTile : TileRef)
  | addMagicEffect (pos : MapPosition) (effect : UInt8)
  | internalMoveItem (item : ItemRef) (toTile : TileRef) (count : UInt32)

/-- The thing is handed on to a tile. -/
def Traveller.HandedTo (destTile : TileRef) (actions : List TeleportAction) : Traveller → Prop
  | creature c _ => .moveCreature c destTile ∈ actions
  | item i _ count => .internalMoveItem i destTile count ∈ actions

structure Teleport where
  position : MapPosition
  destPos : MapPosition
  magicEffect : UInt8

abbrev CONST_ME_NONE : UInt8 := 0

instance : Finite MapPosition := by
  refine Finite.of_injective (fun p : MapPosition => (p.x.toFin, p.y.toFin, p.z.toFin)) ?_
  rintro ⟨x, y, z⟩ ⟨x', y', z'⟩ h
  obtain ⟨hx, hyz⟩ := Prod.mk.inj h
  obtain ⟨hy, hz⟩ := Prod.mk.inj hyz
  rw [UInt16.toFin_inj] at hx hy
  rw [UInt8.toFin_inj] at hz
  rw [MapPosition.mk.injEq]
  exact ⟨hx, hy, hz⟩

theorem positions_left_lt {lastPositions : List MapPosition} {nextPos : MapPosition}
    (h : nextPos ∉ lastPositions) :
    {p | p ∉ lastPositions ++ [nextPos]}.ncard < {p | p ∉ lastPositions}.ncard := by
  refine Set.ncard_lt_ncard ⟨fun p hp hin => hp (List.mem_append_left _ hin), fun hsub => ?_⟩
  exact hsub h (List.mem_append_right _ (List.mem_singleton_self nextPos))

namespace Portals

variable (m : Portals)

/-- The loop over the teleports that would follow; whether it ends without a circle. -/
def followsOn (lastPositions : List MapPosition) (destTeleport : TeleportRef) : Bool :=
  let nextPos := m.getDestPos destTeleport
  if nextPos ∈ lastPositions then false
  else
    match m.getTile nextPos with
    | none => true
    | some tile =>
      match m.getTeleportItem tile with
      | none => true
      | some destTeleport => followsOn (lastPositions ++ [nextPos]) destTeleport
termination_by {p | p ∉ lastPositions}.ncard
decreasing_by exact positions_left_lt ‹_›

/-- `Teleport::addThing`. -/
def addThing (self : Teleport) (thing : Traveller) : List TeleportAction :=
  match m.getTile self.destPos with
  | none => []
  | some destTile =>
    let circles := match m.getTeleportItem destTile with
      | none => false
      | some destTeleport => !m.followsOn [self.position] destTeleport
    if circles then []
    else
      let effects (positions : List MapPosition) : List TeleportAction :=
        if self.magicEffect = CONST_ME_NONE then []
        else positions.map fun pos => .addMagicEffect pos self.magicEffect
      match thing with
      | .creature creature origPos =>
        [.internalCreatureTurn creature
            (if self.destPos.x < origPos.x then .west else .east),
          .moveCreature creature destTile] ++
          effects [origPos, m.getPosition destTile]
      | .item item position count =>
        effects [m.getPosition destTile, position] ++ [.internalMoveItem item destTile count]

/-! ## The positions passed -/

/-- Where the teleport at a position leads. -/
def exit (p : MapPosition) : Option MapPosition :=
  ((m.getTile p).bind m.getTeleportItem).map m.getDestPos

/-- The positions that follow a position by way of the teleports. -/
def passed (p : MapPosition) : Nat → Option MapPosition
  | 0 => some p
  | k + 1 => (passed p k).bind m.exit

/-- From the destination on, no teleport leads back to the start or to a position that was
passed before. -/
def NeverRevisits (start dest : MapPosition) : Prop :=
  ∀ k p, m.passed dest (k + 1) = some p → p ≠ start ∧ ∀ i ≤ k, m.passed dest i ≠ some p

variable {m} {start dest p : MapPosition} {k : Nat}

theorem passed_add (h : m.passed dest k = some p) (n : Nat) :
    m.passed dest (k + n) = m.passed p n := by
  induction n with
  | zero => exact h
  | succ n ih =>
    rw [← Nat.add_assoc]
    exact congrArg (·.bind m.exit) ih

theorem passed_none (h : m.passed dest k = none) (n : Nat) : m.passed dest (k + n) = none := by
  induction n with
  | zero => exact h
  | succ n ih =>
    rw [← Nat.add_assoc]
    exact (congrArg (·.bind m.exit) ih).trans rfl

/-- Whether the positions after the `k`-th lead back, where a return to the destination itself is
not counted: the list of the loop does not hold it. -/
def Clear (m : Portals) (start dest : MapPosition) (k : Nat) : Prop :=
  ∀ j > k, ∀ p, m.passed dest j = some p →
    p ≠ start ∧ ∀ i, 1 ≤ i → i < j → m.passed dest i ≠ some p

theorem clear_step (hnext : m.passed dest (k + 1) = some p) :
    Clear m start dest k ↔
      (p ≠ start ∧ ∀ i, 1 ≤ i → i ≤ k → m.passed dest i ≠ some p) ∧
        Clear m start dest (k + 1) := by
  constructor
  · intro h
    obtain ⟨hstart, hpassed⟩ := h (k + 1) (Nat.lt_succ_self k) p hnext
    exact ⟨⟨hstart, fun i hi hik => hpassed i hi (Nat.lt_succ_of_le hik)⟩,
      fun j hj => h j (Nat.lt_of_succ_lt hj)⟩
  · rintro ⟨⟨hstart, hpassed⟩, hlater⟩ j hj q hq
    obtain rfl | hlt := Nat.eq_or_lt_of_le (Nat.succ_le_of_lt hj)
    · obtain rfl := Option.some.inj (hnext.symm.trans hq)
      exact ⟨hstart, fun i hi hij => hpassed i hi (Nat.le_of_lt_succ hij)⟩
    · exact hlater j hlt q hq

theorem clear_of_none (h : m.passed dest (k + 1) = none) : Clear m start dest k := by
  intro j hj q hq
  obtain ⟨n, rfl⟩ := Nat.exists_eq_add_of_le (Nat.succ_le_of_lt hj)
  rw [passed_none h n] at hq
  cases hq

theorem not_mem_list {lastPositions : List MapPosition}
    (hlist : ∀ q, q ∈ lastPositions ↔ q = start ∨ ∃ i, 1 ≤ i ∧ i ≤ k ∧ m.passed dest i = some q)
    {q : MapPosition} :
    q ∉ lastPositions ↔ q ≠ start ∧ ∀ i, 1 ≤ i → i ≤ k → m.passed dest i ≠ some q := by
  rw [hlist]
  grind

/-- The loop has passed the positions up to the `k`-th, stands at a teleport there, and its list
holds the start and the positions after the destination. -/
theorem followsOn_iff (lastPositions : List MapPosition) (destTeleport : TeleportRef)
    (hnext : m.passed dest (k + 1) = some (m.getDestPos destTeleport))
    (hlist : ∀ q, q ∈ lastPositions ↔ q = start ∨ ∃ i, 1 ≤ i ∧ i ≤ k ∧ m.passed dest i = some q) :
    m.followsOn lastPositions destTeleport = true ↔ Clear m start dest k := by
  rw [clear_step hnext, ← not_mem_list hlist]
  fun_induction followsOn m lastPositions destTeleport generalizing k with
  | case1 =>
    rename_i hin
    exact iff_of_false Bool.false_ne_true fun h => h.1 hin
  | case2 =>
    rename_i hin htile
    have hend : m.passed dest (k + 1 + 1) = none := by
      rw [passed, hnext, Option.bind_some, exit, htile]
      rfl
    exact iff_of_true rfl ⟨hin, clear_of_none hend⟩
  | case3 =>
    rename_i hin tile htile hteleport
    have hend : m.passed dest (k + 1 + 1) = none := by
      rw [passed, hnext, Option.bind_some, exit, htile, Option.bind_some, hteleport]
      rfl
    exact iff_of_true rfl ⟨hin, clear_of_none hend⟩
  | case4 =>
    rename_i lastPositions destTeleport nextPos hin tile htile next hteleport ih
    have hnext' : m.passed dest (k + 1 + 1) = some (m.getDestPos next) := by
      rw [passed, hnext, Option.bind_some, exit, htile, Option.bind_some, hteleport]
      rfl
    have hlist' : ∀ q, q ∈ lastPositions ++ [nextPos] ↔
        q = start ∨ ∃ i, 1 ≤ i ∧ i ≤ k + 1 ∧ m.passed dest i = some q := by
      intro q
      rw [List.mem_append, hlist, List.mem_singleton]
      constructor
      · rintro ((rfl | ⟨i, hi, hik, hq⟩) | rfl)
        · exact .inl rfl
        · exact .inr ⟨i, hi, Nat.le_succ_of_le hik, hq⟩
        · exact .inr ⟨k + 1, by omega, Nat.le_refl _, hnext⟩
      · rintro (rfl | ⟨i, hi, hik, hq⟩)
        · exact .inl (.inl rfl)
        · obtain rfl | hlt := Nat.eq_or_lt_of_le hik
          · exact .inr (Option.some.inj (hq.symm.trans hnext))
          · exact .inl (.inr ⟨i, hi, Nat.le_of_lt_succ hlt, hq⟩)
    rw [ih hnext' hlist', clear_step hnext', not_mem_list hlist']
    exact ⟨fun h => ⟨hin, h⟩, fun h => h.2⟩

/-- A return to the destination is a return to what follows it as well. -/
theorem clear_iff_neverRevisits : Clear m start dest 0 ↔ m.NeverRevisits start dest := by
  constructor
  · intro h k p hp
    obtain ⟨hstart, hpassed⟩ := h (k + 1) (Nat.succ_pos k) p hp
    refine ⟨hstart, fun i hik hi => ?_⟩
    obtain rfl | hpos := Nat.eq_zero_or_pos i
    · obtain rfl : dest = p := Option.some.inj hi
      have hagain : m.passed dest (k + 1 + 1) = m.passed dest 1 := passed_add hp 1
      cases hone : m.passed dest 1 with
      | none =>
        have hnone := passed_none hone k
        rw [Nat.add_comm, hp] at hnone
        cases hnone
      | some q =>
        exact (h (k + 1 + 1) (by omega) q (hagain.trans hone)).2 1 le_rfl (by omega) hone
    · exact hpassed i hpos (Nat.lt_succ_of_le hik) hi
  · intro h j hj p hp
    obtain ⟨j, rfl⟩ := Nat.exists_eq_succ_of_ne_zero (Nat.ne_of_gt hj)
    obtain ⟨hstart, hpassed⟩ := h j p hp
    exact ⟨hstart, fun i _ hij => hpassed i (Nat.le_of_lt_succ hij)⟩

/-- The walk along the teleports finds no tile twice where no tile is ever passed twice. -/
theorem not_circles_iff (m : Portals) (self : Teleport) {destTile : TileRef}
    (htile : m.getTile self.destPos = some destTile) :
    (match m.getTeleportItem destTile with
      | none => false
      | some destTeleport => !m.followsOn [self.position] destTeleport) = false ↔
    m.NeverRevisits self.position self.destPos := by
  rw [← clear_iff_neverRevisits]
  cases hteleport : m.getTeleportItem destTile with
  | none =>
    have hend : m.passed self.destPos (0 + 1) = none := by
      rw [passed, passed, Option.bind_some, exit, htile, Option.bind_some, hteleport]
      rfl
    exact iff_of_true rfl (clear_of_none hend)
  | some destTeleport =>
    have hnext : m.passed self.destPos (0 + 1) = some (m.getDestPos destTeleport) := by
      rw [passed, passed, Option.bind_some, exit, htile, Option.bind_some, hteleport]
      rfl
    rw [Bool.not_eq_false', followsOn_iff _ _ hnext]
    intro q
    rw [List.mem_singleton]
    refine ⟨Or.inl, fun h => h.resolve_right ?_⟩
    rintro ⟨i, hi, hzero, -⟩
    omega

end Portals

end Eloth
