import Eloth.StackPosition

/-!
# Notices of removals

Before a creature leaves its tile, its place in the description of the tile is recorded for every
player among the spectators. Afterwards each player that sees the creature is told the place. The
records are kept without the players they belong to, so that the two loops have to keep step.
-/

namespace Eloth.TileStack

structure Spectator where
  id : CreatureId
  isPlayer : Bool

/-- What a player is sent, with the index of the record that it was taken from. -/
structure Notice where
  entry : Nat
  stackpos : Option Int
  deriving DecidableEq

variable (types : Items) (s : TileStack) (canSeeCreature : CreatureId → CreatureId → Bool)
  (creature : CreatureId)

/-- The record for a player: -1 for one that does not see the creature. -/
def oldStackPos (player : CreatureId) : Int :=
  if canSeeCreature player creature then
    s.getClientIndexOfCreature (canSeeCreature player) creature
  else -1

def oldStackPosVector : List Spectator → List Int
  | [] => []
  | spectator :: rest =>
    if spectator.isPlayer then
      s.oldStackPos canSeeCreature creature spectator.id :: oldStackPosVector rest
    else oldStackPosVector rest

/-- The second loop of `Game::removeCreature`: the index moves on for the players that see the
creature. -/
def sendRemovals (records : List Int) : List Spectator → Nat → List (Option Notice)
  | [], _ => []
  | spectator :: rest, i =>
    if spectator.isPlayer && canSeeCreature spectator.id creature then
      some ⟨i, records[i]?⟩ :: sendRemovals records rest (i + 1)
    else none :: sendRemovals records rest i

/-- The second loop of `Map::moveCreature`: the index moves on for every player. -/
def sendMoves (records : List Int) : List Spectator → Nat → List (Option Notice)
  | [], _ => []
  | spectator :: rest, i =>
    if spectator.isPlayer then
      (if records[i]? = some (-1) then none else some ⟨i, records[i]?⟩) ::
        sendMoves records rest (i + 1)
    else none :: sendMoves records rest i

/-- `Game::removeCreature`, as far as the tile and the clients go. -/
def removeCreature (spectators : List Spectator) : TileStack × List (Option Notice) :=
  let records := s.oldStackPosVector canSeeCreature creature spectators
  (s.removeThing types (.creature creature) 0,
    sendRemovals canSeeCreature creature records spectators 0)

/-- `Map::moveCreature`, as far as the tile left and the clients go. -/
def moveCreature (spectators : List Spectator) : TileStack × List (Option Notice) :=
  let records := s.oldStackPosVector canSeeCreature creature spectators
  (s.removeThing types (.creature creature) 0, sendMoves records spectators 0)

/-! ## Records and entries -/

/-- The index of the record for the spectator at an index. -/
def ownEntry (spectators : List Spectator) (k : Nat) : Nat :=
  (spectators.take k).countP Spectator.isPlayer

/-- The players before an index that see the creature. -/
def seeing (spectators : List Spectator) (k : Nat) : Nat :=
  (spectators.take k).countP fun spectator =>
    spectator.isPlayer && canSeeCreature spectator.id creature

/-- Every player that sees the creature is sent the place recorded for this player. -/
def SendsOwn (spectators : List Spectator) (notices : List (Option Notice)) : Prop :=
  ∀ (k : Nat) (spectator : Spectator), spectators[k]? = some spectator →
    spectator.isPlayer = true →
    canSeeCreature spectator.id creature = true →
      notices[k]? = some (some ⟨ownEntry spectators k,
        some (s.getClientIndexOfCreature (canSeeCreature spectator.id) creature)⟩)

/-- No player that does not see the creature stands before one that does. -/
def SeeingFirst (spectators : List Spectator) : Prop :=
  ∀ (j k : Nat), j < k → ∀ before after : Spectator, spectators[j]? = some before → spectators[k]? = some after →
    before.isPlayer = true → after.isPlayer = true → canSeeCreature after.id creature = true →
      canSeeCreature before.id creature = true

variable {types s canSeeCreature creature} {spectators : List Spectator} {spectator : Spectator}
  {records : List Int} {k : Nat}

theorem getElem?_oldStackPosVector (hk : spectators[k]? = some spectator)
    (hplayer : spectator.isPlayer = true) :
    (s.oldStackPosVector canSeeCreature creature spectators)[ownEntry spectators k]? =
      some (s.oldStackPos canSeeCreature creature spectator.id) := by
  induction spectators generalizing k with
  | nil => cases hk
  | cons first rest ih =>
    cases k with
    | zero =>
      obtain rfl : first = spectator := Option.some.inj hk
      simp only [ownEntry, List.take_zero, List.countP_nil, oldStackPosVector, hplayer, if_true]
      rfl
    | succ k =>
      have hrest := ih hk
      unfold ownEntry at hrest ⊢
      rw [List.take_succ_cons, List.countP_cons, oldStackPosVector]
      split_ifs
      · rwa [List.getElem?_cons_succ]
      · exact hrest

theorem getElem?_sendRemovals (hk : spectators[k]? = some spectator)
    (hplayer : spectator.isPlayer = true) (hsee : canSeeCreature spectator.id creature = true)
    (i : Nat) :
    (sendRemovals canSeeCreature creature records spectators i)[k]? =
      some (some ⟨i + seeing canSeeCreature creature spectators k,
        records[i + seeing canSeeCreature creature spectators k]?⟩) := by
  induction spectators generalizing k i with
  | nil => cases hk
  | cons first rest ih =>
    cases k with
    | zero =>
      obtain rfl : first = spectator := Option.some.inj hk
      simp only [sendRemovals, hplayer, hsee, Bool.and_self, if_true, seeing, List.take_zero,
        List.countP_nil, Nat.add_zero]
      rfl
    | succ k =>
      have hcount : seeing canSeeCreature creature (first :: rest) (k + 1) =
          seeing canSeeCreature creature rest k +
            if (first.isPlayer && canSeeCreature first.id creature) = true then 1 else 0 := by
        rw [seeing, List.take_succ_cons, List.countP_cons]
        rfl
      rw [hcount, sendRemovals]
      split_ifs
      · rw [List.getElem?_cons_succ, ih hk, Nat.add_right_comm, Nat.add_assoc]
      · rw [List.getElem?_cons_succ, ih hk, Nat.add_zero]

/-! ## Keeping step -/

/-- The index of the second loop is that of the own record exactly when all players before see
the creature. -/
theorem seeing_eq_ownEntry_iff :
    seeing canSeeCreature creature spectators k = ownEntry spectators k ↔
      ∀ before ∈ spectators.take k, before.isPlayer = true →
        canSeeCreature before.id creature = true := by
  unfold seeing ownEntry
  induction spectators.take k with
  | nil => simp
  | cons first rest ih =>
    have hle : rest.countP (fun spectator =>
        spectator.isPlayer && canSeeCreature spectator.id creature) ≤
        rest.countP Spectator.isPlayer :=
      List.countP_mono_left fun _ _ h => (Bool.and_eq_true_iff.mp h).1
    rw [List.forall_mem_cons, ← ih, List.countP_cons, List.countP_cons]
    cases hplayer : first.isPlayer <;> cases hsee : canSeeCreature first.id creature <;> simp
    -- only a player that does not see the creature parts the two counts
    omega

theorem seeingFirst_iff : SeeingFirst canSeeCreature creature spectators ↔
    ∀ (k : Nat) (spectator : Spectator), spectators[k]? = some spectator →
      spectator.isPlayer = true → canSeeCreature spectator.id creature = true →
        seeing canSeeCreature creature spectators k = ownEntry spectators k := by
  simp only [seeing_eq_ownEntry_iff]
  constructor
  · intro h k spectator hk hplayer hsee before hbefore hbeforePlayer
    obtain ⟨j, hj⟩ := List.mem_iff_getElem?.mp hbefore
    have hlt : j < k := by
      have := List.getElem?_eq_some_iff.mp hj
      obtain ⟨hlength, -⟩ := this
      exact lt_of_lt_of_le hlength (List.length_take_le k spectators)
    rw [List.getElem?_take_of_lt hlt] at hj
    exact h j k hlt before spectator hj hk hbeforePlayer hplayer hsee
  · intro h j k hjk before after hj hk hbefore hafter hsee
    refine h k after hk hafter hsee before ?_ hbefore
    rw [← List.getElem?_take_of_lt hjk] at hj
    exact List.mem_of_getElem? hj

/-- A removal tells every player its own place exactly when the players that see the creature
stand before those that do not. -/
theorem removeCreature_sendsOwn_iff :
    SendsOwn s canSeeCreature creature spectators
        (removeCreature types s canSeeCreature creature spectators).2 ↔
      SeeingFirst canSeeCreature creature spectators := by
  rw [seeingFirst_iff]
  refine forall_congr' fun k => forall_congr' fun spectator => forall_congr' fun hk =>
    forall_congr' fun hplayer => forall_congr' fun hsee => ?_
  have hrecord := @getElem?_oldStackPosVector s canSeeCreature creature _ _ _ hk hplayer
  rw [oldStackPos, if_pos hsee] at hrecord
  rw [removeCreature, getElem?_sendRemovals hk hplayer hsee, Nat.zero_add]
  constructor
  · intro h
    exact congrArg Notice.entry (Option.some.inj (Option.some.inj h))
  · intro h
    rw [h, hrecord]

/-- A player that does not see the creature, before one that does: the second is told the record
of the first. -/
theorem removeCreature_takes_other_entry :
    (removeCreature topTable crowded (fun player c => player ≠ 1 || c ≠ 7) 7
      [⟨1, true⟩, ⟨2, true⟩]).2 = [none, some ⟨0, some (-1)⟩] ∧
    crowded.getClientIndexOfCreature (fun c => (2 : Nat) ≠ 1 || c ≠ 7) 7 = 4 ∧
    ¬ SendsOwn crowded (fun player c => player ≠ 1 || c ≠ 7) 7 [⟨1, true⟩, ⟨2, true⟩]
      (removeCreature topTable crowded (fun player c => player ≠ 1 || c ≠ 7) 7
        [⟨1, true⟩, ⟨2, true⟩]).2 := by
  refine ⟨by decide, by decide, fun h => ?_⟩
  exact absurd (h 1 ⟨2, true⟩ rfl rfl rfl) (by decide)

end Eloth.TileStack
