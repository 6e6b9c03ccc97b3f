import Mathlib.Data.List.Perm.Subperm
import Eloth.Item
import Eloth.Lib.Run

/-!
# Spawns

A spawn keeps one monster for each of its spawn ids. A periodic check forgets the monsters that
are gone, files those that strayed out of the zone under id 0, and fills the ids that have none.
-/

namespace Eloth

abbrev MonsterRef := Nat

/-- The ids that `g_scheduler.addEvent` hands out. -/
abbrev EventId := { e : Nat // e ≠ 0 }

structure MonsterType where
  isIgnoringSpawnBlock : Bool

structure SpawnBlock where
  mTypes : List (MonsterType × Nat)
  lastSpawn : Int
  interval : Nat

/-- What one call of `spawnMonster` for a spawn id meets: the clock, a player near by, the rolls,
the monsters that are created and put on the map when the types are tried and tried again. -/
structure SpawnAttempt where
  dueTime : Int
  findPlayer : Bool
  roll : Nat → Nat
  place : Nat → Option (MonsterRef × Position)
  placeAgain : Nat → Option (MonsterRef × Position)
  spawnTime : Int

structure SpawnCheck where
  cleanupTime : Int
  attempt : Nat → SpawnAttempt
  rateSpawn : Nat
  event : EventId

/-- A spawn and what it reads of its monsters. The entries of the multimap `spawnedMap` are kept in
no particular order. -/
structure Spawn where
  centerPos : Position
  radius : Int
  spawnMap : List (Nat × SpawnBlock)
  spawnedMap : List (Nat × MonsterRef)
  checkSpawnEvent : Nat
  started : Bool
  isRemoved : MonsterRef → Bool
  position : MonsterRef → Position
  hasSpawn : MonsterRef → Bool

/-- The loop over the monster types, from the `i`-th on. The number counts the blocked types. -/
def spawnFunc (roll : Nat → Nat) (place : Nat → Option (MonsterRef × Position))
    (isBlocked rolls : Bool) :
    List (MonsterType × Nat) → Nat → Nat → Option (MonsterRef × Position) × Nat
  | [], _, blockedMonsters => (none, blockedMonsters)
  | (mType, chance) :: mTypes, i, blockedMonsters =>
    if isBlocked && !mType.isIgnoringSpawnBlock then
      spawnFunc roll place isBlocked rolls mTypes (i + 1) (blockedMonsters + 1)
    else if !rolls then (place i, blockedMonsters)
    else if roll i ≤ chance then
      match place i with
      | some monster => (some monster, blockedMonsters)
      | none => spawnFunc roll place isBlocked rolls mTypes (i + 1) blockedMonsters
    else spawnFunc roll place isBlocked rolls mTypes (i + 1) blockedMonsters

/-- The monster that `spawnMonster` puts on the map. -/
def spawnMonster (a : SpawnAttempt) (sb : SpawnBlock) (startup : Bool) :
    Option (MonsterRef × Position) :=
  let isBlocked := !startup && a.findPlayer
  match spawnFunc a.roll a.place isBlocked (1 < sb.mTypes.length) sb.mTypes 0 0 with
  | (some monster, _) => some monster
  | (none, blockedMonsters) =>
    if sb.mTypes.length = blockedMonsters then none
    else (spawnFunc a.roll a.placeAgain isBlocked false sb.mTypes 0 blockedMonsters).1

def isInZone (centerPos : Position) (radius : Int) (pos : Position) : Bool :=
  radius == -1 ||
    (decide ((pos.x : Int) ≥ centerPos.x - radius) && decide ((pos.x : Int) ≤ centerPos.x + radius) &&
      decide ((pos.y : Int) ≥ centerPos.y - radius) && decide ((pos.y : Int) ≤ centerPos.y + radius))

namespace Spawn

def isInSpawnZone (s : Spawn) (pos : Position) : Bool := isInZone s.centerPos s.radius pos

def addBlock (s : Spawn) (sb : SpawnBlock) : Spawn :=
  { s with spawnMap := s.spawnMap ++ [(s.spawnMap.length + 1, sb)] }

def startSpawnCheck (s : Spawn) (event : EventId) : Spawn :=
  if s.checkSpawnEvent = 0 then { s with checkSpawnEvent := event } else s

def setLastSpawn (s : Spawn) (spawnId : Nat) (time : Int) : Spawn :=
  { s with
    spawnMap := s.spawnMap.map fun it =>
      if it.1 = spawnId then (it.1, { it.2 with lastSpawn := time }) else it }

/-- The end of `spawnMonster`, when the monster stands on the map. -/
def register (s : Spawn) (spawnId : Nat) (monster : MonsterRef × Position) (time : Int) : Spawn :=
  { s with
    spawnedMap := (spawnId, monster.1) :: s.spawnedMap
    isRemoved := Function.update s.isRemoved monster.1 false
    position := Function.update s.position monster.1 monster.2
    hasSpawn := Function.update s.hasSpawn monster.1 true }.setLastSpawn spawnId time

def startup (s : Spawn) (attempt : Nat → SpawnAttempt) : Spawn :=
  let s := s.spawnMap.foldl (fun s it =>
    match spawnMonster (attempt it.1) it.2 true with
    | some monster => s.register it.1 monster (attempt it.1).spawnTime
    | none => s) s
  { s with started := true }

/-- One step of the iteration of `cleanup`. A monster filed under id 0 is not visited again,
because it comes before the iterator. -/
def cleanupEntry (now : Int) (s : Spawn) (entry : Nat × MonsterRef) : Spawn :=
  if s.isRemoved entry.2 then
    let s := if entry.1 ≠ 0 then s.setLastSpawn entry.1 now else s
    { s with spawnedMap := s.spawnedMap.erase entry }
  else if !s.isInSpawnZone (s.position entry.2) && entry.1 != 0 then
    { s with spawnedMap := (0, entry.2) :: s.spawnedMap.erase entry }
  else s

def cleanup (s : Spawn) (now : Int) : Spawn := s.spawnedMap.foldl (cleanupEntry now) s

def registered (s : Spawn) (spawnId : Nat) : Bool := s.spawnedMap.any fun entry => entry.1 == spawnId

/-- The loop of `checkSpawn` over the spawn blocks. -/
def spawnBlocks (check : SpawnCheck) : List (Nat × SpawnBlock) → Nat → Spawn → Spawn
  | [], _, s => s
  | (spawnId, sb) :: blocks, spawnCount, s =>
    let a := check.attempt spawnId
    if s.registered spawnId then spawnBlocks check blocks spawnCount s
    else if a.dueTime ≥ sb.lastSpawn + sb.interval then
      match spawnMonster a sb false with
      | none => spawnBlocks check blocks spawnCount (s.setLastSpawn spawnId a.spawnTime)
      | some monster =>
        let s := s.register spawnId monster a.spawnTime
        if spawnCount + 1 ≥ check.rateSpawn then s
        else spawnBlocks check blocks (spawnCount + 1) s
    else spawnBlocks check blocks spawnCount s

def checkSpawn (s : Spawn) (check : SpawnCheck) : Spawn :=
  let s := { s with checkSpawnEvent := 0 }.cleanup check.cleanupTime
  let s := spawnBlocks check s.spawnMap 0 s
  if s.spawnedMap.length < s.spawnMap.length then { s with checkSpawnEvent := check.event } else s

/-- A monster leaves the game. Its type's `creatureDisappearEvent` may have handled that. -/
def onRemoveCreature (s : Spawn) (monster : MonsterRef) (handled : Bool) (event : EventId) : Spawn :=
  let s := { s with isRemoved := Function.update s.isRemoved monster true }
  if handled then s
  else if s.hasSpawn monster then s.startSpawnCheck event
  else s

inductive Event where
  | startup (attempt : Nat → SpawnAttempt)
  | checkSpawn (check : SpawnCheck)
  | onRemoveCreature (monster : MonsterRef) (handled : Bool) (event : EventId)
  | move (monster : MonsterRef) (pos : Position)

/-- `Spawns::startup` starts a spawn once, and the scheduler runs a check that is pending. -/
def Enabled (s : Spawn) : Event → Prop
  | .startup _ => s.started = false
  | .checkSpawn _ => s.checkSpawnEvent ≠ 0
  | _ => True

def apply (s : Spawn) : Event → Spawn
  | .startup attempt => s.startup attempt
  | .checkSpawn check => s.checkSpawn check
  | .onRemoveCreature monster handled event => s.onRemoveCreature monster handled event
  | .move monster pos => { s with position := Function.update s.position monster pos }

/-- A spawn as `Spawns::loadFromXml` leaves it. -/
def Loaded (s : Spawn) : Prop :=
  ∃ (centerPos : Position) (radius : Int) (blocks : List SpawnBlock)
    (position : MonsterRef → Position),
    s = blocks.foldl addBlock
      ⟨centerPos, radius, [], [], 0, false, fun _ => false, position, fun _ => false⟩

def events : Run.System Spawn Event where
  init := Loaded
  step s e s' := s.Enabled e ∧ s' = s.apply e

end Spawn

end Eloth
