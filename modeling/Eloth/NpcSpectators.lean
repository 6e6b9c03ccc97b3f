import Mathlib.Data.Finset.Basic
import Eloth.KnownCreatures
import Eloth.Lib.Run
import Eloth.SpectatorCache

/-!
# The spectators of an npc

An npc keeps the players that look at it, and is idle while there are none. It takes a player in
when the player appears or moves, and is told of that when it lies in the range of the search for
spectators around the player. This range is wider than the view of a client.
-/

namespace Eloth

/-- `ProtocolGame::canSee` for a player at a position. -/
def clientCanSee (myPos pos : MapPosition) : Bool :=
  let offsetz : Int := myPos.z.toNat - pos.z.toNat
  let inView : Bool :=
    pos.x.toNat ≥ myPos.x.toNat - maxClientViewportX + offsetz &&
      pos.x.toNat ≤ myPos.x.toNat + (maxClientViewportX + 1) + offsetz &&
      pos.y.toNat ≥ myPos.y.toNat - maxClientViewportY + offsetz &&
      pos.y.toNat ≤ myPos.y.toNat + (maxClientViewportY + 1) + offsetz
  if myPos.z ≤ 7 then
    if pos.z > 7 then false else inView
  else if offsetz.natAbs > 2 then false
  else inView

/-- The search around a position, over several floors and the default range, comes upon a
creature. -/
def spectates (centerPos pos : MapPosition) : Bool :=
  let query : SpectatorQuery := ⟨centerPos, true, false, 0, 0, 0, 0⟩
  centerPos.z.toNat < MAP_MAX_LAYERS && query.range.contains centerPos pos

/-- An npc that was not placed yet has no position. -/
structure Npc where
  position : Option MapPosition := none
  spectators : Finset CreatureId := ∅
  isIdle : Bool := true
  health : Int
  isRemoved : Bool := false

def Npc.setIdle (npc : Npc) (idle : Bool) : Npc :=
  if idle = npc.isIdle then npc
  else if npc.isRemoved || npc.health ≤ 0 then npc
  else { npc with isIdle := idle }

/-- The players on the map, with their positions and whether a client is attached to them. -/
structure NpcWorld where
  online : Finset CreatureId := ∅
  position : CreatureId → MapPosition
  client : CreatureId → Bool
  npc : Npc

inductive NpcEvent where
  | playerAppears (player : CreatureId) (pos : MapPosition) (client : Bool)
  | playerMoves (player : CreatureId) (newPos : MapPosition)
  | playerRemoved (player : CreatureId)
  | npcAppears (pos : MapPosition)
  | npcMoves (newPos : MapPosition)

namespace NpcWorld

variable (w : NpcWorld)

/-- `Player::canSee`. -/
def canSee (player : CreatureId) (pos : MapPosition) : Bool :=
  w.client player && clientCanSee (w.position player) pos

/-- The search for players. -/
def getSpectators (centerPos : MapPosition) : Finset CreatureId :=
  w.online.filter fun player => spectates centerPos (w.position player)

/-- `Npc::onCreatureAppear`, for the npc itself. -/
def onAppear (pos : MapPosition) : Npc :=
  let spectators := w.npc.spectators ∪ w.getSpectators pos
  { w.npc with spectators := spectators }.setIdle (spectators = ∅)

def onCreatureAppear (player : CreatureId) : Npc :=
  { w.npc with spectators := insert player w.npc.spectators }.setIdle false

def onRemoveCreature (player : CreatureId) : Npc :=
  let spectators := w.npc.spectators.erase player
  { w.npc with spectators := spectators }.setIdle (spectators = ∅)

/-- The npc's own moves change nothing. -/
def onCreatureMove (player : CreatureId) : Npc :=
  match w.npc.position with
  | none => w.npc
  | some position =>
    let spectators :=
      if w.canSee player position then insert player w.npc.spectators
      else w.npc.spectators.erase player
    { w.npc with spectators := spectators }.setIdle (spectators = ∅)

/-- The npc is told when one of the searches comes upon it. -/
def tell (centers : List MapPosition) (told : Npc) : NpcWorld :=
  if w.npc.position.any fun pos => centers.any (spectates · pos) then { w with npc := told } else w

def place (player : CreatureId) (pos : MapPosition) : NpcWorld :=
  { w with
    online := insert player w.online
    position := Function.update w.position player pos }

/-- The map has no tile above the last layer. -/
def apply (event : NpcEvent) : Option NpcWorld :=
  match event with
  | .playerAppears player pos client =>
    if player ∈ w.online ∨ MAP_MAX_LAYERS ≤ pos.z.toNat then none
    else
      let w := { w.place player pos with client := Function.update w.client player client }
      some (w.tell [pos] (w.onCreatureAppear player))
  | .playerMoves player newPos =>
    if player ∉ w.online ∨ MAP_MAX_LAYERS ≤ newPos.z.toNat then none
    else
      let oldPos := w.position player
      let w := w.place player newPos
      some (w.tell [oldPos, newPos] (w.onCreatureMove player))
  | .playerRemoved player =>
    if player ∉ w.online then none
    else
      let w := { w with online := w.online.erase player }
      some (w.tell [w.position player] (w.onRemoveCreature player))
  | .npcAppears pos =>
    if w.npc.position.isSome ∨ MAP_MAX_LAYERS ≤ pos.z.toNat then none
    else
      let w := { w with npc := { w.npc with position := some pos } }
      some (w.tell [pos] (w.onAppear pos))
  | .npcMoves newPos =>
    if w.npc.position.isNone ∨ MAP_MAX_LAYERS ≤ newPos.z.toNat then none
    else some { w with npc := { w.npc with position := some newPos } }

/-- The npc was created and no player is online. -/
def Initial : Prop := w.online = ∅ ∧ ∃ health > 0, w.npc = { health }

def system : Run.System NpcWorld NpcEvent where
  init := Initial
  step w event w' := w.apply event = some w'

/-- The online players that can see the npc. -/
def seeing : Finset CreatureId :=
  match w.npc.position with
  | none => ∅
  | some pos => w.online.filter (w.canSee · pos)

structure SpectatorsLawful : Prop where
  spectators_eq : w.npc.spectators = w.seeing
  isIdle_iff : w.npc.isIdle = true ↔ ∀ player ∈ w.online, ∀ pos, w.npc.position = some pos →
    w.canSee player pos = false
  online : ∀ player ∈ w.npc.spectators, player ∈ w.online

/-- A player that the npc takes in when one of the two appears also sees the npc, and a step of
the npc changes for no player whether the player sees it. -/
def Sighted : NpcEvent → Prop
  | .playerAppears _ pos client => ∀ npcPos, w.npc.position = some npcPos →
      spectates pos npcPos → (client && clientCanSee pos npcPos) = true
  | .playerMoves _ _ => True
  | .playerRemoved _ => True
  | .npcAppears pos => ∀ player ∈ w.online, spectates pos (w.position player) → w.canSee player pos
  | .npcMoves newPos => ∀ oldPos, w.npc.position = some oldPos →
      ∀ player ∈ w.online, w.canSee player newPos = w.canSee player oldPos

/-! ## The range of the search -/

theorem near_of_clientCanSee {myPos pos : MapPosition} (h : clientCanSee myPos pos) :
    (myPos.z.toNat ≤ 7 ∧ pos.z.toNat ≤ 7 ∨ ((myPos.z.toNat : Int) - pos.z.toNat).natAbs ≤ 2) ∧
      ((pos.x.toNat : Int) - myPos.x.toNat - (myPos.z.toNat - pos.z.toNat)).natAbs ≤ 11 ∧
        ((pos.y.toNat : Int) - myPos.y.toNat - (myPos.z.toNat - pos.z.toNat)).natAbs ≤ 11 := by
  simp only [clientCanSee, maxClientViewportX, maxClientViewportY, UInt8.le_iff_toNat_le,
    gt_iff_lt, UInt8.lt_iff_toNat_lt, UInt8.reduceToNat] at h
  split_ifs at h <;> simp only [Bool.and_eq_true, decide_eq_true_eq] at h <;> omega

theorem spectates_of_near {centerPos pos : MapPosition}
    (hcenterPos : centerPos.z.toNat < MAP_MAX_LAYERS) (hpos : pos.z.toNat < MAP_MAX_LAYERS)
    (hz : centerPos.z.toNat ≤ 7 ∧ pos.z.toNat ≤ 7 ∨
      ((centerPos.z.toNat : Int) - pos.z.toNat).natAbs ≤ 2)
    (hx : ((pos.x.toNat : Int) - centerPos.x.toNat -
      (centerPos.z.toNat - pos.z.toNat)).natAbs ≤ 11)
    (hy : ((pos.y.toNat : Int) - centerPos.y.toNat -
      (centerPos.z.toNat - pos.z.toNat)).natAbs ≤ 11) : spectates centerPos pos := by
  simp only [MAP_MAX_LAYERS] at hcenterPos hpos
  simp only [spectates, Bool.and_eq_true, Map.contains_iff, SpectatorQuery.range,
    SpectatorQuery.floors, maxViewportX, maxViewportY, if_true, MAP_MAX_LAYERS]
  refine ⟨decide_eq_true hcenterPos, ?_, ⟨by omega, by omega⟩, by omega, by omega⟩
  split_ifs <;> dsimp only <;> omega

/-- The view of a client lies in the range of the search, around either of the two positions. -/
theorem spectates_of_clientCanSee {myPos pos : MapPosition}
    (hmyPos : myPos.z.toNat < MAP_MAX_LAYERS) (hpos : pos.z.toNat < MAP_MAX_LAYERS)
    (h : clientCanSee myPos pos) : spectates myPos pos ∧ spectates pos myPos := by
  obtain ⟨hz, hx, hy⟩ := near_of_clientCanSee h
  exact ⟨spectates_of_near hmyPos hpos hz hx hy,
    spectates_of_near hpos hmyPos (by omega) (by omega) (by omega)⟩

/-! ## The invariant -/

/-- The npc can change between idle and not, and every position lies on a layer of the map. -/
structure Placed : Prop where
  isRemoved : w.npc.isRemoved = false
  health : 0 < w.npc.health
  layer : ∀ player ∈ w.online, (w.position player).z.toNat < MAP_MAX_LAYERS
  npcLayer : ∀ pos, w.npc.position = some pos → pos.z.toNat < MAP_MAX_LAYERS

structure Inv : Prop extends Placed w where
  spectators_eq : w.npc.spectators = w.seeing
  isIdle_eq : w.npc.isIdle = decide (w.npc.spectators = ∅)

variable {w} {w' : NpcWorld} {player : CreatureId} {pos newPos : MapPosition}
  {centers : List MapPosition} {told : Npc} {spectators : Finset CreatureId}

theorem setIdle_eq {npc : Npc} (hisRemoved : npc.isRemoved = false) (hhealth : 0 < npc.health)
    (idle : Bool) : npc.setIdle idle = { npc with isIdle := idle } := by
  rw [Npc.setIdle]
  split_ifs with hidle hdead
  · rw [hidle]
  · rw [hisRemoved, Bool.false_or, decide_eq_true_eq] at hdead
    omega
  · rfl

theorem mem_seeing (hnpc : w.npc.position = some pos) :
    player ∈ w.seeing ↔ player ∈ w.online ∧ w.canSee player pos := by
  rw [seeing, hnpc, Finset.mem_filter]

theorem Placed.spectates_of_canSee (h : Placed w) (hnpc : w.npc.position = some pos)
    (hplayer : player ∈ w.online) (hsee : w.canSee player pos) :
    spectates (w.position player) pos ∧ spectates pos (w.position player) :=
  spectates_of_clientCanSee (h.layer player hplayer) (h.npcLayer pos hnpc)
    (Bool.and_eq_true_iff.mp hsee).2

/-- The set and the flag are right when the told ones are, or when the npc is told nothing and
its own are. -/
theorem Placed.tell (h : Placed w)
    (htold : told = { w.npc with spectators := spectators }.setIdle (spectators = ∅))
    (hin : ∀ pos, w.npc.position = some pos → centers.any (spectates · pos) →
      spectators = w.seeing)
    (hout : (∀ pos, w.npc.position = some pos → ¬ centers.any (spectates · pos)) →
      w.npc.spectators = w.seeing ∧ w.npc.isIdle = decide (w.npc.spectators = ∅)) :
    Inv (w.tell centers told) := by
  rw [NpcWorld.tell]
  split_ifs with hany
  · obtain ⟨pos, hnpc, hcenters⟩ := (Option.any_eq_true _ _).mp hany
    rw [setIdle_eq (by exact h.isRemoved) (by exact h.health)] at htold
    subst htold
    exact ⟨⟨h.isRemoved, h.health, h.layer, h.npcLayer⟩, hin pos hnpc hcenters, rfl⟩
  · have hquiet : ∀ pos, w.npc.position = some pos → ¬ centers.any (spectates · pos) := by
      intro pos hnpc hcenters
      exact hany ((Option.any_eq_true _ _).mpr ⟨pos, hnpc, hcenters⟩)
    exact ⟨h, (hout hquiet).1, (hout hquiet).2⟩

theorem mem_seeing_iff : player ∈ w.seeing ↔
    player ∈ w.online ∧ ∃ pos, w.npc.position = some pos ∧ w.canSee player pos := by
  rw [seeing]
  cases hnpc : w.npc.position with
  | none => simp
  | some pos => simp

/-- The two worlds differ in one player. -/
structure SameOthers (w w' : NpcWorld) (player : CreatureId) : Prop where
  npc : w'.npc = w.npc
  online : ∀ c ≠ player, c ∈ w'.online ↔ c ∈ w.online
  position : ∀ c ≠ player, w'.position c = w.position c
  client : ∀ c ≠ player, w'.client c = w.client c

theorem SameOthers.canSee (h : SameOthers w w' player) {c : CreatureId} (hc : c ≠ player)
    (pos : MapPosition) : w'.canSee c pos = w.canSee c pos := by
  rw [NpcWorld.canSee, NpcWorld.canSee, h.position c hc, h.client c hc]

theorem SameOthers.mem_seeing (h : SameOthers w w' player) {c : CreatureId} (hc : c ≠ player) :
    c ∈ w'.seeing ↔ c ∈ w.seeing := by
  simp only [mem_seeing_iff, h.npc, h.online c hc, h.canSee hc]

theorem SameOthers.placed (h : SameOthers w w' player) (hw : Placed w)
    (hlayer : player ∈ w'.online → (w'.position player).z.toNat < MAP_MAX_LAYERS) :
    Placed w' := by
  refine ⟨h.npc ▸ hw.isRemoved, h.npc ▸ hw.health, fun c hc => ?_, h.npc ▸ hw.npcLayer⟩
  by_cases hcp : c = player
  · exact hcp ▸ hlayer (hcp ▸ hc)
  · exact h.position c hcp ▸ hw.layer c ((h.online c hcp).mp hc)

theorem SameOthers.inv (h : SameOthers w w' player) (hw : Inv w) (hplaced : Placed w')
    (htold : told = { w'.npc with spectators := spectators }.setIdle (spectators = ∅))
    (hothers : ∀ c ≠ player, c ∈ spectators ↔ c ∈ w.npc.spectators)
    (hin : ∀ pos, w'.npc.position = some pos → centers.any (spectates · pos) →
      (player ∈ spectators ↔ player ∈ w'.seeing))
    (hout : (∀ pos, w'.npc.position = some pos → ¬ centers.any (spectates · pos)) →
      player ∉ w.seeing ∧ player ∉ w'.seeing) : Inv (w'.tell centers told) := by
  refine hplaced.tell htold (fun pos hnpc hreach => ?_) fun hquiet => ⟨?_, ?_⟩
  · ext c
    by_cases hc : c = player
    · exact hc ▸ hin pos hnpc hreach
    · rw [hothers c hc, hw.spectators_eq, h.mem_seeing hc]
  · rw [h.npc, hw.spectators_eq]
    ext c
    by_cases hc : c = player
    · rw [hc, iff_false_intro (hout hquiet).1, iff_false_intro (hout hquiet).2]
    · rw [h.mem_seeing hc]
  · rw [h.npc, hw.isIdle_eq]

theorem sameOthers_place (w : NpcWorld) (player : CreatureId) (pos : MapPosition) :
    SameOthers w (w.place player pos) player where
  npc := rfl
  online c hc := by rw [place, Finset.mem_insert, or_iff_right hc]
  position c hc := Function.update_of_ne hc _ _
  client _ _ := rfl

/-- A player that sees the npc is in the range of a search around the player. -/
theorem Placed.notMem_seeing (h : Placed w) (hcenter : w.position player ∈ centers)
    (hquiet : ∀ pos, w.npc.position = some pos → ¬ centers.any (spectates · pos)) :
    player ∉ w.seeing := by
  intro hmem
  obtain ⟨honline, pos, hnpc, hsee⟩ := mem_seeing_iff.mp hmem
  exact hquiet pos hnpc (List.any_eq_true.mpr
    ⟨_, hcenter, (h.spectates_of_canSee hnpc honline hsee).1⟩)

theorem Inv.playerAppears (h : Inv w) (hplayer : player ∉ w.online)
    (hpos : pos.z.toNat < MAP_MAX_LAYERS) {client : Bool}
    (hsighted : w.Sighted (.playerAppears player pos client))
    (hw' : w' = { w.place player pos with client := Function.update w.client player client }) :
    Inv (w'.tell [pos] (w'.onCreatureAppear player)) := by
  have hsame : SameOthers w w' player := by
    rw [hw']
    exact { sameOthers_place w player pos with
      client := fun c hc => Function.update_of_ne hc _ _ }
  have hposition : w'.position player = pos := by
    rw [hw']
    exact Function.update_self ..
  have hclient : w'.client player = client := by
    rw [hw']
    exact Function.update_self ..
  have hplaced : Placed w' := hsame.placed h.toPlaced fun _ => by rwa [hposition]
  have htold : w'.onCreatureAppear player =
      { w'.npc with spectators := insert player w'.npc.spectators }.setIdle
        (insert player w'.npc.spectators = ∅) := by simp [onCreatureAppear]
  refine hsame.inv h hplaced htold ?_ ?_ ?_
  · intro c hc
    rw [hsame.npc, Finset.mem_insert, or_iff_right hc]
  · intro npcPos hnpc hreach
    have hsee := hsighted npcPos (hsame.npc ▸ hnpc) (by simpa using hreach)
    refine iff_of_true (Finset.mem_insert_self _ _) (mem_seeing_iff.mpr ⟨?_, npcPos, hnpc, ?_⟩)
    · rw [hw']
      exact Finset.mem_insert_self _ _
    · rw [canSee, hposition, hclient, hsee]
  · intro hquiet
    exact ⟨fun hmem => hplayer (mem_seeing_iff.mp hmem).1,
      hplaced.notMem_seeing (by simp [hposition]) hquiet⟩

theorem Inv.playerMoves (h : Inv w) (hnewPos : newPos.z.toNat < MAP_MAX_LAYERS)
    (hw' : w' = w.place player newPos) :
    Inv (w'.tell [w.position player, newPos] (w'.onCreatureMove player)) := by
  have hsame : SameOthers w w' player := hw' ▸ sameOthers_place w player newPos
  have hposition : w'.position player = newPos := by
    rw [hw']
    exact Function.update_self ..
  have honline : player ∈ w'.online := by
    rw [hw']
    exact Finset.mem_insert_self _ _
  have hplaced : Placed w' := hsame.placed h.toPlaced fun _ => by rwa [hposition]
  cases hnpc : w'.npc.position with
  | none =>
    have hseeing : w'.seeing = w.seeing := by
      rw [seeing, seeing, ← hsame.npc, hnpc]
    have hquiet : w'.tell [w.position player, newPos] (w'.onCreatureMove player) = w' := by
      rw [NpcWorld.tell, hnpc]
      rfl
    rw [hquiet]
    exact ⟨hplaced, by rw [hseeing, hsame.npc, h.spectators_eq], by rw [hsame.npc, h.isIdle_eq]⟩
  | some npcPos =>
    have htold : w'.onCreatureMove player =
        { w'.npc with
          spectators := if w'.canSee player npcPos then insert player w'.npc.spectators
            else w'.npc.spectators.erase player }.setIdle
          ((if w'.canSee player npcPos then insert player w'.npc.spectators
            else w'.npc.spectators.erase player) = ∅) := by
      rw [onCreatureMove, hnpc]
    refine hsame.inv h hplaced htold ?_ ?_ ?_
    · intro c hc
      split_ifs
      · rw [hsame.npc, Finset.mem_insert, or_iff_right hc]
      · rw [hsame.npc, Finset.mem_erase, and_iff_right hc]
    · intro pos hpos _
      rw [mem_seeing hnpc, and_iff_right honline]
      split_ifs with hsee
      · exact iff_of_true (Finset.mem_insert_self _ _) hsee
      · exact iff_of_false (Finset.notMem_erase _ _) hsee
    · intro hquiet
      refine ⟨?_, hplaced.notMem_seeing (by simp [hposition]) hquiet⟩
      rw [hsame.npc] at hquiet
      exact h.toPlaced.notMem_seeing (by simp) hquiet

theorem Inv.playerRemoved (h : Inv w) (hw' : w' = { w with online := w.online.erase player }) :
    Inv (w'.tell [w'.position player] (w'.onRemoveCreature player)) := by
  have hsame : SameOthers w w' player := by
    rw [hw']
    exact ⟨rfl, fun c hc => by rw [Finset.mem_erase, and_iff_right hc], fun _ _ => rfl,
      fun _ _ => rfl⟩
  have honline : player ∉ w'.online := by
    rw [hw']
    exact Finset.notMem_erase _ _
  have hplaced : Placed w' := hsame.placed h.toPlaced fun hmem => absurd hmem honline
  have hgone : player ∉ w'.seeing := fun hmem => honline (mem_seeing_iff.mp hmem).1
  refine hsame.inv h hplaced rfl ?_ ?_ ?_
  · intro c hc
    rw [hsame.npc, Finset.mem_erase, and_iff_right hc]
  · intro _ _ _
    exact iff_of_false (Finset.notMem_erase _ _) hgone
  · intro hquiet
    have hposition : w.position player = w'.position player := by rw [hw']
    rw [hsame.npc] at hquiet
    exact ⟨h.toPlaced.notMem_seeing (by simp [hposition]) hquiet, hgone⟩

theorem Inv.npcAppears (h : Inv w) (hnpc : w.npc.position = none)
    (hpos : pos.z.toNat < MAP_MAX_LAYERS) (hsighted : w.Sighted (.npcAppears pos))
    (hw' : w' = { w with npc := { w.npc with position := some pos } }) :
    Inv (w'.tell [pos] (w'.onAppear pos)) := by
  have hempty : w.npc.spectators = ∅ := by rw [h.spectators_eq, seeing, hnpc]
  have hplaced : Placed w' := by
    rw [hw']
    exact ⟨h.isRemoved, h.health, h.layer, fun _ hsome => Option.some.inj hsome ▸ hpos⟩
  have hsome : w'.npc.position = some pos := by rw [hw']
  refine hplaced.tell rfl (fun npcPos hnpcPos _ => ?_) fun hquiet => ?_
  · ext c
    rw [mem_seeing hsome]
    rw [hw', hempty, Finset.empty_union, getSpectators, Finset.mem_filter]
    refine and_congr_right fun hc => ⟨hsighted c hc, fun hsee => ?_⟩
    rw [hw'] at hplaced
    exact (hplaced.spectates_of_canSee rfl hc hsee).2
  · have hself : spectates pos pos :=
      spectates_of_near hpos hpos (by omega) (by omega) (by omega)
    exact absurd (by simpa using hself) (hquiet pos hsome)

theorem Inv.npcMoves (h : Inv w) (hnewPos : newPos.z.toNat < MAP_MAX_LAYERS)
    (hpos : w.npc.position = some pos) (hsighted : w.Sighted (.npcMoves newPos)) :
    Inv { w with npc := { w.npc with position := some newPos } } := by
  refine ⟨⟨h.isRemoved, h.health, h.layer, fun _ hsome => Option.some.inj hsome ▸ hnewPos⟩,
    ?_, h.isIdle_eq⟩
  ext c
  rw [h.spectators_eq, mem_seeing hpos, seeing, Finset.mem_filter]
  refine and_congr_right fun hc => ?_
  rw [← hsighted pos hpos c hc]
  rfl

theorem step_inv {event : NpcEvent} (h : Inv w) (hsighted : w.Sighted event)
    (hstep : w.apply event = some w') : Inv w' := by
  cases event with
  | playerAppears player pos client =>
    obtain ⟨hguard, hstep⟩ := Option.ite_none_left_eq_some.mp hstep
    obtain ⟨hplayer, hpos⟩ := not_or.mp hguard
    exact Option.some.inj hstep ▸ h.playerAppears hplayer (by omega) hsighted rfl
  | playerMoves player newPos =>
    obtain ⟨hguard, hstep⟩ := Option.ite_none_left_eq_some.mp hstep
    exact Option.some.inj hstep ▸ h.playerMoves (by omega) rfl
  | playerRemoved player =>
    obtain ⟨_, hstep⟩ := Option.ite_none_left_eq_some.mp hstep
    exact Option.some.inj hstep ▸ h.playerRemoved rfl
  | npcAppears pos =>
    obtain ⟨hguard, hstep⟩ := Option.ite_none_left_eq_some.mp hstep
    obtain ⟨hnpc, hpos⟩ := not_or.mp hguard
    exact Option.some.inj hstep ▸ h.npcAppears (by simpa using hnpc) (by omega) hsighted rfl
  | npcMoves newPos =>
    obtain ⟨hguard, hstep⟩ := Option.ite_none_left_eq_some.mp hstep
    obtain ⟨hnpc, hpos⟩ := not_or.mp hguard
    obtain ⟨pos, hnpc⟩ := Option.ne_none_iff_exists'.mp fun hnone =>
      hnpc (Option.isNone_iff_eq_none.mpr hnone)
    exact Option.some.inj hstep ▸ h.npcMoves (by omega) hnpc hsighted

theorem init_inv (h : Initial w) : Inv w := by
  obtain ⟨honline, health, hhealth, hnpc⟩ := h
  refine ⟨⟨by rw [hnpc], by rw [hnpc]; exact hhealth, fun c hc => ?_, fun pos hpos => ?_⟩, ?_, ?_⟩
  · rw [honline] at hc
    cases hc
  · rw [hnpc] at hpos
    cases hpos
  · rw [seeing, hnpc]
  · rw [hnpc]
    rfl

theorem Inv.lawful (h : Inv w) : SpectatorsLawful w where
  spectators_eq := h.spectators_eq
  isIdle_iff := by
    rw [h.isIdle_eq, decide_eq_true_eq, h.spectators_eq, Finset.eq_empty_iff_forall_notMem]
    simp only [mem_seeing_iff, not_and, not_exists, Bool.not_eq_true]
  online player hplayer := (mem_seeing_iff.mp (h.spectators_eq ▸ hplayer)).1

theorem spectators_lawful (h : Run.ReachableBy system Sighted w) : SpectatorsLawful w :=
  (h.invariant (fun _ => init_inv) fun _ _ _ => step_inv).lawful

/-- Nobody is online, and the npc is not placed. -/
def nobody : NpcWorld where
  position _ := ⟨0, 0, 0⟩
  client _ := false
  npc := { health := 100 }

/-- A player appears next to the npc, which makes a step before the player goes away. -/
theorem spectators_lawful_visited : ∃ w w' : NpcWorld,
    w.npc.spectators = {1} ∧ SpectatorsLawful w ∧ w'.npc.spectators = ∅ ∧ SpectatorsLawful w' := by
  have hstart : Run.ReachableBy system Sighted nobody := .init ⟨rfl, 100, by decide, rfl⟩
  have hnpc := hstart.step (i := NpcEvent.npcAppears ⟨100, 100, 7⟩)
    (fun _ hplayer => absurd hplayer (Finset.notMem_empty _)) rfl
  have hplayer := hnpc.step (i := NpcEvent.playerAppears 1 ⟨101, 101, 7⟩ true)
    (fun _ hpos => Option.some.inj hpos ▸ by decide) rfl
  have hstep := hplayer.step (i := NpcEvent.npcMoves ⟨99, 100, 7⟩)
    (fun _ hpos => Option.some.inj hpos ▸ by decide) rfl
  have hmove := hstep.step (i := NpcEvent.playerMoves 1 ⟨120, 100, 7⟩) trivial rfl
  exact ⟨_, _, by decide, spectators_lawful hstep, by decide, spectators_lawful hmove⟩

/-- The npc walks away from a player who saw it when appearing, and is told nothing when the
player goes offline. -/
theorem exists_removed_spectator : ∃ w, Run.Reachable system w ∧ ¬ SpectatorsLawful w := by
  have hstart : Run.Reachable system nobody := .init ⟨rfl, 100, by decide, rfl⟩
  have hnpc := hstart.step' (i := NpcEvent.npcAppears ⟨100, 100, 7⟩) rfl
  have hplayer := hnpc.step' (i := NpcEvent.playerAppears 1 ⟨91, 100, 7⟩ true) rfl
  have hfirst := hplayer.step' (i := NpcEvent.npcMoves ⟨101, 100, 7⟩) rfl
  have hsecond := hfirst.step' (i := NpcEvent.npcMoves ⟨102, 100, 7⟩) rfl
  have hthird := hsecond.step' (i := NpcEvent.npcMoves ⟨103, 100, 7⟩) rfl
  have hremoved := hthird.step' (i := NpcEvent.playerRemoved 1) rfl
  refine ⟨_, hremoved, fun h => ?_⟩
  exact absurd (h.online 1 (by decide)) (by decide)

end NpcWorld

end Eloth
