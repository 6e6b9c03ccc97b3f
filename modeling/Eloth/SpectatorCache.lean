import Eloth.Spectators

/-!
# The cached spectators

The map remembers, under the centre, what a search over the default range and several floors
found, in one cache for all creatures and in another one for players. The tiles clear the caches
whenever a creature comes or goes.
-/

namespace Eloth

abbrev maxViewportX : Int := 11
abbrev maxViewportY : Int := 11

structure CachedMap where
  map : Map
  spectatorCache : MapPosition → Option (List CreatureId)
  playersSpectatorCache : MapPosition → Option (List CreatureId)

structure SpectatorQuery where
  centerPos : MapPosition
  multifloor : Bool
  onlyPlayers : Bool
  minRangeX : Int
  maxRangeX : Int
  minRangeY : Int
  maxRangeY : Int

namespace SpectatorQuery

def floors (centerPos : MapPosition) (multifloor : Bool) : Int × Int :=
  let z : Int := centerPos.z.toNat
  if multifloor then
    if z > 7 then (max (z - 2) 0, min (z + 2) (MAP_MAX_LAYERS - 1))
    else if z = 6 then (0, 8)
    else if z = 7 then (0, 9)
    else (0, 7)
  else (z, z)

/-- The range of the search, where zero stands for the default. -/
def range (q : SpectatorQuery) : ScanRange where
  minRangeX := if q.minRangeX = 0 then -maxViewportX else -q.minRangeX
  maxRangeX := if q.maxRangeX = 0 then maxViewportX else q.maxRangeX
  minRangeY := if q.minRangeY = 0 then -maxViewportY else -q.minRangeY
  maxRangeY := if q.maxRangeY = 0 then maxViewportY else q.maxRangeY
  minRangeZ := (floors q.centerPos q.multifloor).1
  maxRangeZ := (floors q.centerPos q.multifloor).2

/-- Only these searches use the caches. -/
def cacheable (q : SpectatorQuery) : Bool :=
  q.range.minRangeX = -maxViewportX && q.range.maxRangeX = maxViewportX &&
    q.range.minRangeY = -maxViewportY && q.range.maxRangeY = maxViewportY && q.multifloor

end SpectatorQuery

def addSpectators (spectators added : List CreatureId) : List CreatureId :=
  added.foldl (fun spectators c => if c ∈ spectators then spectators else spectators ++ [c])
    spectators

namespace CachedMap

variable (isPlayer : CreatureId → Bool)

def empty : CachedMap := ⟨Map.empty, fun _ => none, fun _ => none⟩

def clearSpectatorCache (m : CachedMap) : CachedMap := { m with spectatorCache := fun _ => none }

def clearPlayersSpectatorCache (m : CachedMap) : CachedMap :=
  { m with playersSpectatorCache := fun _ => none }

/-- What a tile does before a creature enters it or after it left. -/
def clearCaches (m : CachedMap) (c : CreatureId) : CachedMap :=
  let m := m.clearSpectatorCache
  if isPlayer c then m.clearPlayersSpectatorCache else m

/-- What the caches know about a search. The flag tells whether the result is to be cached. -/
def findCached (m : CachedMap) (spectators : List CreatureId) (q : SpectatorQuery) :
    Option (List CreatureId) :=
  let merge (cached : List CreatureId) :=
    if spectators.isEmpty then cached else addSpectators spectators cached
  match (if q.onlyPlayers then m.playersSpectatorCache q.centerPos else none) with
  | some cached => some (merge cached)
  | none =>
    match m.spectatorCache q.centerPos with
    | none => none
    | some cached =>
      if q.onlyPlayers then some (spectators ++ cached.filter isPlayer) else some (merge cached)

def getSpectators (m : CachedMap) (spectators : List CreatureId) (q : SpectatorQuery) :
    CachedMap × List CreatureId :=
  if MAP_MAX_LAYERS ≤ q.centerPos.z.toNat then (m, spectators)
  else
    match (if q.cacheable then m.findCached isPlayer spectators q else none) with
    | some found => (m, found)
    | none =>
      let spectators :=
        m.map.getSpectatorsInternal spectators q.centerPos q.range q.onlyPlayers
      if q.cacheable then
        if q.onlyPlayers then
          ({ m with playersSpectatorCache :=
              Function.update m.playersSpectatorCache q.centerPos (some spectators) }, spectators)
        else
          ({ m with spectatorCache :=
              Function.update m.spectatorCache q.centerPos (some spectators) }, spectators)
      else (m, spectators)

def around (pos : MapPosition) : SpectatorQuery := ⟨pos, true, false, 0, 0, 0, 0⟩

/-- The caches after a tile lost a creature, if it held it. -/
def removeThing (m : CachedMap) (c : CreatureId) (pos : MapPosition) : CachedMap :=
  if c ∈ m.map.creatures pos then m.clearCaches isPlayer c else m

/-- An operation on the map with the searches it makes and the caches it clears. -/
def apply (m : CachedMap) : MapOp → CachedMap
  | .setTile x y z newTile => { m with map := m.map.setTile x y z newTile }
  | .placeCreature c dest =>
    let m := m.clearCaches isPlayer c
    { m with map := m.map.placeCreature isPlayer c dest }
  | .moveCreature c newPos =>
    match m.map.position c with
    | none => m
    | some oldPos =>
      let m := (m.getSpectators isPlayer [] (around oldPos)).1
      let m := (m.getSpectators isPlayer [] (around newPos)).1
      let m := m.removeThing isPlayer c oldPos
      let m := m.clearCaches isPlayer c
      { m with map := m.map.moveCreature isPlayer c oldPos newPos }
  | .removeCreature c =>
    match m.map.position c with
    | none => m
    | some pos =>
      let m := (m.getSpectators isPlayer [] (around pos)).1
      let m := m.removeThing isPlayer c pos
      { m with map := m.map.removeCreature isPlayer c pos }

end CachedMap

inductive CacheOp where
  | map (op : MapOp)
  | getSpectators (q : SpectatorQuery)

def cacheSystem (isPlayer : CreatureId → Bool) : Run.System CachedMap CacheOp where
  init m := m = CachedMap.empty
  step m op m' :=
    match op with
    | .map op => op.Allowed m.map ∧ m' = m.apply isPlayer op
    | .getSpectators q => m' = (m.getSpectators isPlayer [] q).1

namespace CachedMap

variable {isPlayer : CreatureId → Bool} {m : CachedMap}

def freshScan (isPlayer : CreatureId → Bool) (m : CachedMap) (q : SpectatorQuery) :
    List CreatureId :=
  (getSpectators isPlayer ⟨m.map, fun _ => none, fun _ => none⟩ [] q).2

def Current (isPlayer : CreatureId → Bool) (map : Map) (onlyPlayers : Bool) (pos : MapPosition)
    (l : List CreatureId) : Prop :=
  ∀ c, c ∈ l ↔ map.Spectates isPlayer pos (around pos).range onlyPlayers c

/-- Every cached result is what a search finds now. -/
structure Sound (isPlayer : CreatureId → Bool) (m : CachedMap) : Prop where
  inv : m.map.Inv isPlayer
  all : ∀ {pos l}, m.spectatorCache pos = some l → Current isPlayer m.map false pos l
  players : ∀ {pos l}, m.playersSpectatorCache pos = some l → Current isPlayer m.map true pos l

theorem range_of_cacheable {q : SpectatorQuery} (h : q.cacheable) :
    q.range = (around q.centerPos).range := by
  simp only [SpectatorQuery.cacheable, Bool.and_eq_true, decide_eq_true_eq] at h
  obtain ⟨⟨⟨⟨h₁, h₂⟩, h₃⟩, h₄⟩, hfloors⟩ := h
  refine ScanRange.ext h₁ h₂ h₃ h₄ ?_ ?_
  · simp only [SpectatorQuery.range, hfloors, around]
  · simp only [SpectatorQuery.range, hfloors, around]

theorem spectates_players (map : Map) (pos : MapPosition) (r : ScanRange) (c : CreatureId) :
    map.Spectates isPlayer pos r true c ↔ map.Spectates isPlayer pos r false c ∧ isPlayer c := by
  constructor
  · rintro ⟨p, hp, htest, hplayer⟩
    exact ⟨⟨p, hp, htest, nofun⟩, hplayer rfl⟩
  · rintro ⟨⟨p, hp, htest, -⟩, hplayer⟩
    exact ⟨p, hp, htest, fun _ => hplayer⟩

theorem Sound.findCached (h : Sound isPlayer m) {q : SpectatorQuery} (hq : q.cacheable)
    {found : List CreatureId} (hfound : m.findCached isPlayer [] q = some found)
    (c : CreatureId) :
    c ∈ found ↔ m.map.Spectates isPlayer q.centerPos q.range q.onlyPlayers c := by
  rw [range_of_cacheable hq]
  simp only [CachedMap.findCached, List.isEmpty_nil, if_true, List.nil_append] at hfound
  cases honly : q.onlyPlayers with
  | false =>
    simp only [honly, Bool.false_eq_true, if_false] at hfound
    cases hall : m.spectatorCache q.centerPos with
    | none => simp [hall] at hfound
    | some cached =>
      simp only [hall, Option.some.injEq] at hfound
      rw [← hfound]
      exact h.all hall c
  | true =>
    simp only [honly, if_true] at hfound
    cases hplayers : m.playersSpectatorCache q.centerPos with
    | some cached =>
      simp only [hplayers, Option.some.injEq] at hfound
      rw [← hfound]
      exact h.players hplayers c
    | none =>
      cases hall : m.spectatorCache q.centerPos with
      | none => simp [hplayers, hall] at hfound
      | some cached =>
        simp only [hplayers, hall, Option.some.injEq] at hfound
        rw [← hfound, List.mem_filter, h.all hall c, spectates_players]

theorem getSpectators_map (spectators : List CreatureId) (q : SpectatorQuery) :
    (m.getSpectators isPlayer spectators q).1.map = m.map := by
  simp only [getSpectators]
  split_ifs
  · rfl
  all_goals split <;> rfl

theorem Sound.mem_getSpectators (h : Sound isPlayer m) (q : SpectatorQuery)
    (hz : ¬MAP_MAX_LAYERS ≤ q.centerPos.z.toNat) (c : CreatureId) :
    c ∈ (m.getSpectators isPlayer [] q).2 ↔
      m.map.Spectates isPlayer q.centerPos q.range q.onlyPlayers c := by
  have hscan := (Map.lists_getSpectatorsInternal h.inv q.centerPos q.range q.onlyPlayers).2 c
  simp only [getSpectators, if_neg hz]
  split
  next found hfound =>
    split_ifs at hfound with hq
    exact h.findCached hq hfound c
  next => split_ifs <;> exact hscan

theorem entry_update {cache : MapPosition → Option (List CreatureId)}
    {P : MapPosition → List CreatureId → Prop} (h : ∀ {pos l}, cache pos = some l → P pos l)
    {centerPos : MapPosition} {found : List CreatureId} (hfound : P centerPos found)
    {pos : MapPosition} {l : List CreatureId}
    (hl : Function.update cache centerPos (some found) pos = some l) : P pos l := by
  rw [Function.update_apply] at hl
  split_ifs at hl with hpos
  · cases hl
    rwa [hpos]
  · exact h hl

theorem Sound.getSpectators (h : Sound isPlayer m) (q : SpectatorQuery) :
    Sound isPlayer (m.getSpectators isPlayer [] q).1 := by
  have hscan := fun c =>
    (Map.lists_getSpectatorsInternal h.inv q.centerPos q.range q.onlyPlayers).2 c
  simp only [CachedMap.getSpectators]
  split_ifs with hz hq honly
  · exact h
  · split
    · exact h
    · rw [range_of_cacheable hq, honly] at hscan
      refine ⟨h.inv, h.all, fun hl => entry_update (P := Current isPlayer m.map true) h.players ?_ hl⟩
      rw [range_of_cacheable hq, honly]
      exact hscan
  · split
    · exact h
    · rw [Bool.not_eq_true] at honly
      rw [range_of_cacheable hq, honly] at hscan
      refine ⟨h.inv, fun hl => entry_update (P := Current isPlayer m.map false) h.all ?_ hl, h.players⟩
      rw [range_of_cacheable hq, honly]
      exact hscan
  · exact h

theorem clearCaches_map (c : CreatureId) : (m.clearCaches isPlayer c).map = m.map := by
  simp only [clearCaches]
  split_ifs <;> rfl

theorem Sound.clearCaches (h : Sound isPlayer m) {c : CreatureId} {map : Map}
    (hinv : map.Inv isPlayer) (hpos : ∀ d, d ≠ c → map.position d = m.map.position d) :
    Sound isPlayer { m.clearCaches isPlayer c with map := map } := by
  refine ⟨hinv, fun {pos l} hl => ?_, fun {pos l} hl d => ?_⟩
  · simp only [CachedMap.clearCaches] at hl
    split_ifs at hl <;> cases hl
  · simp only [CachedMap.clearCaches] at hl
    split_ifs at hl with hplayer
    · cases hl
    · rw [h.players hl d]
      by_cases hd : d = c
      · subst hd
        simp [spectates_players, hplayer]
      · simp only [Map.Spectates, hpos d hd]

theorem Sound.clear (h : Sound isPlayer m) (c : CreatureId) :
    Sound isPlayer (m.clearCaches isPlayer c) := by
  have heq : { m.clearCaches isPlayer c with map := m.map } = m.clearCaches isPlayer c := by
    simp only [CachedMap.clearCaches]
    split_ifs <;> rfl
  rw [← heq]
  exact h.clearCaches h.inv fun _ _ => rfl

theorem removeThing_eq (h : Sound isPlayer m) {c : CreatureId} {pos : MapPosition}
    (hc : m.map.position c = some pos) :
    m.removeThing isPlayer c pos = m.clearCaches isPlayer c :=
  if_pos (((h.inv.vectors pos).2 c).mpr hc)

theorem Sound.apply (h : Sound isPlayer m) {op : MapOp} (hop : op.Allowed m.map) :
    Sound isPlayer (m.apply isPlayer op) := by
  have hinv := h.inv.apply hop
  cases op with
  | setTile x y z newTile =>
    refine ⟨hinv, fun {pos l} hl d => ?_, fun {pos l} hl d => ?_⟩
    · rw [h.all hl d]
      simp only [Map.Spectates, CachedMap.apply, Map.setTile_position]
    · rw [h.players hl d]
      simp only [Map.Spectates, CachedMap.apply, Map.setTile_position]
  | placeCreature c dest =>
    simp only [CachedMap.apply, clearCaches_map]
    refine h.clearCaches hinv fun d hd => ?_
    simp [Map.placeCreature, hd]
  | moveCreature c newPos =>
    obtain ⟨oldPos, hc⟩ := Option.isSome_iff_exists.mp hop.1
    simp only [MapOp.apply, hc] at hinv
    simp only [CachedMap.apply, hc]
    have hmap : ((m.getSpectators isPlayer [] (around oldPos)).1.getSpectators isPlayer []
        (around newPos)).1.map = m.map := by rw [getSpectators_map, getSpectators_map]
    have hsearch := (h.getSpectators (around oldPos)).getSpectators (around newPos)
    generalize ((m.getSpectators isPlayer [] (around oldPos)).1.getSpectators isPlayer []
      (around newPos)).1 = m₁ at hsearch hmap
    rw [removeThing_eq hsearch (hmap ▸ hc), clearCaches_map, clearCaches_map, hmap]
    refine (hsearch.clear c).clearCaches hinv fun d hd => ?_
    rw [clearCaches_map, hmap, Map.moveCreature_position, Function.update_of_ne hd]
  | removeCreature c =>
    obtain ⟨pos, hc⟩ := Option.isSome_iff_exists.mp hop
    simp only [MapOp.apply, hc] at hinv
    simp only [CachedMap.apply, hc]
    have hmap : (m.getSpectators isPlayer [] (around pos)).1.map = m.map :=
      getSpectators_map [] (around pos)
    have hsearch := h.getSpectators (around pos)
    generalize (m.getSpectators isPlayer [] (around pos)).1 = m₁ at hsearch hmap
    rw [removeThing_eq hsearch (hmap ▸ hc), clearCaches_map, hmap]
    refine hsearch.clearCaches hinv fun d hd => ?_
    rw [hmap, Map.removeCreature_position, Function.update_of_ne hd]

theorem sound_of_reachable (h : Run.Reachable (cacheSystem isPlayer) m) : Sound isPlayer m := by
  refine h.invariant (fun m hm => ?_) fun m op m' hm hstep => ?_
  · rw [hm]
    exact ⟨Map.inv_empty, nofun, nofun⟩
  · cases op with
    | map op =>
      rw [hstep.2]
      exact hm.apply hstep.1
    | getSpectators q =>
      have hq : m' = (m.getSpectators isPlayer [] q).1 := hstep
      rw [hq]
      exact hm.getSpectators q

/-- In every run, a search finds the creatures that it would find without the caches. -/
theorem getSpectators_eq_freshScan (h : Run.Reachable (cacheSystem isPlayer) m)
    (q : SpectatorQuery) (c : CreatureId) :
    c ∈ (m.getSpectators isPlayer [] q).2 ↔ c ∈ freshScan isPlayer m q := by
  have hsound := sound_of_reachable h
  have hfresh : Sound isPlayer ⟨m.map, fun _ => none, fun _ => none⟩ :=
    ⟨hsound.inv, nofun, nofun⟩
  by_cases hz : MAP_MAX_LAYERS ≤ q.centerPos.z.toNat
  · simp only [freshScan, getSpectators, if_pos hz]
  · rw [hsound.mem_getSpectators q hz, freshScan, hfresh.mem_getSpectators q hz]

theorem reachable_apply (h : Run.Reachable (cacheSystem isPlayer) m) {op : MapOp}
    (hop : op.Allowed m.map) : Run.Reachable (cacheSystem isPlayer) (m.apply isPlayer op) :=
  Run.ReachableBy.step (i := .map op) h trivial ⟨hop, rfl⟩

theorem reachable_getSpectators (h : Run.Reachable (cacheSystem isPlayer) m)
    (q : SpectatorQuery) :
    Run.Reachable (cacheSystem isPlayer) (m.getSpectators isPlayer [] q).1 :=
  Run.ReachableBy.step (i := .getSpectators q) h trivial rfl

theorem getSpectators_eq_freshScan_cached :
    ∃ m, Run.Reachable (cacheSystem fun c => c == 5) m ∧
      (m.spectatorCache ⟨8, 7, 7⟩).isSome ∧
      ∀ c, c ∈ (m.getSpectators (fun c => c == 5) [] ⟨⟨8, 7, 7⟩, true, true, 0, 11, 0, 0⟩).2 ↔
        c ∈ freshScan (fun c => c == 5) m ⟨⟨8, 7, 7⟩, true, true, 0, 11, 0, 0⟩ := by
  have h₀ : Run.Reachable (cacheSystem fun c => c == 5) empty := .init rfl
  have htile : (MapOp.setTile 8 7 7 0).Allowed empty.map := by
    intro x y z
    rw [empty, Map.getTile_eq, Map.getLeaf_empty]
    simp
  have hplace : (MapOp.placeCreature 5 ⟨8, 7, 7⟩).Allowed
      (empty.apply (fun c => c == 5) (.setTile 8 7 7 0)).map := ⟨rfl, rfl⟩
  have h₂ := reachable_apply (reachable_apply h₀ htile) hplace
  have h₃ := reachable_getSpectators h₂ (around ⟨8, 7, 7⟩)
  exact ⟨_, h₃, rfl, getSpectators_eq_freshScan h₃ _⟩

end CachedMap

end Eloth
