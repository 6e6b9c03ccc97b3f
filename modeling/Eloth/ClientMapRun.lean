import Eloth.ClientMap

/-!
# Runs of a map with its clients

Every change of the map is told to the spectators around it, and these are all who can see it. So
each client shows, at every moment, the map as it is wherever its player can see.
-/

namespace Eloth

open MapDescription

variable {τ : Type} {env : MapEnv} {s s' : ServedMap τ} {viewer c : CreatureId}
  {v v' : ClientMap τ} {pos oldPos newPos myPos : MapPosition}

/-! ## The spectators of a change -/

theorem floors_of_canSee (hfloor : pos.z.toNat < MAP_MAX_LAYERS)
    (hmine : myPos.z.toNat < MAP_MAX_LAYERS) (hsee : canSee myPos.cell pos.cell) :
    (SpectatorQuery.floors pos true).1 ≤ myPos.z.toNat ∧
      (myPos.z.toNat : Int) ≤ (SpectatorQuery.floors pos true).2 := by
  rw [canSee_iff] at hsee
  simp only [MapPosition.cell] at hsee
  simp only [MAP_MAX_LAYERS] at hfloor hmine
  simp only [SpectatorQuery.floors, if_true, MAP_MAX_LAYERS]
  by_cases hunder : (pos.z.toNat : Int) > 7
  · rw [if_pos hunder]
    omega
  · rw [if_neg hunder]
    by_cases h6 : (pos.z.toNat : Int) = 6
    · rw [if_pos h6]
      omega
    · rw [if_neg h6]
      by_cases h7 : (pos.z.toNat : Int) = 7
      · rw [if_pos h7]
        omega
      · rw [if_neg h7]
        omega

theorem contains_of_canSee (hfloor : pos.z.toNat < MAP_MAX_LAYERS)
    (hmine : myPos.z.toNat < MAP_MAX_LAYERS) (hsee : canSee myPos.cell pos.cell) :
    (CachedMap.around pos).range.contains pos myPos := by
  have hfloors := floors_of_canSee hfloor hmine hsee
  rw [canSee_iff] at hsee
  simp only [MapPosition.cell] at hsee
  rw [Map.contains_iff]
  simp only [SpectatorQuery.range, CachedMap.around, if_true, maxViewportX, maxViewportY]
  exact ⟨hfloors, by omega⟩

theorem floor_of_position (hinv : s.cached.map.Inv env.isPlayer)
    (hposition : s.position c = some pos) : pos.z.toNat < MAP_MAX_LAYERS := by
  by_contra hz
  have hstands := hinv.standing hposition
  rw [Map.getTile, if_pos (not_lt.mp hz)] at hstands
  cases hstands

theorem mem_getSpectators_of_canSee {m : CachedMap} (h : CachedMap.Sound env.isPlayer m)
    (hposition : m.map.position viewer = some myPos) (hfloor : pos.z.toNat < MAP_MAX_LAYERS)
    (hsee : canSee myPos.cell pos.cell) (onlyPlayers : Bool)
    (hplayer : onlyPlayers → env.isPlayer viewer) :
    viewer ∈ (m.getSpectators env.isPlayer []
      { CachedMap.around pos with onlyPlayers := onlyPlayers }).2 := by
  have hmine : myPos.z.toNat < MAP_MAX_LAYERS :=
    floor_of_position (s := ⟨m, fun _ => (), fun _ => ⟨(0, 0, 0), fun _ => none, fun _ => none⟩⟩)
      h.inv hposition
  exact (h.mem_getSpectators _ (not_le.mpr hfloor) viewer).mpr
    ⟨myPos, hposition, contains_of_canSee hfloor hmine hsee, hplayer⟩

theorem mem_addSpectators {spectators added : List CreatureId} :
    c ∈ addSpectators spectators added ↔ c ∈ spectators ∨ c ∈ added := by
  unfold addSpectators
  induction added generalizing spectators with
  | nil => simp
  | cons d added ih =>
    rw [List.foldl_cons, ih]
    split_ifs with hd
    · simp only [List.mem_cons]
      constructor
      · rintro (h | h)
        · exact .inl h
        · exact .inr (.inr h)
      · rintro (h | rfl | h)
        · exact .inl h
        · exact .inl hd
        · exact .inr h
    · rw [List.mem_append, List.mem_singleton, List.mem_cons, or_assoc]

theorem mem_moveSpectators_of_canSee (h : CachedMap.Sound env.isPlayer s.cached)
    (hposition : s.position viewer = some myPos)
    (hold : oldPos.z.toNat < MAP_MAX_LAYERS) (hnew : newPos.z.toNat < MAP_MAX_LAYERS)
    (hsee : canSee myPos.cell oldPos.cell ∨ canSee myPos.cell newPos.cell) :
    viewer ∈ s.moveSpectators env oldPos newPos := by
  rw [ServedMap.moveSpectators, mem_addSpectators]
  refine hsee.imp (fun hsee => ?_) fun hsee => ?_
  · exact mem_getSpectators_of_canSee h hposition hold hsee false Bool.false_ne_true.elim
  · exact mem_getSpectators_of_canSee (h.getSpectators _)
      ((congrArg (fun m : Map => m.position viewer) (CachedMap.getSpectators_map _ _)).trans
        hposition) hnew hsee false Bool.false_ne_true.elim

/-! ## What a message changes -/

theorem canSee_self (position : Cell) : canSee position position := by
  rw [canSee_iff]
  omega

theorem canSeePos_iff (hposition : s.position viewer = some myPos) :
    s.canSeePos viewer pos = canSee myPos.cell pos.cell := by
  rw [ServedMap.canSeePos, hposition]
  rfl

/-- Another place for one creature, with all else as it was. -/
structure Moves (c : CreatureId) (place : Option MapPosition) (v v' : ClientMap τ) : Prop where
  position : v'.position = v.position
  tiles : v'.tiles = v.tiles
  creature : v'.creatures c = place
  others : ∀ d, d ≠ c → v'.creatures d = v.creatures d

theorem Moves.refl (v : ClientMap τ) (c : CreatureId) : Moves c (v.creatures c) v v :=
  ⟨rfl, rfl, rfl, fun _ _ => rfl⟩

theorem moves_update (v : ClientMap τ) (c : CreatureId) (place : Option MapPosition) :
    Moves c place v { v with creatures := Function.update v.creatures c place } :=
  ⟨rfl, rfl, Function.update_self .., fun _ hd => Function.update_of_ne hd ..⟩

theorem Moves.update {place place' : Option MapPosition} (h : Moves c place v v') :
    Moves c place' v { v' with creatures := Function.update v'.creatures c place' } :=
  ⟨h.position, h.tiles, Function.update_self ..,
    fun d hd => (Function.update_of_ne hd ..).trans (h.others d hd)⟩

theorem moves_sendMoveCreature (hother : c ≠ viewer) (teleport : Bool) :
    Moves c (if s.canSeePos viewer newPos then some newPos
        else if s.canSeePos viewer oldPos then none else v.creatures c) v
      ((s.sendMoveCreature env viewer c newPos oldPos teleport).foldl ClientMap.receive v) := by
  unfold ServedMap.sendMoveCreature
  rw [if_neg hother]
  cases hold : s.canSeePos viewer oldPos <;> cases hnew : s.canSeePos viewer newPos
  · exact .refl v c
  · simp only [Bool.and_true, Bool.false_eq_true, if_false, if_true, ServedMap.sendAddCreature,
      hnew, Bool.not_true, ne_eq, hother, not_false_eq_true]
    exact moves_update v c _
  · simp only [Bool.and_false, Bool.false_eq_true, if_false, if_true,
      ServedMap.sendRemoveTileCreature, hold]
    exact moves_update v c _
  · simp only [Bool.and_true, if_true]
    split_ifs
    · simp only [ServedMap.sendRemoveTileCreature, ServedMap.sendAddCreature, hold, hnew, if_true,
        Bool.not_true, Bool.false_eq_true, if_false, ne_eq, hother, not_false_eq_true]
      exact (moves_update v c none).update
    · exact moves_update v c _

/-! ## One step -/

/-- The server moved one creature, and a client moved it as well as far as its player can see. -/
theorem Agrees.of_moves {place : Option MapPosition} (h : Agrees env s viewer v pos)
    (hcontent : s'.contentAt pos = s.contentAt pos)
    (hothers : ∀ d, d ≠ c → s'.position d = s.position d) (hmoves : Moves c place v v')
    (hplace : env.canSeeCreature viewer c → (place = some pos ↔ s'.position c = some pos)) :
    Agrees env s' viewer v' pos where
  tile := by rw [hmoves.tiles, h.tile, hcontent]
  creature d hd := by
    obtain rfl | hne := eq_or_ne d c
    · rw [hmoves.creature, hplace hd]
    · rw [hmoves.others d hne, h.creature d hd, hothers d hne]

theorem CurrentAt.of_moves {place : Option MapPosition}
    (h : CurrentAt env s viewer myPos.cell v)
    (hcontent : ∀ pos, s'.contentAt pos = s.contentAt pos)
    (hothers : ∀ d, d ≠ c → s'.position d = s.position d) (hmoves : Moves c place v v')
    (hplace : env.canSeeCreature viewer c → ∀ pos, pos.z.toNat < MAP_MAX_LAYERS →
      canSee myPos.cell pos.cell → (place = some pos ↔ s'.position c = some pos)) :
    CurrentAt env s' viewer myPos.cell v' := by
  obtain ⟨hposition, hcurrent⟩ := h
  refine ⟨hmoves.position.trans hposition, fun pos hz hsee => ?_⟩
  rw [hmoves.position, hposition] at hsee
  exact (hcurrent pos hz (hposition ▸ hsee)).of_moves (hcontent pos) hothers hmoves
    fun hc => hplace hc pos hz hsee

theorem CurrentAt.of_same (h : CurrentAt env s viewer myPos.cell v)
    (hcontent : ∀ pos, s'.contentAt pos = s.contentAt pos)
    (hpositions : ∀ d, s'.position d = s.position d) : CurrentAt env s' viewer myPos.cell v := by
  refine ⟨h.1, fun pos hz hsee => ?_⟩
  obtain ⟨htile, hcreature⟩ := h.2 pos hz hsee
  exact ⟨htile.trans (hcontent pos).symm, fun d hd => by rw [hcreature d hd, hpositions d]⟩

theorem apply_map (m : CachedMap) (op : MapOp) :
    (m.apply env.isPlayer op).map = op.apply env.isPlayer m.map := by
  have hremove (m : CachedMap) (c : CreatureId) (pos : MapPosition) :
      (m.removeThing env.isPlayer c pos).map = m.map := by
    unfold CachedMap.removeThing
    split_ifs
    · exact CachedMap.clearCaches_map c
    · rfl
  cases op with
  | setTile x y z t => rfl
  | placeCreature c dest => simp only [CachedMap.apply, MapOp.apply, CachedMap.clearCaches_map]
  | moveCreature c newPos =>
    cases hc : m.map.position c with
    | none => simp only [CachedMap.apply, MapOp.apply, hc]
    | some oldPos =>
      simp only [CachedMap.apply, MapOp.apply, hc, CachedMap.clearCaches_map, hremove,
        CachedMap.getSpectators_map]
  | removeCreature c =>
    cases hc : m.map.position c with
    | none => simp only [CachedMap.apply, MapOp.apply, hc]
    | some pos =>
      simp only [CachedMap.apply, MapOp.apply, hc, hremove, CachedMap.getSpectators_map]

theorem clients_send {spectators : List CreatureId}
    {messages : CreatureId → List (MapMessage τ)} (hplayer : env.isPlayer viewer)
    (htold : viewer ∈ spectators ∨ messages viewer = []) :
    (s.send env spectators messages).clients viewer =
      (messages viewer).foldl ClientMap.receive (s.clients viewer) := by
  simp only [ServedMap.send, hplayer, true_and]
  split_ifs with hmem
  · rfl
  · rw [htold.resolve_left hmem]
    rfl

/-- The map after an operation, before anybody is told. -/
abbrev ServedMap.operate (env : MapEnv) (s : ServedMap τ) (op : MapOp) : ServedMap τ :=
  { s with cached := s.cached.apply env.isPlayer op }

theorem contentAt_operate (env : MapEnv) (s : ServedMap τ) (op : MapOp)
    (hop : ∀ x y z t, op ≠ .setTile x y z t) (pos : MapPosition) :
    (s.operate env op).contentAt pos = s.contentAt pos := by
  simp only [ServedMap.contentAt, apply_map, Map.getTile_apply op hop]

theorem position_operate (op : MapOp) (d : CreatureId) :
    (s.operate env op).position d = (op.apply env.isPlayer s.cached.map).position d := by
  rw [ServedMap.position, apply_map]

/-- The client of the player who moves. -/
theorem currentAt_ownMove (hinv : s'.cached.map.Inv env.isPlayer)
    (h : CurrentAt env s c oldPos.cell v) (hcontent : ∀ pos, s'.contentAt pos = s.contentAt pos)
    (hothers : ∀ d, d ≠ c → s'.position d = s.position d) (hmoved : s'.position c = some newPos)
    {teleport : Bool} (hadjacent : teleport = false → Adjacent newPos.toPosition oldPos.toPosition) :
    CurrentAt env s' c newPos.cell
      ((s'.sendMoveCreature env c c newPos oldPos teleport).foldl ClientMap.receive v) := by
  unfold ServedMap.sendMoveCreature
  rw [if_pos rfl]
  cases teleport with
  | true =>
    rw [if_pos rfl, List.foldl_append]
    exact ⟨position_fill _ _, current_mapDescription hinv newPos⟩
  | false =>
    rw [if_neg Bool.false_ne_true, List.foldl_append]
    refine currentAt_sendEdges hinv ?_ (hadjacent rfl)
    split_ifs with hfall
    · -- Nothing below the ground is in view from the old position.
      refine h.of_moves hcontent hothers (moves_update v c none) fun _ pos _ hsee => ?_
      rw [hmoved, Option.some_inj]
      simp only [reduceCtorEq, false_iff]
      rintro rfl
      rw [canSee_iff] at hsee
      simp only [MapPosition.cell, hfall.1] at hsee
      have hbelow : 8 ≤ newPos.z.toNat := UInt8.le_iff_toNat_le.mp hfall.2
      have hground : (7 : UInt8).toNat = 7 := rfl
      omega
    · refine h.of_moves hcontent hothers (moves_update v c (some newPos)) fun _ pos _ _ => ?_
      rw [hmoved]

theorem adjacent_of_areInRange (h : ServedMap.areInRange oldPos newPos) :
    Adjacent newPos.toPosition oldPos.toPosition := by
  simp only [ServedMap.areInRange, Bool.and_eq_true, decide_eq_true_eq] at h
  simp only [Adjacent, MapPosition.toPosition]
  omega

/-- Every client is right about all that its player can see. -/
structure Synced (env : MapEnv) (s : ServedMap τ) : Prop where
  sound : CachedMap.Sound env.isPlayer s.cached
  current : ∀ {viewer myPos}, env.isPlayer viewer → s.position viewer = some myPos →
    CurrentAt env s viewer myPos.cell (s.clients viewer)

theorem synced_send {cached : CachedMap} (hsound : CachedMap.Sound env.isPlayer cached)
    (hmap : cached.map = s.cached.map) {spectators : List CreatureId}
    {messages : CreatureId → List (MapMessage τ)}
    (htold : ∀ viewer myPos, env.isPlayer viewer → s.position viewer = some myPos →
      (viewer ∈ spectators ∨ messages viewer = []) ∧ CurrentAt env s viewer myPos.cell
        ((messages viewer).foldl ClientMap.receive (s.clients viewer))) :
    Synced env ({ s with cached := cached }.send env spectators messages) := by
  refine ⟨hsound, fun {viewer myPos} hplayer hposition => ?_⟩
  have hpositions (d : CreatureId) : cached.map.position d = s.position d := by
    rw [hmap]
    rfl
  obtain ⟨hreached, hcurrent⟩ :=
    htold viewer myPos hplayer ((hpositions viewer).symm.trans hposition)
  rw [clients_send hplayer hreached]
  exact hcurrent.of_same (fun pos => by simp only [ServedMap.contentAt, ServedMap.send, hmap])
    hpositions

namespace Synced

variable (h : Synced env s)

include h

theorem getSpectators (q : SpectatorQuery) :
    Synced env { s with cached := (s.cached.getSpectators env.isPlayer [] q).1 } := by
  have hmap : (s.cached.getSpectators env.isPlayer [] q).1.map = s.cached.map :=
    CachedMap.getSpectators_map [] q
  refine ⟨h.sound.getSpectators q, fun {viewer myPos} hplayer hposition => ?_⟩
  have hpositions (d : CreatureId) :
      (s.cached.getSpectators env.isPlayer [] q).1.map.position d = s.position d := by
    rw [hmap]
    rfl
  refine (h.current hplayer ((hpositions viewer).symm.trans hposition)).of_same (fun pos => ?_)
    hpositions
  simp only [ServedMap.contentAt, hmap]

theorem placeCreature {dest : MapPosition}
    (hop : (MapOp.placeCreature c dest).Allowed s.cached.map) :
    Synced env (s.placeCreature env c dest) := by
  have hsound := h.sound.apply hop
  have hplaced (d : CreatureId) : (s.operate env (.placeCreature c dest)).position d =
      Function.update s.position c (some dest) d := by
    rw [position_operate, MapOp.apply, Map.placeCreature_position]
    rfl
  have hcontent := contentAt_operate env s (.placeCreature c dest) (by intro x y z t h; cases h)
  have hfloor : dest.z.toNat < MAP_MAX_LAYERS :=
    floor_of_position (s := s.operate env (.placeCreature c dest)) hsound.inv
      ((hplaced c).trans (Function.update_self ..))
  refine synced_send (s := s.operate env (.placeCreature c dest)) (hsound.getSpectators _)
    (CachedMap.getSpectators_map _ _) fun viewer myPos hplayer hposition => ?_
  refine ⟨?_, ?_⟩
  · by_cases hsee : canSee myPos.cell dest.cell
    · exact .inl (mem_getSpectators_of_canSee hsound hposition hfloor hsee false Bool.false_ne_true.elim)
    · right
      simp [ServedMap.sendAddCreature, canSeePos_iff hposition, hsee]
  · rw [ServedMap.sendAddCreature, canSeePos_iff hposition]
    obtain rfl | hother := eq_or_ne viewer c
    · rw [hplaced, Function.update_self] at hposition
      cases hposition
      rw [canSee_self]
      simp only [Bool.not_true, Bool.false_eq_true, if_false, ne_eq, not_true_eq_false,
        List.foldl_cons, List.foldl_nil]
      exact ⟨position_fill _ _, current_mapDescription hsound.inv dest⟩
    · have hbefore : s.position viewer = some myPos := by
        rw [← hposition, hplaced, Function.update_of_ne hother]
      have hmine := h.current hplayer hbefore
      have hothers (d : CreatureId) (hd : d ≠ c) :
          (s.operate env (.placeCreature c dest)).position d = s.position d := by
        rw [hplaced, Function.update_of_ne hd]
      cases hsee : canSee myPos.cell dest.cell with
      | true =>
        simp only [Bool.not_true, Bool.false_eq_true, if_false, ne_eq, hother.symm,
          not_false_eq_true, if_true]
        refine hmine.of_moves hcontent hothers (moves_update _ c (some dest)) fun _ pos _ _ => ?_
        rw [hplaced, Function.update_self]
      | false =>
        simp only [Bool.not_false, if_true]
        refine hmine.of_moves hcontent hothers (.refl _ c) fun hc pos hz hpos => ?_
        rw [hplaced, Function.update_self, (hmine.2 pos hz (hmine.1 ▸ hpos)).creature c hc]
        have habsent : s.position c = none := hop.1
        simp only [habsent, reduceCtorEq, Option.some_inj, false_iff]
        rintro rfl
        rw [hsee] at hpos
        cases hpos

theorem removeCreature (hop : (ServedOp.removeCreature c : ServedOp τ).Allowed env s) :
    Synced env (s.removeCreature env c) := by
  obtain ⟨hstands, htold⟩ := hop
  have hsound := h.sound.apply hstands
  obtain ⟨pos, hpos⟩ := Option.isSome_iff_exists.mp hstands
  have hposition : s.position c = some pos := hpos
  have hfloor := floor_of_position h.sound.inv hposition
  have hremoved (d : CreatureId) : (s.operate env (.removeCreature c)).position d =
      Function.update s.position c none d := by
    rw [position_operate]
    simp only [MapOp.apply, hpos, Map.removeCreature_position]
    rfl
  have hcontent := contentAt_operate env s (.removeCreature c) (by intro x y z t h; cases h)
  simp only [ServedMap.removeCreature, hposition]
  refine synced_send (s := s.operate env (.removeCreature c)) hsound rfl
    fun viewer myPos hplayer hmine => ?_
  have hother : viewer ≠ c := by
    rintro rfl
    rw [hremoved, Function.update_self] at hmine
    cases hmine
  have hbefore : s.position viewer = some myPos := by
    rw [← hmine, hremoved, Function.update_of_ne hother]
  have hothers (d : CreatureId) (hd : d ≠ c) :
      (s.operate env (.removeCreature c)).position d = s.position d := by
    rw [hremoved, Function.update_of_ne hd]
  have hcurrent := h.current hplayer hbefore
  rw [ServedMap.sendRemoveTileCreature, canSeePos_iff hmine]
  cases hsee : canSee myPos.cell pos.cell with
  | true =>
    have hmem : viewer ∈ s.spectators env pos :=
      mem_getSpectators_of_canSee h.sound hbefore hfloor hsee false Bool.false_ne_true.elim
    refine ⟨.inl hmem, ?_⟩
    simp only [htold pos hposition viewer hmem hplayer, if_true]
    refine hcurrent.of_moves hcontent hothers (moves_update _ c none) fun _ q _ _ => ?_
    rw [hremoved, Function.update_self]
  | false =>
    simp only [Bool.false_eq_true, if_false, ite_self]
    refine ⟨.inr trivial, ?_⟩
    refine hcurrent.of_moves hcontent hothers (.refl _ c) fun hc q hz hq => ?_
    rw [hremoved, Function.update_self, (hcurrent.2 q hz (hcurrent.1 ▸ hq)).creature c hc,
      hposition]
    simp only [Option.some_inj, reduceCtorEq, iff_false]
    rintro rfl
    rw [hsee] at hq
    cases hq

theorem moveCreature (forceTeleport : Bool)
    (hop : (MapOp.moveCreature c newPos).Allowed s.cached.map) :
    Synced env (s.moveCreature env c newPos forceTeleport) := by
  have hsound := h.sound.apply hop
  obtain ⟨oldPos, hold⟩ := Option.isSome_iff_exists.mp hop.1
  have hposition : s.position c = some oldPos := hold
  have hplaced (d : CreatureId) : (s.operate env (.moveCreature c newPos)).position d =
      Function.update s.position c (some newPos) d := by
    rw [position_operate]
    simp only [MapOp.apply, hold, Map.moveCreature_position]
    rfl
  have hmoved : (s.operate env (.moveCreature c newPos)).position c = some newPos :=
    (hplaced c).trans (Function.update_self ..)
  have hothers (d : CreatureId) (hd : d ≠ c) :
      (s.operate env (.moveCreature c newPos)).position d = s.position d :=
    (hplaced d).trans (Function.update_of_ne hd ..)
  have hcontent := contentAt_operate env s (.moveCreature c newPos) (by intro x y z t h; cases h)
  have holdFloor := floor_of_position h.sound.inv hposition
  have hnewFloor := floor_of_position (s := s.operate env (.moveCreature c newPos)) hsound.inv
    hmoved
  simp only [ServedMap.moveCreature, hposition]
  generalize hteleport : (forceTeleport ||
    !(s.cached.map.getTile newPos.x newPos.y newPos.z).any env.hasGround ||
      !ServedMap.areInRange oldPos newPos) = teleport
  have hadjacent : teleport = false → Adjacent newPos.toPosition oldPos.toPosition := by
    rintro rfl
    simp only [Bool.or_eq_false_iff, Bool.not_eq_false'] at hteleport
    exact adjacent_of_areInRange hteleport.2
  refine synced_send (s := s.operate env (.moveCreature c newPos)) hsound rfl
    fun viewer myPos hplayer hmine => ?_
  obtain rfl | hother := eq_or_ne viewer c
  · rw [hmoved] at hmine
    cases hmine
    refine ⟨.inl (mem_moveSpectators_of_canSee h.sound hposition holdFloor hnewFloor
      (.inl (canSee_self _))), ?_⟩
    rw [if_pos (env.canSeeCreature_self viewer)]
    exact currentAt_ownMove hsound.inv (h.current hplayer hposition) hcontent hothers hmoved
      hadjacent
  · have hbefore : s.position viewer = some myPos := by
      rw [← hmine, hothers viewer hother]
    have hcurrent := h.current hplayer hbefore
    refine ⟨?_, ?_⟩
    · by_cases hsee : canSee myPos.cell oldPos.cell ∨ canSee myPos.cell newPos.cell
      · exact .inl (mem_moveSpectators_of_canSee h.sound hbefore holdFloor hnewFloor hsee)
      · rw [not_or, Bool.not_eq_true, Bool.not_eq_true] at hsee
        right
        simp [ServedMap.sendMoveCreature, canSeePos_iff hmine, hsee, hother.symm]
    · split_ifs with hvisible
      · refine hcurrent.of_moves hcontent hothers
          (moves_sendMoveCreature hother.symm teleport) fun hc pos hz hsee => ?_
        rw [canSeePos_iff hmine, canSeePos_iff hmine, hmoved]
        split_ifs with hnew hwas
        · rfl
        · simp only [Option.some_inj, false_iff]
          rintro rfl
          exact hnew hsee
        · rw [(hcurrent.2 pos hz (hcurrent.1 ▸ hsee)).creature c hc, hposition, Option.some_inj,
            Option.some_inj]
          constructor
          · rintro rfl
            exact absurd hsee hwas
          · rintro rfl
            exact absurd hsee hnew
      · exact hcurrent.of_moves hcontent hothers (.refl _ c) fun hc => absurd hc hvisible

theorem updateTile {tile : TileRef} {content : τ}
    (htile : s.cached.map.getTile pos.x pos.y pos.z = some tile) :
    Synced env (s.updateTile env pos tile content) := by
  have hfloor : pos.z.toNat < MAP_MAX_LAYERS := by
    by_contra hz
    rw [Map.getTile, if_pos (not_lt.mp hz)] at htile
    cases htile
  refine synced_send (s := { s with content := Function.update s.content tile content })
    (h.sound.getSpectators _) (CachedMap.getSpectators_map _ _) fun viewer myPos hplayer hmine => ?_
  have hbefore : s.position viewer = some myPos := hmine
  obtain ⟨hat, hcurrent⟩ := h.current hplayer hbefore
  have helsewhere (q : MapPosition) (hq : q ≠ pos) :
      ({ s with content := Function.update s.content tile content } : ServedMap τ).contentAt q =
        s.contentAt q := by
    simp only [ServedMap.contentAt]
    cases hqtile : s.cached.map.getTile q.x q.y q.z with
    | none => rfl
    | some t =>
      refine congrArg some (Function.update_of_ne (fun ht => hq ?_) ..)
      obtain ⟨hx, hy, hz⟩ := h.sound.inv.tile_inj hqtile (ht ▸ htile)
      cases q
      cases pos
      simp_all
  have hagrees (q : MapPosition) (hz : q.z.toNat < MAP_MAX_LAYERS)
      (hq : canSee (s.clients viewer).position q.cell) (hne : q ≠ pos) :
      Agrees env { s with content := Function.update s.content tile content } viewer
        (s.clients viewer) q :=
    ⟨(hcurrent q hz hq).tile.trans (helsewhere q hne).symm, (hcurrent q hz hq).creature⟩
  rw [ServedMap.sendUpdateTile, canSeePos_iff hmine]
  cases hsee : canSee myPos.cell pos.cell with
  | true =>
    refine ⟨.inl (mem_getSpectators_of_canSee h.sound hbefore hfloor hsee true fun _ => hplayer),
      hat, fun q hz hq => ?_⟩
    obtain rfl | hne := eq_or_ne q pos
    · exact agrees_put h.sound.inv
    · exact (hagrees q hz hq hne).put h.sound.inv pos
  | false =>
    refine ⟨.inr rfl, hat, fun q hz hq => hagrees q hz hq ?_⟩
    rintro rfl
    have hseen : canSee (s.clients viewer).position q.cell := hq
    rw [hat, hsee] at hseen
    cases hseen

omit h in
theorem init (h : (servedSystem env).init s) : Synced env s :=
  ⟨CachedMap.sound_of_reachable h.1, fun {viewer _} _ hposition => by
    rw [h.2 viewer] at hposition
    cases hposition⟩

theorem apply {op : ServedOp τ} (hop : op.Allowed env s) : Synced env (op.apply env s) := by
  cases op with
  | placeCreature c dest => exact h.placeCreature hop
  | moveCreature c newPos forceTeleport => exact h.moveCreature forceTeleport hop
  | removeCreature c => exact h.removeCreature hop
  | updateTile pos tile content => exact h.updateTile hop
  | getSpectators q => exact h.getSpectators q

end Synced

theorem synced_of_reachable (h : Run.Reachable (servedSystem env) s) : Synced env s := by
  refine h.invariant (fun s => Synced.init) fun s op s' hs hstep => ?_
  obtain ⟨hop, rfl⟩ := hstep
  exact hs.apply hop

theorem reachable_served (h : Run.Reachable (servedSystem env) s) (op : ServedOp τ)
    (hop : op.Allowed env s) : Run.Reachable (servedSystem env) (op.apply env s) :=
  h.step' ⟨hop, rfl⟩

def meadowEnv : MapEnv where
  isPlayer c := c == 5
  canSeeCreature _ _ := true
  canSeeCreature_self _ := rfl
  hasGround _ := true

def meadow : ServedMap Nat where
  cached := (CachedMap.empty.apply meadowEnv.isPlayer (.setTile 8 7 7 0)).apply meadowEnv.isPlayer
    (.setTile 9 7 7 1)
  content tile := 100 + tile
  clients _ := ⟨(0, 0, 0), fun _ => none, fun _ => none⟩

def meadowSteps : List (ServedOp Nat) :=
  [.placeCreature 5 ⟨8, 7, 7⟩, .placeCreature 6 ⟨9, 7, 7⟩, .moveCreature 5 ⟨9, 7, 7⟩ false]

theorem init_meadow : (servedSystem meadowEnv).init meadow := by
  have hfirst : (MapOp.setTile 8 7 7 0).Allowed CachedMap.empty.map := by
    intro x y z
    rw [CachedMap.empty, Map.getTile_eq, Map.getLeaf_empty]
    simp
  have hsecond : (MapOp.setTile 9 7 7 1).Allowed
      (CachedMap.empty.apply meadowEnv.isPlayer (.setTile 8 7 7 0)).map := by
    intro x y z
    have hnone : Map.empty.getTile 8 7 7 = none := by
      rw [Map.getTile_eq, Map.getLeaf_empty]
      rfl
    have hempty : Map.empty.getTile x y z = none := by
      rw [Map.getTile_eq, Map.getLeaf_empty]
      simp
    have hlinked := (Map.inv_empty : Map.Inv meadowEnv.isPlayer Map.empty).linked
    have hset := Map.getTile_setTile hlinked 8 7 x y 7 z 0
    rw [hnone, hempty] at hset
    simp only [CachedMap.apply, CachedMap.empty, hset]
    split_ifs <;> simp
  exact ⟨CachedMap.reachable_apply (CachedMap.reachable_apply (.init rfl) hfirst) hsecond,
    fun _ => rfl⟩

end Eloth
