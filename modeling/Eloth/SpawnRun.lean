import Eloth.Spawn

/-!
# Spawns over a run

The keys of the registered monsters are followed through the cleanup and the loop over the spawn
blocks. A check is pending while an id is vacant, as long as strays do not make up for vacant ids.
-/

namespace Eloth

namespace Spawn

variable {s s' : Spawn} {e : Event} {now : Int} {check : SpawnCheck} {spawnId : Nat}

def ids (s : Spawn) : List Nat := s.spawnMap.map Prod.fst

def keys (s : Spawn) : List Nat := s.spawnedMap.map Prod.fst

/-- The ids are distinct and not zero, and at most one monster is registered under each of them. -/
structure Invariant (s : Spawn) : Prop where
  ids_nodup : s.ids.Nodup
  ids_ne : 0 ∉ s.ids
  keys_nodup : (s.keys.filter (· ≠ 0)).Nodup
  keys_mem : ∀ spawnId ∈ s.keys, spawnId ≠ 0 → spawnId ∈ s.ids
  not_started : s.started = false →
    s.spawnedMap = [] ∧ s.checkSpawnEvent = 0 ∧ ∀ monster, s.hasSpawn monster = false

@[simp] theorem setLastSpawn_ids (time : Int) : (s.setLastSpawn spawnId time).ids = s.ids := by
  simp only [ids, setLastSpawn, List.map_map]
  refine List.map_congr_left fun it _ => ?_
  simp only [Function.comp_apply]
  split_ifs <;> rfl

theorem registered_iff : s.registered spawnId = true ↔ spawnId ∈ s.keys := by
  simp [registered, keys]

@[simp] theorem register_keys (monster : MonsterRef × Position) (time : Int) :
    (s.register spawnId monster time).keys = spawnId :: s.keys := rfl

@[simp] theorem register_ids (monster : MonsterRef × Position) (time : Int) :
    (s.register spawnId monster time).ids = s.ids := setLastSpawn_ids time

/-- What the two ways to change a spawn inside a loop preserve, the loops preserve. -/
structure Preserved (P : Spawn → Prop) : Prop where
  setLastSpawn : ∀ s spawnId time, P s → P (s.setLastSpawn spawnId time)
  register : ∀ s spawnId monster time, P s → P (s.register spawnId monster time)

/-! ## The startup -/

theorem Preserved.foldl_startup {P : Spawn → Prop} (hP : Preserved P)
    (attempt : Nat → SpawnAttempt) (blocks : List (Nat × SpawnBlock)) {s : Spawn} (h : P s) :
    P (blocks.foldl (fun s it =>
      match spawnMonster (attempt it.1) it.2 true with
      | some monster => s.register it.1 monster (attempt it.1).spawnTime
      | none => s) s) := by
  induction blocks generalizing s with
  | nil => exact h
  | cons it blocks ih =>
    rw [List.foldl_cons]
    cases spawnMonster (attempt it.1) it.2 true with
    | none => exact ih h
    | some monster => exact ih (hP.register _ _ _ _ h)

theorem foldl_startup (attempt : Nat → SpawnAttempt) (blocks : List (Nat × SpawnBlock))
    (s : Spawn) :
    let s' := blocks.foldl (fun s it =>
      match spawnMonster (attempt it.1) it.2 true with
      | some monster => s.register it.1 monster (attempt it.1).spawnTime
      | none => s) s
    s'.keys = ((blocks.filter fun it => (spawnMonster (attempt it.1) it.2 true).isSome).map
      Prod.fst).reverse ++ s.keys ∧ s'.ids = s.ids := by
  induction blocks generalizing s with
  | nil => exact ⟨rfl, rfl⟩
  | cons it blocks ih =>
    rw [List.foldl_cons]
    cases hplaced : spawnMonster (attempt it.1) it.2 true with
    | none =>
      obtain ⟨hkeys, hids⟩ := ih s
      exact ⟨by rw [hkeys, List.filter_cons_of_neg (by simp [hplaced])], hids⟩
    | some monster =>
      obtain ⟨hkeys, hids⟩ := ih (s.register it.1 monster (attempt it.1).spawnTime)
      refine ⟨?_, hids.trans (register_ids _ _)⟩
      rw [hkeys, List.filter_cons_of_pos (by simp [hplaced])]
      simp

/-! ## The cleanup -/

/-- What becomes of an entry in the cleanup. -/
def afterCleanup (s : Spawn) (entry : Nat × MonsterRef) : Option (Nat × MonsterRef) :=
  if s.isRemoved entry.2 then none
  else if !s.isInSpawnZone (s.position entry.2) && entry.1 != 0 then some (0, entry.2)
  else some entry

/-- The parts of a spawn that no loop over its blocks or entries changes. -/
structure SameWorld (s s' : Spawn) : Prop where
  zone : ∀ pos, s'.isInSpawnZone pos = s.isInSpawnZone pos
  event : s'.checkSpawnEvent = s.checkSpawnEvent
  started : s'.started = s.started
  isRemoved : s'.isRemoved = s.isRemoved
  position : s'.position = s.position
  hasSpawn : s'.hasSpawn = s.hasSpawn

theorem SameWorld.refl (s : Spawn) : SameWorld s s := ⟨fun _ => rfl, rfl, rfl, rfl, rfl, rfl⟩

theorem SameWorld.trans {s₁ s₂ s₃ : Spawn} (h : SameWorld s₁ s₂) (h' : SameWorld s₂ s₃) :
    SameWorld s₁ s₃ :=
  ⟨fun pos => (h'.zone pos).trans (h.zone pos), h'.event.trans h.event,
    h'.started.trans h.started, h'.isRemoved.trans h.isRemoved, h'.position.trans h.position,
    h'.hasSpawn.trans h.hasSpawn⟩

theorem sameWorld_cleanupEntry (now : Int) (s : Spawn) (entry : Nat × MonsterRef) :
    SameWorld s (cleanupEntry now s entry) := by
  unfold cleanupEntry setLastSpawn
  split_ifs <;> exact ⟨fun _ => rfl, rfl, rfl, rfl, rfl, rfl⟩

theorem afterCleanup_congr (h : SameWorld s s') : s'.afterCleanup = s.afterCleanup := by
  funext entry
  rw [afterCleanup, afterCleanup, h.isRemoved, h.position, h.zone]

theorem cleanupEntry_spawnedMap {entry : Nat × MonsterRef} {rest : List (Nat × MonsterRef)}
    (h : s.spawnedMap.Perm (entry :: rest)) :
    (cleanupEntry now s entry).spawnedMap.Perm ((s.afterCleanup entry).toList ++ rest) := by
  have herase : (s.spawnedMap.erase entry).Perm rest := by
    simpa using h.erase entry
  unfold cleanupEntry afterCleanup
  by_cases hremoved : s.isRemoved entry.2
  · simp only [if_pos hremoved, setLastSpawn]
    split_ifs <;> exact herase
  · simp only [if_neg hremoved]
    split_ifs with hstray
    · exact herase.cons _
    · exact h

/-- A block whose monster is gone is not due before its interval has passed again. -/
def restart (now : Int) (it : Nat × SpawnBlock) : Nat × SpawnBlock :=
  (it.1, { it.2 with lastSpawn := now })

/-- The entry belongs to a removed monster of the id. -/
def Lost (s : Spawn) (spawnId : Nat) (entry : Nat × MonsterRef) : Prop :=
  entry.1 = spawnId ∧ spawnId ≠ 0 ∧ s.isRemoved entry.2 = true

instance (s : Spawn) (spawnId : Nat) (entry : Nat × MonsterRef) :
    Decidable (s.Lost spawnId entry) :=
  inferInstanceAs (Decidable (_ ∧ _))

theorem cleanupEntry_spawnMap (entry : Nat × MonsterRef) :
    (cleanupEntry now s entry).spawnMap = s.spawnMap.map fun it =>
      if s.Lost it.1 entry then restart now it else it := by
  unfold cleanupEntry setLastSpawn
  by_cases hremoved : s.isRemoved entry.2
  · by_cases hzero : entry.1 = 0
    · have hkept : ∀ it ∈ s.spawnMap, (if s.Lost it.1 entry then restart now it else it) = it :=
        fun it _ => if_neg fun hlost => hlost.2.1 (hlost.1.symm.trans hzero)
      rw [List.map_congr_left hkept, List.map_id', if_pos hremoved, if_neg (by simpa using hzero)]
    · rw [if_pos hremoved, if_pos hzero]
      refine List.map_congr_left fun it _ => ?_
      by_cases hid : it.1 = entry.1
      · rw [if_pos hid, if_pos ⟨hid.symm, hid ▸ hzero, hremoved⟩, restart]
      · rw [if_neg hid, if_neg fun hlost => hid hlost.1.symm]
  · have hkept : ∀ it ∈ s.spawnMap, (if s.Lost it.1 entry then restart now it else it) = it :=
      fun it _ => if_neg fun hlost => hremoved hlost.2.2
    rw [List.map_congr_left hkept, List.map_id', if_neg hremoved]
    split_ifs <;> rfl

theorem foldl_cleanup (now : Int) (entries rest : List (Nat × MonsterRef)) (s : Spawn)
    (h : s.spawnedMap.Perm (entries ++ rest)) :
    let s' := entries.foldl (cleanupEntry now) s
    SameWorld s s' ∧ s'.spawnedMap.Perm (entries.filterMap s.afterCleanup ++ rest) ∧
      s'.spawnMap = s.spawnMap.map fun it =>
        if ∃ entry ∈ entries, s.Lost it.1 entry then restart now it else it := by
  induction entries generalizing s rest with
  | nil => exact ⟨.refl s, h, by simp⟩
  | cons entry entries ih =>
    have hworld := sameWorld_cleanupEntry now s entry
    have hperm : (cleanupEntry now s entry).spawnedMap.Perm
        (entries ++ ((s.afterCleanup entry).toList ++ rest)) := by
      refine (cleanupEntry_spawnedMap h).trans ?_
      exact List.perm_append_comm_assoc _ _ _
    obtain ⟨hworld', hspawned, hmap⟩ := ih _ _ hperm
    refine ⟨hworld.trans hworld', hspawned.trans ?_, ?_⟩
    · rw [afterCleanup_congr hworld]
      cases hafter : s.afterCleanup entry with
      | none => simp [hafter]
      | some moved =>
        rw [List.filterMap_cons_some hafter]
        exact List.perm_middle
    · rw [List.foldl_cons, hmap, cleanupEntry_spawnMap, List.map_map]
      refine List.map_congr_left fun it _ => ?_
      have hlost (entry' : Nat × MonsterRef) :
          (cleanupEntry now s entry).Lost it.1 entry' ↔ s.Lost it.1 entry' := by
        rw [Lost, Lost, hworld.isRemoved]
      rw [Function.comp_apply]
      by_cases hhit : s.Lost it.1 entry
      · have hsome : ∃ entry' ∈ entry :: entries, s.Lost it.1 entry' :=
          ⟨entry, List.mem_cons_self, hhit⟩
        rw [if_pos hhit, if_pos hsome]
        exact ite_self _
      · have hrest : (∃ entry' ∈ entry :: entries, s.Lost it.1 entry') ↔
            ∃ entry' ∈ entries, (cleanupEntry now s entry).Lost it.1 entry' := by
          simp only [hlost, List.exists_mem_cons_iff, hhit, false_or]
        rw [if_neg hhit]
        simp only [hrest]

/-! ## The loop over the blocks -/

/-- The block is due, and a monster can be placed for it. -/
def ready (check : SpawnCheck) (it : Nat × SpawnBlock) : Bool :=
  decide ((check.attempt it.1).dueTime ≥ it.2.lastSpawn + it.2.interval) &&
    (spawnMonster (check.attempt it.1) it.2 false).isSome

def refillable (s : Spawn) (check : SpawnCheck) (blocks : List (Nat × SpawnBlock)) :
    List (Nat × SpawnBlock) :=
  blocks.filter fun it => !s.registered it.1 && ready check it

theorem registered_register {id : Nat} (monster : MonsterRef × Position) (time : Int)
    (hne : id ≠ spawnId) :
    (s.register spawnId monster time).registered id = s.registered id := by
  rw [Bool.eq_iff_iff, registered_iff, registered_iff, register_keys, List.mem_cons]
  exact or_iff_right hne

theorem Preserved.spawnBlocks {P : Spawn → Prop} (hP : Preserved P) (check : SpawnCheck)
    (blocks : List (Nat × SpawnBlock)) (spawnCount : Nat) {s : Spawn} (h : P s) :
    P (Spawn.spawnBlocks check blocks spawnCount s) := by
  induction blocks generalizing spawnCount s with
  | nil => exact h
  | cons it blocks ih =>
    simp only [Spawn.spawnBlocks]
    split
    · exact ih _ h
    · split
      · cases spawnMonster (check.attempt it.1) it.2 false with
        | none => exact ih _ (hP.setLastSpawn _ _ _ h)
        | some monster =>
          dsimp only
          split
          · exact hP.register _ _ _ _ h
          · exact ih _ (hP.register _ _ _ _ h)
      · exact ih _ h

/-- The loop fills the first vacant blocks that are ready, as many as the rate allows. -/
theorem spawnBlocks_keys (blocks : List (Nat × SpawnBlock)) (hn : (blocks.map Prod.fst).Nodup)
    (spawnCount : Nat) (s : Spawn) :
    (spawnBlocks check blocks spawnCount s).keys =
        (((s.refillable check blocks).take (max 1 (check.rateSpawn - spawnCount))).map
          Prod.fst).reverse ++ s.keys ∧
      (spawnBlocks check blocks spawnCount s).ids = s.ids := by
  induction blocks generalizing spawnCount s with
  | nil => simp [spawnBlocks, refillable]
  | cons it blocks ih =>
    obtain ⟨spawnId, sb⟩ := it
    obtain ⟨hfresh, hn⟩ := List.nodup_cons.mp hn
    simp only [spawnBlocks, refillable]
    by_cases hreg : s.registered spawnId
    · rw [if_pos hreg, List.filter_cons_of_neg (by simp [hreg])]
      exact ih hn spawnCount s
    rw [if_neg hreg]
    by_cases hdue : (check.attempt spawnId).dueTime ≥ sb.lastSpawn + sb.interval
    · rw [if_pos hdue]
      cases hplaced : spawnMonster (check.attempt spawnId) sb false with
      | none =>
        rw [List.filter_cons_of_neg (by simp [ready, hplaced])]
        obtain ⟨hkeys, hids⟩ := ih hn spawnCount
          (s.setLastSpawn spawnId (check.attempt spawnId).spawnTime)
        exact ⟨hkeys, hids.trans (setLastSpawn_ids _)⟩
      | some monster =>
        have hready : (!s.registered spawnId && ready check (spawnId, sb)) = true := by
          simp [hreg, ready, hplaced, hdue]
        have hfilter : ((spawnId, sb) :: blocks).filter
            (fun it => !s.registered it.1 && ready check it) = (spawnId, sb) ::
              blocks.filter fun it => !s.registered it.1 && ready check it :=
          List.filter_cons_of_pos hready
        rw [hfilter]
        by_cases hlast : spawnCount + 1 ≥ check.rateSpawn
        · have hone : max 1 (check.rateSpawn - spawnCount) = 1 := by omega
          simp only [hone, if_pos hlast]
          exact ⟨by simp, register_ids _ _⟩
        · have hmore : max 1 (check.rateSpawn - spawnCount) =
              max 1 (check.rateSpawn - (spawnCount + 1)) + 1 := by omega
          obtain ⟨hkeys, hids⟩ := ih hn (spawnCount + 1)
            (s.register spawnId monster (check.attempt spawnId).spawnTime)
          have hrest : (s.register spawnId monster
              (check.attempt spawnId).spawnTime).refillable check blocks =
              blocks.filter fun it => !s.registered it.1 && ready check it := by
            refine List.filter_congr fun it hit => ?_
            have hne : it.1 ≠ spawnId := by
              rintro rfl
              exact hfresh (List.mem_map.mpr ⟨it, hit, rfl⟩)
            rw [registered_register _ _ hne]
          simp only [if_neg hlast]
          refine ⟨?_, hids.trans (register_ids _ _)⟩
          rw [hkeys, hrest, hmore, List.take_succ_cons, register_keys, List.map_cons,
            List.reverse_cons, List.append_assoc, List.singleton_append]
    · rw [if_neg hdue, List.filter_cons_of_neg (by simp [ready, hdue])]
      exact ih hn spawnCount s

/-! ## The check -/

/-- A living monster of the id stands in the zone. -/
def housed (s : Spawn) (entry : Nat × MonsterRef) : Bool :=
  !s.isRemoved entry.2 && s.isInSpawnZone (s.position entry.2) && entry.1 != 0

/-- A living monster left the zone, now or before. -/
def astray (s : Spawn) (entry : Nat × MonsterRef) : Bool :=
  !s.isRemoved entry.2 && (entry.1 == 0 || !s.isInSpawnZone (s.position entry.2))

def occupied (s : Spawn) (spawnId : Nat) : Bool :=
  s.spawnedMap.any fun entry => entry.1 == spawnId && s.housed entry

/-- The blocks that have no living monster in the zone. -/
def vacant (s : Spawn) : List (Nat × SpawnBlock) := s.spawnMap.filter fun it => !s.occupied it.1

def strays (s : Spawn) : Nat := s.spawnedMap.countP s.astray

/-- The block after the cleanup. -/
def afterLoss (s : Spawn) (now : Int) (it : Nat × SpawnBlock) : Nat × SpawnBlock :=
  if ∃ entry ∈ s.spawnedMap, s.Lost it.1 entry then restart now it else it

/-- How many vacant blocks a check can fill. -/
def refills (s : Spawn) (check : SpawnCheck) : Nat :=
  min (max 1 check.rateSpawn)
    (s.vacant.countP fun it => ready check (s.afterLoss check.cleanupTime it))

theorem afterLoss_fst (now : Int) (it : Nat × SpawnBlock) : (s.afterLoss now it).1 = it.1 := by
  unfold afterLoss restart
  split_ifs <;> rfl

theorem afterCleanup_eq (s : Spawn) (entry : Nat × MonsterRef) :
    s.afterCleanup entry =
      if s.astray entry then some (0, entry.2)
      else if s.housed entry then some entry else none := by
  obtain ⟨spawnId, monster⟩ := entry
  cases hremoved : s.isRemoved monster with
  | true => simp [afterCleanup, astray, housed, hremoved]
  | false =>
    by_cases hzero : spawnId = 0
    · simp [afterCleanup, astray, hremoved, hzero]
    · cases hzone : s.isInSpawnZone (s.position monster) <;>
        simp [afterCleanup, astray, housed, hremoved, hzone, hzero]

theorem housed_of_astray {entry : Nat × MonsterRef} (h : s.astray entry = true) :
    s.housed entry = false := by
  simp only [astray, Bool.and_eq_true, Bool.or_eq_true, beq_iff_eq, Bool.not_eq_true'] at h
  rcases h.2 with hzero | hzone
  · simp [housed, hzero]
  · simp [housed, hzone]

theorem length_afterCleanup (s : Spawn) (entries : List (Nat × MonsterRef)) :
    (entries.filterMap s.afterCleanup).length = entries.countP s.astray + entries.countP s.housed := by
  induction entries with
  | nil => rfl
  | cons entry entries ih =>
    rw [List.filterMap_cons, afterCleanup_eq, List.countP_cons, List.countP_cons]
    cases hastray : s.astray entry with
    | true =>
      simp [housed_of_astray hastray, ih]
      omega
    | false =>
      cases s.housed entry with
      | true =>
        simp [ih]
        omega
      | false => simp [ih]

theorem keys_afterCleanup (s : Spawn) (entries : List (Nat × MonsterRef)) :
    ((entries.filterMap s.afterCleanup).map Prod.fst).filter (· ≠ 0) =
      (entries.filter s.housed).map Prod.fst := by
  induction entries with
  | nil => rfl
  | cons entry entries ih =>
    rw [List.filterMap_cons, afterCleanup_eq]
    cases hastray : s.astray entry with
    | true => simpa [housed_of_astray hastray] using ih
    | false =>
      cases hhoused : s.housed entry with
      | true =>
        have hne : entry.1 ≠ 0 := by
          simp only [housed, Bool.and_eq_true, bne_iff_ne] at hhoused
          exact hhoused.2
        simpa [hhoused, hne] using ih
      | false => simpa [hhoused] using ih

/-- After the cleanup the monsters in the zone are registered under their ids. -/
theorem mem_cleanup_keys {id : Nat} (hid : id ≠ 0) :
    id ∈ (s.spawnedMap.filterMap s.afterCleanup).map Prod.fst ↔ s.occupied id = true := by
  simp only [occupied, List.mem_map, List.mem_filterMap, List.any_eq_true, Bool.and_eq_true,
    beq_iff_eq]
  constructor
  · rintro ⟨entry, ⟨entry', hmem, hafter⟩, rfl⟩
    refine ⟨entry', hmem, ?_⟩
    unfold afterCleanup at hafter
    split_ifs at hafter with hremoved hstray
    · exact absurd (congrArg Prod.fst (Option.some.inj hafter)).symm hid
    · obtain rfl := Option.some.inj hafter
      simp only [housed]
      simp_all
  · rintro ⟨entry, hmem, rfl, hhoused⟩
    refine ⟨entry, ⟨entry, hmem, ?_⟩, rfl⟩
    simp only [housed, Bool.and_eq_true, Bool.not_eq_true'] at hhoused
    simp [afterCleanup, hhoused]

theorem Invariant.countP_housed (h : s.Invariant) :
    s.spawnedMap.countP s.housed + s.vacant.length = s.spawnMap.length := by
  have hhoused : ((s.spawnedMap.filter s.housed).map Prod.fst).Perm
      (s.ids.filter fun id => s.occupied id) := by
    refine (List.perm_ext_iff_of_nodup ?_ (h.ids_nodup.filter _)).mpr fun id => ?_
    · refine h.keys_nodup.sublist ?_
      have hsub : (s.spawnedMap.filter s.housed).Sublist
          (s.spawnedMap.filter fun entry => entry.1 ≠ 0) := by
        refine List.monotone_filter_right _ fun entry hentry => ?_
        simp only [housed, Bool.and_eq_true] at hentry
        simpa using hentry.2
      simpa [keys, List.filter_map, Function.comp_def] using hsub.map Prod.fst
    · simp only [List.mem_map, List.mem_filter, occupied, List.any_eq_true, Bool.and_eq_true,
        beq_iff_eq]
      constructor
      · rintro ⟨entry, ⟨hmem, hentry⟩, rfl⟩
        refine ⟨h.keys_mem _ (List.mem_map_of_mem hmem) ?_, entry, hmem, rfl, hentry⟩
        simp only [housed, Bool.and_eq_true, bne_iff_ne] at hentry
        exact hentry.2
      · rintro ⟨_, entry, hmem, rfl, hentry⟩
        exact ⟨entry, ⟨hmem, hentry⟩, rfl⟩
  have hlen := hhoused.length_eq
  rw [List.length_map, ← List.countP_eq_length_filter] at hlen
  rw [hlen, ids, List.filter_map, List.length_map, vacant, ← List.countP_eq_length_filter,
    ← List.countP_eq_length_filter, List.length_eq_countP_add_countP fun it => s.occupied it.1]
  simp [Function.comp_def]

theorem cleanup_spec (s : Spawn) (now : Int) :
    SameWorld s (s.cleanup now) ∧
      (s.cleanup now).spawnedMap.Perm (s.spawnedMap.filterMap s.afterCleanup) ∧
      (s.cleanup now).spawnMap = s.spawnMap.map (s.afterLoss now) := by
  have hcleanup := foldl_cleanup now s.spawnedMap [] s (by simp)
  rw [List.append_nil] at hcleanup
  exact hcleanup

theorem cleanup_ids (s : Spawn) (now : Int) : (s.cleanup now).ids = s.ids := by
  rw [ids, (cleanup_spec s now).2.2, List.map_map]
  exact List.map_congr_left fun it _ => afterLoss_fst now it

/-- The blocks that the loop of a check fills. -/
def refilled (s : Spawn) (check : SpawnCheck) : List (Nat × SpawnBlock) :=
  (s.vacant.filter fun it => ready check (s.afterLoss check.cleanupTime it)).take
    (max 1 check.rateSpawn)

theorem length_refilled : (s.refilled check).length = s.refills check := by
  rw [refilled, List.length_take, refills, List.countP_eq_length_filter]

theorem registered_cleanup {id : Nat} (hid : id ≠ 0) :
    (s.cleanup now).registered id = s.occupied id := by
  rw [Bool.eq_iff_iff, registered_iff, keys, ((cleanup_spec s now).2.1.map Prod.fst).mem_iff]
  exact mem_cleanup_keys hid

theorem refillable_cleanup (h : s.Invariant) (check : SpawnCheck) :
    let s₁ := s.cleanup check.cleanupTime
    ((s₁.refillable check s₁.spawnMap).take (max 1 check.rateSpawn)).map Prod.fst =
      (s.refilled check).map Prod.fst := by
  have hfilter : (s.spawnMap.filter ((fun it => !(s.cleanup check.cleanupTime).registered it.1 &&
      ready check it) ∘ s.afterLoss check.cleanupTime)) =
      s.vacant.filter fun it => ready check (s.afterLoss check.cleanupTime it) := by
    rw [vacant, List.filter_filter]
    refine List.filter_congr fun it hit => ?_
    have hid : it.1 ≠ 0 := by
      intro hzero
      exact h.ids_ne (hzero ▸ List.mem_map_of_mem hit)
    rw [Function.comp_apply, afterLoss_fst, registered_cleanup hid, Bool.and_comm]
  simp only [refillable, (cleanup_spec s check.cleanupTime).2.2, List.filter_map, hfilter,
    ← List.map_take, List.map_map]
  exact List.map_congr_left fun it _ => afterLoss_fst _ it

/-- What is registered after a check, and when the next check is pending. -/
theorem checkSpawn_spec (h : s.Invariant) (check : SpawnCheck) :
    (s.checkSpawn check).keys.Perm ((s.refilled check).map Prod.fst ++
        (s.spawnedMap.filterMap s.afterCleanup).map Prod.fst) ∧
      (s.checkSpawn check).ids = s.ids ∧
      ((s.checkSpawn check).checkSpawnEvent ≠ 0 ↔
        (s.checkSpawn check).keys.length < s.ids.length) ∧
      (s.checkSpawn check).started = s.started := by
  obtain ⟨s₀, hs₀⟩ : ∃ s₀ : Spawn, { s with checkSpawnEvent := 0 } = s₀ := ⟨_, rfl⟩
  have h₀ : s₀.Invariant := by
    rw [← hs₀]
    exact ⟨h.ids_nodup, h.ids_ne, h.keys_nodup, h.keys_mem, fun hs =>
      ⟨(h.not_started hs).1, rfl, (h.not_started hs).2.2⟩⟩
  have hrefilled : s₀.refilled check = s.refilled check := by rw [← hs₀]; rfl
  have hafter : s₀.spawnedMap.filterMap s₀.afterCleanup = s.spawnedMap.filterMap s.afterCleanup := by
    rw [← hs₀]; rfl
  have hevent : s₀.checkSpawnEvent = 0 := by rw [← hs₀]
  have hids : s₀.ids = s.ids := by rw [← hs₀]; rfl
  obtain ⟨s₁, hs₁⟩ : ∃ s₁, s₀.cleanup check.cleanupTime = s₁ := ⟨_, rfl⟩
  obtain ⟨hworld, hspawned, _⟩ := cleanup_spec s₀ check.cleanupTime
  have hids₁ := cleanup_ids s₀ check.cleanupTime
  have hrefillable := refillable_cleanup h₀ check
  rw [hs₁] at hworld hspawned hids₁ hrefillable
  obtain ⟨s₂, hs₂⟩ : ∃ s₂, spawnBlocks check s₁.spawnMap 0 s₁ = s₂ := ⟨_, rfl⟩
  obtain ⟨hkeys, hids₂⟩ := @spawnBlocks_keys check s₁.spawnMap
    (by rw [← ids, hids₁]; exact h₀.ids_nodup) 0 s₁
  have hstatus : s₂.checkSpawnEvent = s₁.checkSpawnEvent ∧ s₂.started = s₁.started := by
    rw [← hs₂]
    exact Preserved.spawnBlocks (P := fun s => s.checkSpawnEvent = s₁.checkSpawnEvent ∧
      s.started = s₁.started) ⟨fun _ _ _ h => h, fun _ _ _ _ h => h⟩ check _ 0 ⟨rfl, rfl⟩
  rw [hs₂] at hkeys hids₂
  have hcheck : s.checkSpawn check =
      if s₂.spawnedMap.length < s₂.spawnMap.length then { s₂ with checkSpawnEvent := check.event }
      else s₂ := by
    simp only [checkSpawn, hs₀, hs₁, hs₂]
  have hkeys' : (s.checkSpawn check).keys = s₂.keys := by
    rw [hcheck]
    split_ifs <;> rfl
  have hids' : (s.checkSpawn check).ids = s.ids := by
    rw [← hids, ← hids₁, ← hids₂, hcheck]
    split_ifs <;> rfl
  have hlength : s₂.spawnMap.length = s.ids.length := by
    rw [← hids, ← hids₁, ← hids₂, ids, List.length_map]
  refine ⟨?_, hids', ?_, ?_⟩
  · rw [hkeys', hkeys, Nat.sub_zero, hrefillable, hrefilled, ← hafter]
    exact (List.reverse_perm _).append (hspawned.map Prod.fst)
  · rw [hkeys', keys, List.length_map, ← hlength, hcheck]
    split_ifs with hless
    · exact iff_of_true check.event.2 hless
    · rw [hstatus.1, hworld.event, hevent]
      simpa using hless
  · have hstarted : s₂.started = s.started := by
      rw [hstatus.2, hworld.started, ← hs₀]
    rw [hcheck, ← hstarted]
    split_ifs <;> rfl

theorem mem_vacant_ids {id : Nat} :
    id ∈ s.vacant.map Prod.fst ↔ id ∈ s.ids ∧ s.occupied id = false := by
  simp only [vacant, ids, List.mem_map, List.mem_filter, Bool.not_eq_true']
  constructor
  · rintro ⟨it, ⟨hit, hvacant⟩, rfl⟩
    exact ⟨⟨it, hit, rfl⟩, hvacant⟩
  · rintro ⟨⟨it, hit, rfl⟩, hvacant⟩
    exact ⟨it, ⟨hit, hvacant⟩, rfl⟩

theorem refilled_sublist : (s.refilled check).Sublist s.vacant :=
  (List.take_sublist _ _).trans List.filter_sublist

theorem Invariant.vacant_nodup (h : s.Invariant) : (s.vacant.map Prod.fst).Nodup :=
  h.ids_nodup.sublist (List.filter_sublist.map Prod.fst)

/-- Some id has no monster registered under it. -/
def HasVacancy (s : Spawn) : Prop := ∃ spawnId ∈ s.ids, spawnId ∉ s.keys

theorem hasVacancy_checkSpawn (h : s.Invariant) (check : SpawnCheck) :
    (s.checkSpawn check).HasVacancy ↔ s.refills check < s.vacant.length := by
  obtain ⟨hkeys, hids, _⟩ := checkSpawn_spec h check
  have hvacant : (s.checkSpawn check).HasVacancy ↔
      ∃ id ∈ s.vacant.map Prod.fst, id ∉ (s.refilled check).map Prod.fst := by
    unfold HasVacancy
    rw [hids]
    refine exists_congr fun id => ?_
    rw [hkeys.mem_iff, List.mem_append, mem_vacant_ids, and_assoc]
    refine and_congr_right fun hid => ?_
    have hne : id ≠ 0 := fun hzero => h.ids_ne (hzero ▸ hid)
    rw [mem_cleanup_keys hne, not_or, Bool.not_eq_true, and_comm]
  have hrefilled : (s.refilled check).Sublist s.vacant := refilled_sublist
  have hsub := hrefilled.map Prod.fst
  rw [hvacant, ← length_refilled, ← List.length_map (f := Prod.fst),
    ← @List.length_map _ _ s.vacant Prod.fst]
  constructor
  · rintro ⟨id, hid, hnot⟩
    refine lt_of_le_of_ne hsub.length_le fun heq => hnot ?_
    rwa [hsub.eq_of_length heq]
  · intro hlt
    by_contra hall
    push Not at hall
    have hsubperm : (s.vacant.map Prod.fst).Subperm ((s.refilled check).map Prod.fst) :=
      List.subperm_of_subset h.vacant_nodup hall
    exact absurd hsubperm.length_le (by omega)

/-- After a check that leaves an id vacant the next check is pending exactly if fewer monsters
are astray than ids stay vacant. -/
theorem pending_checkSpawn (h : s.Invariant) (check : SpawnCheck) :
    (s.checkSpawn check).checkSpawnEvent ≠ 0 ↔ s.strays + s.refills check < s.vacant.length := by
  obtain ⟨hkeys, _, hevent, _⟩ := checkSpawn_spec h check
  have hlen := hkeys.length_eq
  rw [List.length_append, List.length_map, List.length_map, length_afterCleanup,
    length_refilled] at hlen
  have hhoused := h.countP_housed
  have hids : s.ids.length = s.spawnMap.length := List.length_map _
  have hstrays : s.spawnedMap.countP s.astray = s.strays := rfl
  rw [hevent, hlen]
  omega

/-- Fewer monsters are astray than ids stay vacant, or no id stays vacant. -/
def Refillable (s : Spawn) (check : SpawnCheck) : Prop :=
  s.vacant.length ≤ s.refills check ∨ s.strays + s.refills check < s.vacant.length

theorem pending_checkSpawn_iff (h : s.Invariant) (check : SpawnCheck) :
    ((s.checkSpawn check).HasVacancy → (s.checkSpawn check).checkSpawnEvent ≠ 0) ↔
      s.Refillable check := by
  rw [hasVacancy_checkSpawn h, pending_checkSpawn h, Refillable]
  omega

/-! ## The invariant over a run -/

theorem Invariant.checkSpawn (h : s.Invariant) (check : SpawnCheck) (hstarted : s.started = true) :
    (s.checkSpawn check).Invariant := by
  obtain ⟨hkeys, hids, _, hstart⟩ := checkSpawn_spec h check
  have hrefilled : ∀ id ∈ (s.refilled check).map Prod.fst, id ∈ s.ids ∧ s.occupied id = false := by
    intro id hid
    exact mem_vacant_ids.mp ((refilled_sublist.map Prod.fst).mem hid)
  refine ⟨hids ▸ h.ids_nodup, hids ▸ h.ids_ne, ?_, ?_, ?_⟩
  · refine ((hkeys.filter (· ≠ 0)).nodup_iff).mpr ?_
    rw [List.filter_append, keys_afterCleanup]
    refine List.Nodup.append ?_ ?_ ?_
    · exact (h.vacant_nodup.sublist (refilled_sublist.map Prod.fst)).filter _
    · rw [← keys_afterCleanup]
      refine h.keys_nodup.sublist ?_
      rw [keys_afterCleanup, keys, List.filter_map]
      refine List.Sublist.map _ (List.monotone_filter_right _ fun entry hentry => ?_)
      simp only [housed, Bool.and_eq_true, bne_iff_ne] at hentry
      simpa using hentry.2
    · intro id hid hid'
      obtain ⟨entry, hentry, rfl⟩ := List.mem_map.mp hid'
      obtain ⟨hmem, hhoused⟩ := List.mem_filter.mp hentry
      have hvacant := (hrefilled _ (List.mem_filter.mp hid).1).2
      simp only [occupied, List.any_eq_false, Bool.and_eq_true, beq_iff_eq, not_and] at hvacant
      exact hvacant entry hmem rfl hhoused
  · intro id hid hne
    rw [hids]
    rcases List.mem_append.mp (hkeys.mem_iff.mp hid) with hid | hid
    · exact (hrefilled id hid).1
    · have hocc := (mem_cleanup_keys hne).mp hid
      simp only [occupied, List.any_eq_true, Bool.and_eq_true, beq_iff_eq] at hocc
      obtain ⟨entry, hmem, rfl, _⟩ := hocc
      exact h.keys_mem _ (List.mem_map_of_mem hmem) hne
  · intro hnot
    rw [hstart, hstarted] at hnot
    exact absurd hnot (by decide)

theorem Invariant.startup (h : s.Invariant) (attempt : Nat → SpawnAttempt)
    (hstarted : s.started = false) : (s.startup attempt).Invariant := by
  obtain ⟨hkeys, hids⟩ := foldl_startup attempt s.spawnMap s
  have hempty : s.keys = [] := by rw [keys, (h.not_started hstarted).1, List.map_nil]
  rw [hempty, List.append_nil] at hkeys
  have hsub : ((s.spawnMap.filter fun it =>
      (spawnMonster (attempt it.1) it.2 true).isSome).map Prod.fst).Sublist s.ids :=
    List.filter_sublist.map Prod.fst
  refine ⟨?_, ?_, ?_, ?_, fun hnot => absurd hnot (by simp [Spawn.startup])⟩
  · exact hids ▸ h.ids_nodup
  · exact hids ▸ h.ids_ne
  · refine List.Nodup.filter _ ?_
    exact hkeys ▸ List.nodup_reverse.mpr (h.ids_nodup.sublist hsub)
  · intro id hid _
    have hmem := hkeys ▸ hid
    exact hids ▸ hsub.mem (List.mem_reverse.mp hmem)

theorem onRemoveCreature_eq (s : Spawn) (monster : MonsterRef) (handled : Bool) (event : EventId) :
    s.onRemoveCreature monster handled event = { s with
      isRemoved := Function.update s.isRemoved monster true
      checkSpawnEvent :=
        if handled = false ∧ s.hasSpawn monster = true ∧ s.checkSpawnEvent = 0 then event
        else s.checkSpawnEvent } := by
  simp only [Spawn.onRemoveCreature, startSpawnCheck]
  cases handled with
  | true => simp
  | false =>
    cases s.hasSpawn monster with
    | true => by_cases hevent : s.checkSpawnEvent = 0 <;> simp [hevent]
    | false => simp

theorem Invariant.onRemoveCreature (h : s.Invariant) (monster : MonsterRef) (handled : Bool)
    (event : EventId) : (s.onRemoveCreature monster handled event).Invariant := by
  rw [onRemoveCreature_eq]
  refine ⟨h.ids_nodup, h.ids_ne, h.keys_nodup, h.keys_mem, fun hnot => ?_⟩
  obtain ⟨hspawned, hevent, hspawn⟩ := h.not_started hnot
  exact ⟨hspawned, by simp [hspawn monster, hevent], hspawn⟩

theorem Invariant.step (h : s.Invariant) (hs : events.step s e s') : s'.Invariant := by
  obtain ⟨henabled, rfl⟩ := hs
  cases e with
  | startup attempt => exact h.startup attempt henabled
  | checkSpawn check =>
    refine h.checkSpawn check ?_
    by_contra hnot
    exact henabled (h.not_started (by simpa using hnot)).2.1
  | onRemoveCreature monster handled event => exact h.onRemoveCreature monster handled event
  | move monster pos => exact ⟨h.ids_nodup, h.ids_ne, h.keys_nodup, h.keys_mem, h.not_started⟩

theorem Invariant.of_loaded (h : Loaded s) : s.Invariant := by
  obtain ⟨centerPos, radius, blocks, position, rfl⟩ := h
  suffices hfold : ∀ (blocks : List SpawnBlock) (s : Spawn), s.ids = List.range' 1 s.spawnMap.length →
      s.spawnedMap = [] → s.checkSpawnEvent = 0 → (∀ monster, s.hasSpawn monster = false) →
      (blocks.foldl addBlock s).Invariant from
    hfold blocks _ rfl rfl rfl fun _ => rfl
  intro blocks
  induction blocks with
  | nil =>
    intro s hids hspawned hevent hspawn
    refine ⟨?_, ?_, ?_, ?_, fun _ => ⟨hspawned, hevent, hspawn⟩⟩
    · rw [List.foldl_nil, hids]
      exact List.nodup_range'
    · rw [List.foldl_nil, hids, List.mem_range']
      rintro ⟨i, _, hi⟩
      omega
    · simp [keys, hspawned]
    · simp [keys, hspawned]
  | cons sb blocks ih =>
    intro s hids hspawned hevent hspawn
    refine ih (s.addBlock sb) ?_ hspawned hevent hspawn
    have hlen : (s.addBlock sb).spawnMap.length = s.spawnMap.length + 1 := by simp [addBlock]
    rw [hlen, List.range'_concat, ← hids, Nat.one_mul, Nat.add_comm 1]
    simp [ids, addBlock]

theorem invariant_of_reachable (h : Run.Reachable events s) : s.Invariant :=
  h.invariant (fun _ => Invariant.of_loaded) fun _ _ _ hs hstep => hs.step hstep

/-! ## Pending checks -/

/-- The startup fills every id, and a check is pending after every check that leaves one vacant. -/
def Populates (s : Spawn) : Event → Prop
  | .startup attempt => ∀ it ∈ s.spawnMap, (spawnMonster (attempt it.1) it.2 true).isSome
  | .checkSpawn check => s.Refillable check
  | _ => True

/-- No script takes over when a monster disappears. -/
def Unhandled : Event → Prop
  | .onRemoveCreature _ handled _ => handled = false
  | _ => True

def AwaitsVacancies (s : Spawn) : Prop :=
  s.started = true → s.HasVacancy → s.checkSpawnEvent ≠ 0

theorem AwaitsVacancies.step (h : s.AwaitsVacancies) (hinv : s.Invariant) (he : s.Populates e)
    (hs : events.step s e s') : s'.AwaitsVacancies := by
  obtain ⟨henabled, rfl⟩ := hs
  cases e with
  | startup attempt =>
    rintro _ ⟨id, hid, hvacant⟩
    obtain ⟨hkeys, hids⟩ := foldl_startup attempt s.spawnMap s
    have hall : (s.spawnMap.filter fun it =>
        (spawnMonster (attempt it.1) it.2 true).isSome) = s.spawnMap :=
      List.filter_eq_self.mpr he
    rw [hall] at hkeys
    refine absurd ?_ hvacant
    have hmem : id ∈ s.ids := hids ▸ hid
    have hkeys' : (s.startup attempt).keys = s.ids.reverse ++ s.keys := hkeys
    change id ∈ (s.startup attempt).keys
    rw [hkeys']
    exact List.mem_append_left _ (List.mem_reverse.mpr hmem)
  | checkSpawn check =>
    intro _
    exact (pending_checkSpawn_iff hinv check).mpr he
  | onRemoveCreature monster handled event =>
    intro hstarted hvacancy
    simp only [apply, onRemoveCreature_eq] at hstarted hvacancy ⊢
    split_ifs
    · exact event.2
    · exact h hstarted hvacancy
  | move monster pos => exact h

/-- The monsters of this spawn know it, and a check is pending while a dead one is registered. -/
structure AwaitsDeaths (s : Spawn) : Prop where
  hasSpawn : ∀ entry ∈ s.spawnedMap, s.hasSpawn entry.2 = true
  pending : ∀ entry ∈ s.spawnedMap, s.isRemoved entry.2 = true → s.checkSpawnEvent ≠ 0

/-- Every registered monster is alive and knows its spawn. -/
def AllAlive (s : Spawn) : Prop :=
  ∀ entry ∈ s.spawnedMap, s.hasSpawn entry.2 = true ∧ s.isRemoved entry.2 = false

theorem preserved_allAlive : Preserved AllAlive := by
  refine ⟨fun _ _ _ h => h, ?_⟩
  intro s spawnId monster time h entry hentry
  have hupdate : (s.register spawnId monster time).hasSpawn =
      Function.update s.hasSpawn monster.1 true := rfl
  have hupdate' : (s.register spawnId monster time).isRemoved =
      Function.update s.isRemoved monster.1 false := rfl
  rw [hupdate, hupdate']
  by_cases heq : entry.2 = monster.1
  · rw [heq, Function.update_self, Function.update_self]
    exact ⟨rfl, rfl⟩
  · rw [Function.update_of_ne heq, Function.update_of_ne heq]
    rcases List.mem_cons.mp hentry with rfl | hentry
    · exact absurd rfl heq
    · exact h entry hentry

theorem AllAlive.awaitsDeaths (h : s.AllAlive) : s.AwaitsDeaths :=
  ⟨fun entry hentry => (h entry hentry).1, fun entry hentry hremoved =>
    absurd hremoved (by simp [(h entry hentry).2])⟩

theorem allAlive_cleanup (h : ∀ entry ∈ s.spawnedMap, s.hasSpawn entry.2 = true) (now : Int) :
    (s.cleanup now).AllAlive := by
  obtain ⟨hworld, hspawned, _⟩ := cleanup_spec s now
  intro entry hentry
  obtain ⟨entry', hmem, hafter⟩ := List.mem_filterMap.mp (hspawned.mem_iff.mp hentry)
  rw [hworld.hasSpawn, hworld.isRemoved]
  have hspawn := h entry' hmem
  unfold afterCleanup at hafter
  split_ifs at hafter with hremoved
  · obtain rfl := Option.some.inj hafter
    exact ⟨hspawn, by simpa using hremoved⟩
  · obtain rfl := Option.some.inj hafter
    exact ⟨hspawn, by simpa using hremoved⟩

theorem AwaitsDeaths.step (h : s.AwaitsDeaths) (hinv : s.Invariant) (he : Unhandled e)
    (hs : events.step s e s') : s'.AwaitsDeaths := by
  obtain ⟨henabled, rfl⟩ := hs
  cases e with
  | startup attempt =>
    have hempty : s.AllAlive := by
      intro entry hentry
      rw [(hinv.not_started henabled).1] at hentry
      simp at hentry
    exact AllAlive.awaitsDeaths (preserved_allAlive.foldl_startup attempt s.spawnMap hempty)
  | checkSpawn check =>
    obtain ⟨s₀, hs₀⟩ : ∃ s₀ : Spawn, { s with checkSpawnEvent := 0 } = s₀ := ⟨_, rfl⟩
    have hspawn : ∀ entry ∈ s₀.spawnedMap, s₀.hasSpawn entry.2 = true := by
      rw [← hs₀]
      exact h.hasSpawn
    have hloop := preserved_allAlive.spawnBlocks check (s₀.cleanup check.cleanupTime).spawnMap 0
      (allAlive_cleanup hspawn check.cleanupTime)
    have hdone : (s.checkSpawn check).AllAlive := by
      simp only [Spawn.checkSpawn, hs₀]
      split_ifs <;> exact hloop
    exact hdone.awaitsDeaths
  | onRemoveCreature monster handled event =>
    simp only [apply, onRemoveCreature_eq]
    refine ⟨h.hasSpawn, fun entry hentry hremoved => ?_⟩
    dsimp only at hentry hremoved ⊢
    split_ifs with hstart
    · exact event.2
    · by_cases heq : entry.2 = monster
      · have hspawn := h.hasSpawn entry hentry
        rw [heq] at hspawn
        exact fun hevent => hstart ⟨he, hspawn, hevent⟩
      · rw [Function.update_of_ne heq] at hremoved
        exact h.pending entry hentry hremoved
  | move monster pos => exact ⟨h.hasSpawn, h.pending⟩

/-- An id under which no living monster is registered. -/
def Lacks (s : Spawn) : Prop :=
  ∃ spawnId ∈ s.ids, ∀ entry ∈ s.spawnedMap, entry.1 = spawnId → s.isRemoved entry.2 = true

theorem Invariant.single (h : s.Invariant) (hne : spawnId ≠ 0) :
    (s.spawnedMap.filter fun entry => entry.1 = spawnId).length ≤ 1 := by
  have hcount := List.nodup_iff_count_le_one.mp h.keys_nodup spawnId
  rw [List.count_filter (by simpa using hne), keys, List.count, List.countP_map,
    List.countP_eq_length_filter] at hcount
  simpa [Function.comp_def, beq_eq_decide] using hcount

theorem started_of_loaded (h : Loaded s) : s.started = false := by
  obtain ⟨centerPos, radius, blocks, position, rfl⟩ := h
  have hfold : ∀ (blocks : List SpawnBlock) (s : Spawn),
      (blocks.foldl addBlock s).started = s.started := by
    intro blocks
    induction blocks with
    | nil => exact fun _ => rfl
    | cons sb blocks ih => exact fun s => ih (s.addBlock sb)
  exact hfold blocks _

/-- In every run each id has at most one monster. If the startup fills every id and no check finds
as many strays as ids that it cannot fill, a check is pending while an id is vacant; if moreover
no script takes over, also while the monster of an id is dead. -/
theorem populated_of_reachable (s : Spawn) :
    (Run.Reachable events s → ∀ spawnId, spawnId ≠ 0 →
      (s.spawnedMap.filter fun entry => entry.1 = spawnId).length ≤ 1) ∧
    (Run.ReachableBy events Populates s → s.AwaitsVacancies) ∧
    (Run.ReachableBy events (fun s e => s.Populates e ∧ Unhandled e) s →
      s.started = true → s.Lacks → s.checkSpawnEvent ≠ 0) := by
  have hvacancies : ∀ s, Run.ReachableBy events Populates s → s.AwaitsVacancies := by
    intro s h
    refine (h.invariant (I := fun s => s.Invariant ∧ s.AwaitsVacancies) ?_ ?_).2
    · intro s hs
      refine ⟨.of_loaded hs, fun hstarted => ?_⟩
      rw [started_of_loaded hs] at hstarted
      exact absurd hstarted (by decide)
    · rintro s e s' ⟨hinv, hs⟩ he hstep
      exact ⟨hinv.step hstep, hs.step hinv he hstep⟩
  refine ⟨fun h spawnId hne => (invariant_of_reachable h).single hne, hvacancies s, ?_⟩
  rintro h hstarted ⟨spawnId, hid, hdead⟩
  have hdeaths : s.AwaitsDeaths := by
    refine (h.invariant (I := fun s => s.Invariant ∧ s.AwaitsDeaths) ?_ ?_).2
    · intro s hs
      have hempty := ((Invariant.of_loaded hs).not_started (started_of_loaded hs)).1
      exact ⟨.of_loaded hs, by simp [hempty], by simp [hempty]⟩
    · rintro s e s' ⟨hinv, hs⟩ ⟨_, he⟩ hstep
      exact ⟨hinv.step hstep, hs.step hinv he hstep⟩
  by_cases hkey : spawnId ∈ s.keys
  · obtain ⟨entry, hentry, rfl⟩ := List.mem_map.mp hkey
    exact hdeaths.pending entry hentry (hdead entry hentry rfl)
  · exact hvacancies s (h.mono fun _ _ he => he.1) hstarted ⟨spawnId, hid, hkey⟩

/-! A spawn of two trolls: one of them dies, and the other one leaves the zone before the check. -/

def trollBlock : SpawnBlock := ⟨[(⟨false⟩, 100)], 0, 60000⟩

def trollSpawn : Spawn :=
  [trollBlock, trollBlock].foldl addBlock
    ⟨⟨100, 100, 7⟩, 5, [], [], 0, false, fun _ => false, fun _ => ⟨100, 100, 7⟩, fun _ => false⟩

def trollAttempt (time : Int) (firstTroll spawnId : Nat) : SpawnAttempt where
  dueTime := time
  findPlayer := false
  roll _ := 1
  place _ := some (firstTroll + spawnId, ⟨100, 100, 7⟩)
  placeAgain _ := none
  spawnTime := time

def trollStartup : Event := .startup (trollAttempt 0 0)

def trollDies : Event := .onRemoveCreature 1 false ⟨1, by decide⟩

def trollStrays : Event := .move 2 ⟨120, 100, 7⟩

def trollCheck : Event := .checkSpawn ⟨100000, trollAttempt 100000 10, 1, ⟨2, by decide⟩⟩

theorem trollSpawn_loaded : Loaded trollSpawn := ⟨_, _, _, _, rfl⟩

theorem populated_deadTroll :
    let s := (trollSpawn.apply trollStartup).apply trollDies
    (s.spawnedMap.filter fun entry => entry.1 = 1).length ≤ 1 ∧ s.AwaitsVacancies ∧
      s.checkSpawnEvent ≠ 0 := by
  have hstartup : trollSpawn.Populates trollStartup := by
    simp only [Populates, trollStartup]
    decide
  refine ⟨(populated_of_reachable _).1 (.step (i := trollDies) (.step (i := trollStartup)
      (.init trollSpawn_loaded) trivial ⟨rfl, rfl⟩) trivial ⟨trivial, rfl⟩) 1 (by decide),
    (populated_of_reachable _).2.1 (.step (i := trollDies) (.step (i := trollStartup)
      (.init trollSpawn_loaded) hstartup ⟨rfl, rfl⟩) trivial ⟨trivial, rfl⟩),
    (populated_of_reachable _).2.2 (.step (i := trollDies) (.step (i := trollStartup)
      (.init trollSpawn_loaded) ⟨hstartup, trivial⟩ ⟨rfl, rfl⟩) ⟨trivial, rfl⟩ ⟨trivial, rfl⟩)
      rfl ⟨1, by decide, by decide⟩⟩

/-- The stray and the troll that takes its place make two, and nobody waits for the dead one. -/
theorem stray_hides_vacancy : ¬ ∀ s, Run.Reachable events s → s.AwaitsVacancies := by
  intro h
  have hreach : Run.Reachable events
      ((((trollSpawn.apply trollStartup).apply trollDies).apply trollStrays).apply trollCheck) :=
    .step (i := trollCheck) (.step (i := trollStrays) (.step (i := trollDies)
      (.step (i := trollStartup) (.init trollSpawn_loaded) trivial ⟨rfl, rfl⟩) trivial
      ⟨trivial, rfl⟩) trivial ⟨trivial, rfl⟩) trivial ⟨Nat.one_ne_zero, rfl⟩
  exact h _ hreach rfl ⟨1, by decide, by decide⟩ rfl

end Spawn

end Eloth
