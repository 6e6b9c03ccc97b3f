import Mathlib.Data.List.Perm.Basic
import Eloth.Lib.ListSet
import Eloth.Lib.RefCount
import Eloth.Lib.Run
import Eloth.MonsterLists

/-!
# The references on creatures

A creature counts the references on it and is deleted with the last one. References are held by
the tiles, by the lists of `checkCreatures`, by masters on their summons, by monsters on their
targets and friends, by spawns, by connections, and by the list of the creatures that `cleanup`
is to release. A destructor gives back what the creature held, and may delete others by that.
-/

namespace Eloth

def EVENT_CREATURECOUNT : Nat := 10

/-- The creatures that exist with their fields, and who holds references on them. While creatures
are checked, `pass` is the list and the place in it that comes next, and `checked` are those
before it. -/
structure CreatureStore where
  alive : Finset CreatureId := ∅
  referenceCounter : CreatureId → Nat := fun _ => 0
  isRemoved : CreatureId → Bool := fun _ => false
  master : CreatureId → Option CreatureId := fun _ => none
  summons : CreatureId → List CreatureId := fun _ => []
  lists : CreatureId → MonsterList → List CreatureId := fun _ _ => []
  creatureCheck : CreatureId → Bool := fun _ => false
  inCheckCreaturesVector : CreatureId → Bool := fun _ => false
  checkCreatureLists : Nat → List CreatureId := fun _ => []
  pass : Option (Nat × Nat) := none
  checked : List CreatureId := []
  onMap : List CreatureId := []
  removing : List CreatureId := []
  spawned : List CreatureId := []
  clients : List CreatureId := []
  held : List CreatureId := []
  toReleaseCreatures : List CreatureId := []

namespace CreatureStore

variable (s : CreatureStore) (c m : CreatureId)

/-! ## Counting -/

/-- What a creature holds, in the order of the destructors. -/
def refs : List CreatureId :=
  s.lists m .targetList ++ s.lists m .friendList ++ s.summons m

def incrementReferenceCounter : CreatureStore :=
  { s with referenceCounter := Function.update s.referenceCounter c (s.referenceCounter c + 1) }

/-- The summons lose their master, without the references that `removeMaster` gives back. -/
def abandon : CreatureStore :=
  { s with
    summons := Function.update s.summons m []
    master := fun d => if d ∈ s.summons m then none else s.master d }

/-- The destructors, without the references that they give back. -/
def destruct : CreatureStore :=
  { s.abandon c with
    alive := s.alive.erase c
    lists := Function.update s.lists c fun _ => [] }

def references : RefCount CreatureStore CreatureId where
  alive := alive
  refs := refs
  counter := referenceCounter
  decrement s c :=
    { s with referenceCounter := Function.update s.referenceCounter c (s.referenceCounter c - 1) }
  destroy := destruct
  alive_decrement _ _ := rfl
  refs_decrement _ _ := rfl
  counter_decrement s a b := by simp only [Function.update_apply]
  alive_destroy _ _ := rfl
  refs_destroy s a b hb := by simp only [refs, destruct, abandon, Function.update_of_ne hb]
  counter_destroy _ _ := rfl

def giveBack (s : CreatureStore) (pending : List CreatureId) : CreatureStore :=
  references.giveBack s pending

def decrementReferenceCounter : CreatureStore := s.giveBack [c]

/-! ## Creation and removal -/

/-- The constructor. -/
def create : CreatureStore :=
  { s with
    alive := insert c s.alive
    referenceCounter := Function.update s.referenceCounter c 0
    isRemoved := Function.update s.isRemoved c false
    master := Function.update s.master c none
    summons := Function.update s.summons c []
    lists := Function.update s.lists c fun _ => []
    creatureCheck := Function.update s.creatureCheck c false
    inCheckCreaturesVector := Function.update s.inCheckCreaturesVector c false }

/-- A creature that could not be placed is deleted. -/
def discard : CreatureStore := (s.destruct c).giveBack (s.refs c)

def hasParent : Bool := c ∈ s.onMap || c ∈ s.removing || s.isRemoved c

/-- There is room on the map. -/
def internalPlaceCreature : CreatureStore :=
  if s.hasParent c then s
  else { s.incrementReferenceCounter c with onMap := s.onMap ++ [c] }

def addCreatureCheck (uniform_random : Nat) : CreatureStore :=
  let s := { s with creatureCheck := Function.update s.creatureCheck c true }
  if s.inCheckCreaturesVector c then s
  else
    { s.incrementReferenceCounter c with
      inCheckCreaturesVector := Function.update s.inCheckCreaturesVector c true
      checkCreatureLists := Function.update s.checkCreatureLists uniform_random
        (s.checkCreatureLists uniform_random ++ [c]) }

def removeCreatureCheck : CreatureStore :=
  if s.inCheckCreaturesVector c then
    { s with creatureCheck := Function.update s.creatureCheck c false }
  else s

def ReleaseCreature : CreatureStore := { s with toReleaseCreatures := s.toReleaseCreatures ++ [c] }

def cleanup : CreatureStore :=
  { s with toReleaseCreatures := [] }.giveBack s.toReleaseCreatures

/-- The first half of `removeCreature`: the tile gives the creature away. -/
def beginRemoval : CreatureStore :=
  { s with onMap := s.onMap.erase c, removing := s.removing ++ [c] }

/-- The second half, after the spectators were told. The summons are removed after it. -/
def endRemoval : CreatureStore :=
  ({ s with
    removing := s.removing.erase c
    isRemoved := Function.update s.isRemoved c true }.ReleaseCreature c).removeCreatureCheck c

/-! ## Masters -/

def pushSummon : CreatureStore :=
  { s.incrementReferenceCounter c with
    summons := Function.update s.summons m (s.summons m ++ [c]) }

def eraseSummon : CreatureStore :=
  if c ∈ s.summons m then
    { s with summons := Function.update s.summons m ((s.summons m).erase c)
      }.decrementReferenceCounter c
  else s

def setMaster (newMaster : Option CreatureId) : CreatureStore :=
  if newMaster.isNone && (s.master c).isNone then s
  else
    let pushed := newMaster.elim s (s.pushSummon c)
    let changed := { pushed with master := Function.update pushed.master c newMaster }
    (s.master c).elim changed (changed.eraseSummon c)

/-- A creature that is removed leaves a master that is not. -/
def onRemoveCreature : CreatureStore :=
  match s.master c with
  | some master => if s.isRemoved master then s else s.setMaster c none
  | none => s

/-! ## Targets and friends -/

def setList (list : MonsterList) (l : List CreatureId) : CreatureStore :=
  { s with lists := Function.update s.lists m (Function.update (s.lists m) list l) }

/-- `addFriend` and `addTarget`. -/
def addTo (list : MonsterList) (pushFront : Bool) : CreatureStore :=
  if c ∈ s.lists m list then s
  else
    (s.incrementReferenceCounter c).setList m list
      (if pushFront then c :: s.lists m list else s.lists m list ++ [c])

/-- `removeFriend` and `removeTarget`. -/
def removeFrom (list : MonsterList) : CreatureStore :=
  if c ∈ s.lists m list then
    (s.setList m list ((s.lists m list).erase c)).decrementReferenceCounter c
  else s

/-- The loops of `updateTargetList`, `clearTargetList` and `clearFriendList`. -/
def dropFrom (list : MonsterList) (p : CreatureId → Bool) : CreatureStore :=
  (s.setList m list ((s.lists m list).filter fun c => !p c)).giveBack ((s.lists m list).filter p)

def onFollowCreatureComplete (hasFollowPath : Bool) : CreatureStore :=
  if c ∈ s.lists m .targetList then
    let targetList := (s.lists m .targetList).erase c
    if hasFollowPath then s.setList m .targetList (c :: targetList)
    else if (s.master m).isNone then s.setList m .targetList (targetList ++ [c])
    else (s.setList m .targetList targetList).decrementReferenceCounter c
  else s

/-- `Monster::death`: the summons lose their master, and the lists are cleared. -/
def death : CreatureStore :=
  let released := (s.abandon m).giveBack (s.summons m)
  (released.dropFrom m .targetList fun _ => true).dropFrom m .friendList fun _ => true

/-! ## Checks -/

def beginPass (index : Nat) : CreatureStore := { s with pass := some (index, 0), checked := [] }

/-- The next creature of the loop of `checkCreatures`. What it does when it thinks are steps of
their own. -/
def checkNext (index it : Nat) : CreatureStore :=
  match (s.checkCreatureLists index)[it]? with
  | none => { s with pass := none }.cleanup
  | some creature =>
    if s.creatureCheck creature then
      { s with pass := some (index, it + 1), checked := s.checked ++ [creature] }
    else
      { s with
        inCheckCreaturesVector := Function.update s.inCheckCreaturesVector creature false
        checkCreatureLists := Function.update s.checkCreatureLists index
          ((s.checkCreatureLists index).eraseIdx it) }.ReleaseCreature creature

def checkCreatures : CreatureStore :=
  match s.pass with
  | some (index, it) => s.checkNext index it
  | none => s

/-! ## Spawns, connections and notifications -/

def addSpawned : CreatureStore := { s.incrementReferenceCounter c with spawned := s.spawned ++ [c] }

def removeSpawned : CreatureStore :=
  { s with spawned := s.spawned.erase c }.decrementReferenceCounter c

def connect : CreatureStore := { s.incrementReferenceCounter c with clients := s.clients ++ [c] }

def release : CreatureStore := { s with clients := s.clients.erase c }.decrementReferenceCounter c

/-- The reference that `Tile::postAddNotification` takes. -/
def hold : CreatureStore := { s.incrementReferenceCounter c with held := s.held ++ [c] }

def releaseHeld : CreatureStore := { s with held := s.held.erase c }.ReleaseCreature c

end CreatureStore

inductive CreatureOp where
  | create (c : CreatureId)
  | discard (c : CreatureId)
  | placeCreature (c : CreatureId)
  | beginRemoval (c : CreatureId)
  | onRemoveCreature (c : CreatureId)
  | endRemoval (c : CreatureId)
  | setMaster (c : CreatureId) (newMaster : Option CreatureId)
  | addTo (m c : CreatureId) (list : MonsterList) (pushFront : Bool)
  | removeFrom (m c : CreatureId) (list : MonsterList)
  | dropFrom (m : CreatureId) (list : MonsterList) (p : CreatureId → Bool)
  | onFollowCreatureComplete (m c : CreatureId) (hasFollowPath : Bool)
  | death (m : CreatureId)
  | addCreatureCheck (c : CreatureId) (uniform_random : Nat)
  | removeCreatureCheck (c : CreatureId)
  | beginPass (index : Nat)
  | checkCreatures
  | addSpawned (c : CreatureId)
  | removeSpawned (c : CreatureId)
  | connect (c : CreatureId)
  | release (c : CreatureId)
  | hold (c : CreatureId)
  | releaseHeld (c : CreatureId)
  | cleanup

namespace CreatureOp

def apply (s : CreatureStore) : CreatureOp → CreatureStore
  | create c => s.create c
  | discard c => s.discard c
  | placeCreature c => s.internalPlaceCreature c
  | beginRemoval c => s.beginRemoval c
  | onRemoveCreature c => s.onRemoveCreature c
  | endRemoval c => s.endRemoval c
  | setMaster c newMaster => s.setMaster c newMaster
  | addTo m c list pushFront => s.addTo c m list pushFront
  | removeFrom m c list => s.removeFrom c m list
  | dropFrom m list p => s.dropFrom m list p
  | onFollowCreatureComplete m c hasFollowPath => s.onFollowCreatureComplete c m hasFollowPath
  | death m => s.death m
  | addCreatureCheck c uniform_random => s.addCreatureCheck c uniform_random
  | removeCreatureCheck c => s.removeCreatureCheck c
  | beginPass index => s.beginPass index
  | checkCreatures => s.checkCreatures
  | addSpawned c => s.addSpawned c
  | removeSpawned c => s.removeSpawned c
  | connect c => s.connect c
  | release c => s.release c
  | hold c => s.hold c
  | releaseHeld c => s.releaseHeld c
  | cleanup => s.cleanup

/-- Functions are called with creatures that exist, those of a monster while it stands on the map
or is just being removed. The one pass over the check lists ends before the next begins. -/
def Valid (s : CreatureStore) : CreatureOp → Prop
  | create c => c ∉ s.alive
  | discard c => c ∈ s.alive ∧ s.referenceCounter c = 0
  | placeCreature c => c ∈ s.alive
  | beginRemoval c => c ∈ s.onMap
  | onRemoveCreature c => c ∈ s.removing
  | endRemoval c => c ∈ s.removing
  | setMaster c newMaster => c ∈ s.alive ∧ ∀ m, newMaster = some m → m ∈ s.alive
  | addTo m c _ _ => (m ∈ s.onMap ∨ m ∈ s.removing) ∧ c ∈ s.alive
  | removeFrom m _ _ => m ∈ s.onMap ∨ m ∈ s.removing
  | dropFrom m _ _ => m ∈ s.onMap ∨ m ∈ s.removing
  | onFollowCreatureComplete m _ _ => m ∈ s.onMap ∨ m ∈ s.removing
  | death m => m ∈ s.onMap ∨ m ∈ s.removing
  | addCreatureCheck c uniform_random => c ∈ s.alive ∧ uniform_random < EVENT_CREATURECOUNT
  | removeCreatureCheck c => c ∈ s.alive
  | beginPass index => s.pass = none ∧ index < EVENT_CREATURECOUNT
  | checkCreatures => s.pass.isSome
  | addSpawned c => c ∈ s.alive
  | removeSpawned c => c ∈ s.spawned
  | connect c => c ∈ s.alive
  | release c => c ∈ s.clients
  | hold c => c ∈ s.alive
  | releaseHeld c => c ∈ s.held
  | cleanup => True

end CreatureOp

def creatureSystem : Run.System CreatureStore CreatureOp where
  init s := s = {}
  step s op s' := op.Valid s ∧ s' = op.apply s

namespace CreatureStore

variable {s s' : CreatureStore} {c d m : CreatureId} {pending : List CreatureId}

/-! ## What holds between two steps -/

def listed (s : CreatureStore) : List CreatureId :=
  (List.range EVENT_CREATURECOUNT).flatMap s.checkCreatureLists

/-- The references that no creature holds. -/
def outside (s : CreatureStore) : List CreatureId :=
  s.onMap ++ s.removing ++ s.spawned ++ s.clients ++ s.held ++ s.toReleaseCreatures ++ s.listed

/-- A creature is among the summons of its master, once, and of nobody else. -/
structure Masters (s : CreatureStore) : Prop where
  iff : ∀ c m, c ∈ s.alive → m ∈ s.alive → (c ∈ s.summons m ↔ s.master c = some m)
  alive : ∀ c m, c ∈ s.alive → s.master c = some m → m ∈ s.alive
  nodup : ∀ m ∈ s.alive, (s.summons m).Nodup

/-- A removed creature is still there only as long as somebody holds it. -/
structure Places (s : CreatureStore) : Prop where
  nodup : (s.onMap ++ s.removing).Nodup
  stays : ∀ c ∈ s.onMap ++ s.removing, s.isRemoved c = false
  removed : ∀ c ∈ s.alive, s.isRemoved c = true → 0 < s.referenceCounter c

/-- A creature is in at most one of the lists, once, and the flags say whether. -/
structure Checks (s : CreatureStore) : Prop where
  nodup : s.listed.Nodup
  iff : ∀ c ∈ s.alive, (s.inCheckCreaturesVector c = true ↔ c ∈ s.listed)
  check : ∀ c ∈ s.alive, s.creatureCheck c = true → s.inCheckCreaturesVector c = true
  pass : ∀ index it, s.pass = some (index, it) → index < EVENT_CREATURECOUNT ∧
    it ≤ (s.checkCreatureLists index).length ∧
      s.checked = (s.checkCreatureLists index).take it

/-- With references that are still to be given back, or that nobody has put anywhere yet. -/
structure SoundWith (s : CreatureStore) (pending : List CreatureId) : Prop where
  counted : references.Counted s (pending ++ s.outside)
  masters : s.Masters
  places : s.Places
  checks : s.Checks

def Sound (s : CreatureStore) : Prop := s.SoundWith []

theorem SoundWith.alive_of_outside (h : s.SoundWith pending) (hc : c ∈ s.outside) : c ∈ s.alive :=
  h.counted.alive_of_mem (List.mem_append_right _ hc)

theorem SoundWith.alive_of_refs (h : s.SoundWith pending) (hm : m ∈ s.alive) (hc : c ∈ s.refs m) :
    c ∈ s.alive := h.counted.alive_of_mem_refs hm hc

theorem mem_outside_of_present (h : m ∈ s.onMap ∨ m ∈ s.removing) : m ∈ s.outside := by
  simp only [outside, List.mem_append]
  tauto

/-! ## Giving references back -/

/-- What giving references back does not touch. -/
def Frame (s s' : CreatureStore) : Prop := ∃ alive referenceCounter lists summons master,
  alive ⊆ s.alive ∧ s' = { s with
    alive := alive
    referenceCounter := referenceCounter
    lists := lists
    summons := summons
    master := master }

theorem Masters.abandon (h : s.Masters) (hm : m ∈ s.alive) : (s.abandon m).Masters := by
  have hmaster (c n : CreatureId) :
      (s.abandon m).master c = some n ↔ c ∉ s.summons m ∧ s.master c = some n := by
    simp only [CreatureStore.abandon]
    split_ifs with hsummon
    · simp [hsummon]
    · simp [hsummon]
  refine ⟨fun c n hc hn => ?_, fun c n hc hold => ?_, fun n hn => ?_⟩
  · rw [hmaster]
    by_cases hnm : n = m
    · subst hnm
      rw [← h.iff c n hc hn]
      simp [CreatureStore.abandon]
    · have hsummons : (s.abandon m).summons n = s.summons n := Function.update_of_ne hnm _ _
      rw [hsummons, h.iff c n hc hn]
      refine ⟨fun hold => ⟨fun hsummon => hnm ?_, hold⟩, And.right⟩
      have hmine := (h.iff c m hc hm).mp hsummon
      exact Option.some.inj (hold.symm.trans hmine)
  · exact h.alive c n hc ((hmaster c n).mp hold).2
  · by_cases hnm : n = m
    · subst hnm
      simp [CreatureStore.abandon]
    · simp only [CreatureStore.abandon, Function.update_of_ne hnm]
      exact h.nodup n hn

theorem Masters.destruct (h : s.Masters) (hm : m ∈ s.alive) : (s.destruct m).Masters := by
  have habandon := h.abandon hm
  refine ⟨fun c n hc hn => habandon.iff c n (Finset.mem_of_mem_erase hc)
      (Finset.mem_of_mem_erase hn), fun c n hc hmaster => ?_,
    fun n hn => habandon.nodup n (Finset.mem_of_mem_erase hn)⟩
  have hcold : c ∈ (s.abandon m).alive := Finset.mem_of_mem_erase hc
  have hn := habandon.alive c n hcold hmaster
  refine Finset.mem_erase.mpr ⟨?_, hn⟩
  rintro rfl
  have hnobody := (habandon.iff c n hcold hn).mpr hmaster
  simp [CreatureStore.abandon] at hnobody

theorem Frame.refl (s : CreatureStore) : Frame s s :=
  ⟨s.alive, s.referenceCounter, s.lists, s.summons, s.master, subset_rfl, rfl⟩

theorem Frame.decrement (h : Frame s s') (c : CreatureId) :
    Frame s (references.decrement s' c) := by
  obtain ⟨alive, counter, lists, summons, master, hsub, rfl⟩ := h
  exact ⟨alive, _, lists, summons, master, hsub, rfl⟩

theorem Frame.destruct (h : Frame s s') (c : CreatureId) : Frame s (s'.destruct c) := by
  obtain ⟨alive, counter, lists, summons, master, hsub, rfl⟩ := h
  exact ⟨_, counter, _, _, _, (Finset.erase_subset c alive).trans hsub, rfl⟩

theorem Frame.alive (h : Frame s s') : s'.alive ⊆ s.alive := by
  obtain ⟨alive, counter, lists, summons, master, hsub, rfl⟩ := h
  exact hsub

theorem Frame.outside (h : Frame s s') : s'.outside = s.outside := by
  obtain ⟨alive, counter, lists, summons, master, hsub, rfl⟩ := h
  rfl

theorem Frame.isRemoved (h : Frame s s') : s'.isRemoved = s.isRemoved := by
  obtain ⟨alive, counter, lists, summons, master, hsub, rfl⟩ := h
  rfl

theorem Frame.places (h : Frame s s') (hplaces : s.Places)
    (hremoved : ∀ c ∈ s'.alive, s'.isRemoved c = true → 0 < s'.referenceCounter c) : s'.Places := by
  obtain ⟨alive, counter, lists, summons, master, hsub, rfl⟩ := h
  exact ⟨hplaces.nodup, hplaces.stays, hremoved⟩

theorem Frame.checks (h : Frame s s') (hchecks : s.Checks) : s'.Checks := by
  obtain ⟨alive, counter, lists, summons, master, hsub, rfl⟩ := h
  exact ⟨hchecks.nodup, fun c hc => hchecks.iff c (hsub hc),
    fun c hc => hchecks.check c (hsub hc), hchecks.pass⟩

theorem SoundWith.giveBack_frame (h : s.SoundWith pending) :
    (s.giveBack pending).Sound ∧ Frame s (s.giveBack pending) := by
  have hkept := h.counted.giveBack_induction (P := fun s' => Frame s s' ∧ s'.Masters)
    (fun s' a hs' => ⟨hs'.1.decrement a, hs'.2.iff, hs'.2.alive, hs'.2.nodup⟩)
    (fun s' a _ hs' _ ha _ => ⟨hs'.1.destruct a, hs'.2.destruct ha⟩) ⟨Frame.refl s, h.masters⟩
  obtain ⟨⟨hframe, hmasters⟩, hcounted⟩ := hkept
  refine ⟨⟨?_, hmasters, hframe.places h.places fun c hc hremoved => ?_, hframe.checks h.checks⟩,
    hframe⟩
  · have hsame : (s.giveBack pending).outside = s.outside := hframe.outside
    rw [List.nil_append, hsame]
    exact hcounted
  · rw [hframe.isRemoved] at hremoved
    refine Nat.pos_of_ne_zero fun hzero => ?_
    obtain ⟨halive, hbefore⟩ := RefCount.counter_of_giveBack (H := references) hc hzero
    exact absurd hbefore (h.places.removed c halive hremoved).ne'

theorem SoundWith.giveBack (h : s.SoundWith pending) : (s.giveBack pending).Sound :=
  h.giveBack_frame.1

/-- Who is held from outside survives. -/
theorem SoundWith.alive_giveBack (h : s.SoundWith pending) (hc : c ∈ s.outside) :
    c ∈ (s.giveBack pending).alive := by
  obtain ⟨hsound, hframe⟩ := h.giveBack_frame
  rw [← hframe.outside] at hc
  exact SoundWith.alive_of_outside hsound hc

theorem SoundWith.increment (h : s.SoundWith pending) (hc : c ∈ s.alive) :
    (s.incrementReferenceCounter c).SoundWith (c :: pending) where
  counted := h.counted.increment hc rfl rfl fun b => by
    simp only [references, incrementReferenceCounter, Function.update_apply]
  masters := ⟨h.masters.iff, h.masters.alive, h.masters.nodup⟩
  places := ⟨h.places.nodup, h.places.stays, fun d hd hremoved => by
    have hpos := h.places.removed d hd hremoved
    simp only [incrementReferenceCounter, Function.update_apply]
    split_ifs with hdc
    · omega
    · exact hpos⟩
  checks := ⟨h.checks.nodup, h.checks.iff, h.checks.check, h.checks.pass⟩

/-! ## One lemma for each operation -/

theorem Sound.create (h : s.Sound) (hc : c ∉ s.alive) : (s.create c).Sound := by
  have hne {d : CreatureId} (hd : d ∈ s.alive) : d ≠ c := fun h => hc (h ▸ hd)
  have hold {d : CreatureId} (hd : d ∈ (s.create c).alive) : d = c ∨ d ∈ s.alive ∧ d ≠ c :=
    (Finset.mem_insert.mp hd).imp_right fun hd => ⟨hd, hne hd⟩
  have houtside {d : CreatureId} (hd : d ∈ s.outside) : d ≠ c :=
    hne (SoundWith.alive_of_outside h hd)
  refine ⟨?_, ⟨?_, ?_, ?_⟩, ⟨h.places.nodup, ?_, ?_⟩, ⟨h.checks.nodup, ?_, ?_, h.checks.pass⟩⟩
  · refine h.counted.create (a := c) hc rfl ?_ (fun b hb => ?_) fun b => ?_
    · simp [references, refs, CreatureStore.create]
    · simp only [references, refs, CreatureStore.create, Function.update_of_ne (hne hb)]
    · simp only [references, CreatureStore.create, Function.update_apply]
  · intro d m hd hm
    obtain rfl | ⟨hmold, hmc⟩ := hold hm
    · refine iff_of_false (by simp [CreatureStore.create]) fun hmaster => ?_
      obtain rfl | ⟨hdold, hdm⟩ := hold hd
      · simp [CreatureStore.create] at hmaster
      · simp only [CreatureStore.create, Function.update_of_ne hdm] at hmaster
        exact hc (h.masters.alive d m hdold hmaster)
    · have hsummons : (s.create c).summons m = s.summons m := Function.update_of_ne hmc _ _
      rw [hsummons]
      obtain rfl | ⟨hdold, hdc⟩ := hold hd
      · refine iff_of_false (fun hmem => hc ?_) (by simp [CreatureStore.create])
        exact SoundWith.alive_of_refs h hmold (List.mem_append_right _ hmem)
      · rw [h.masters.iff d m hdold hmold]
        simp only [CreatureStore.create, Function.update_of_ne hdc]
  · intro d m hd hmaster
    obtain rfl | ⟨hd, hdc⟩ := hold hd
    · simp [CreatureStore.create] at hmaster
    · simp only [CreatureStore.create, Function.update_of_ne hdc] at hmaster
      exact Finset.mem_insert_of_mem (h.masters.alive d m hd hmaster)
  · intro m hm
    obtain rfl | ⟨hm, hmc⟩ := hold hm
    · simp [CreatureStore.create]
    · simp only [CreatureStore.create, Function.update_of_ne hmc]
      exact h.masters.nodup m hm
  · intro d hd
    have hdc : d ≠ c := houtside (mem_outside_of_present (List.mem_append.mp hd))
    simp only [CreatureStore.create, Function.update_of_ne hdc]
    exact h.places.stays d hd
  · intro d hd hremoved
    obtain rfl | ⟨hd, hdc⟩ := hold hd
    · simp [CreatureStore.create] at hremoved
    · simp only [CreatureStore.create, Function.update_of_ne hdc] at hremoved ⊢
      exact h.places.removed d hd hremoved
  · intro d hd
    obtain rfl | ⟨hd, hdc⟩ := hold hd
    · refine iff_of_false (by simp [CreatureStore.create]) fun hlisted => ?_
      exact houtside (List.mem_append_right _ hlisted) rfl
    · simp only [CreatureStore.create, Function.update_of_ne hdc]
      exact h.checks.iff d hd
  · intro d hd hcheck
    obtain rfl | ⟨hd, hdc⟩ := hold hd
    · simp [CreatureStore.create] at hcheck
    · simp only [CreatureStore.create, Function.update_of_ne hdc] at hcheck ⊢
      exact h.checks.check d hd hcheck

theorem Sound.discard (h : s.Sound) (hc : c ∈ s.alive) (hzero : s.referenceCounter c = 0) :
    (s.discard c).Sound := by
  have hframe : Frame s (s.destruct c) := (Frame.refl s).destruct c
  have hless : (s.destruct c).SoundWith (s.refs c) := by
    refine ⟨h.counted.destroy hc hzero, h.masters.destruct hc, hframe.places h.places ?_,
      hframe.checks h.checks⟩
    exact fun d hd hremoved => h.places.removed d (hframe.alive hd) hremoved
  exact hless.giveBack

theorem Sound.internalPlaceCreature (h : s.Sound) (hc : c ∈ s.alive) :
    (s.internalPlaceCreature c).Sound := by
  unfold CreatureStore.internalPlaceCreature
  by_cases hparent : s.hasParent c = true
  · rw [if_pos hparent]
    exact h
  · rw [if_neg hparent]
    simp only [hasParent, Bool.or_eq_true, decide_eq_true_eq, not_or, Bool.not_eq_true] at hparent
    have hmore := SoundWith.increment h hc
    refine ⟨?_, ⟨hmore.masters.iff, hmore.masters.alive, hmore.masters.nodup⟩,
      ⟨?_, ?_, hmore.places.removed⟩,
      ⟨hmore.checks.nodup, hmore.checks.iff, hmore.checks.check, hmore.checks.pass⟩⟩
    · refine hmore.counted.congr rfl rfl rfl fun a => ?_
      simp [outside, listed, incrementReferenceCounter, List.count_cons]
      omega
    · have hnew : c ∉ s.onMap ++ s.removing := by simp [hparent.1.1, hparent.1.2]
      have hmiddle : (c :: (s.onMap ++ s.removing)).Perm (s.onMap ++ [c] ++ s.removing) := by
        simpa using List.perm_middle.symm
      exact hmiddle.nodup_iff.mp (List.nodup_cons.mpr ⟨hnew, h.places.nodup⟩)
    · intro d hd
      have hd : d = c ∨ d ∈ s.onMap ++ s.removing := by
        simp only [List.mem_append, List.mem_singleton] at hd ⊢
        tauto
      obtain rfl | hd := hd
      · exact hparent.2
      · exact h.places.stays d hd

theorem Sound.beginRemoval (h : s.Sound) (hc : c ∈ s.onMap) : (s.beginRemoval c).Sound := by
  have hperm : (s.onMap.erase c ++ (s.removing ++ [c])).Perm (s.onMap ++ s.removing) := by
    rw [← List.append_assoc]
    have herase := (List.perm_cons_erase hc).symm
    exact (List.perm_append_singleton c _).trans (herase.append_right s.removing)
  refine ⟨?_, ⟨h.masters.iff, h.masters.alive, h.masters.nodup⟩,
    ⟨hperm.nodup_iff.mpr h.places.nodup, fun d hd => h.places.stays d (hperm.mem_iff.mp hd),
      h.places.removed⟩, ⟨h.checks.nodup, h.checks.iff, h.checks.check, h.checks.pass⟩⟩
  refine h.counted.congr rfl rfl rfl fun a => ?_
  have hcount := hperm.count_eq a
  simp only [List.nil_append, outside, List.count_append] at hcount ⊢
  simp only [CreatureStore.beginRemoval, listed, List.count_append] at hcount ⊢
  omega

/-- Other hands hold the references, outside of the map and of the check lists. -/
theorem SoundWith.rehold {pending' spawned clients held toRelease : List CreatureId}
    (h : s.SoundWith pending)
    (hcount : ∀ a, pending.count a + (s.spawned.count a + s.clients.count a + s.held.count a +
      s.toReleaseCreatures.count a) = pending'.count a + (spawned.count a + clients.count a +
        held.count a + toRelease.count a)) :
    SoundWith { s with
      spawned := spawned
      clients := clients
      held := held
      toReleaseCreatures := toRelease } pending' where
  counted := by
    refine h.counted.congr rfl rfl rfl fun a => ?_
    have ha := hcount a
    simp only [outside, listed, List.count_append]
    omega
  masters := ⟨h.masters.iff, h.masters.alive, h.masters.nodup⟩
  places := ⟨h.places.nodup, h.places.stays, h.places.removed⟩
  checks := ⟨h.checks.nodup, h.checks.iff, h.checks.check, h.checks.pass⟩

theorem SoundWith.ReleaseCreature (h : s.SoundWith (c :: pending)) :
    (s.ReleaseCreature c).SoundWith pending :=
  h.rehold fun a => by
    simp only [List.count_append, List.count_cons, List.count_nil]
    omega

theorem Sound.cleanup (h : s.Sound) : s.cleanup.Sound := by
  have htaken : SoundWith { s with toReleaseCreatures := [] } s.toReleaseCreatures :=
    SoundWith.rehold h fun a => by
      simp only [List.count_nil]
      omega
  exact htaken.giveBack

theorem Sound.addSpawned (h : s.Sound) (hc : c ∈ s.alive) : (s.addSpawned c).Sound :=
  (SoundWith.increment h hc).rehold fun a => by
    simp only [incrementReferenceCounter, List.count_append, List.count_cons, List.count_nil]
    omega

theorem Sound.connect (h : s.Sound) (hc : c ∈ s.alive) : (s.connect c).Sound :=
  (SoundWith.increment h hc).rehold fun a => by
    simp only [incrementReferenceCounter, List.count_append, List.count_cons, List.count_nil]
    omega

theorem Sound.hold (h : s.Sound) (hc : c ∈ s.alive) : (s.hold c).Sound :=
  (SoundWith.increment h hc).rehold fun a => by
    simp only [incrementReferenceCounter, List.count_append, List.count_cons, List.count_nil]
    omega

theorem Sound.removeSpawned (h : s.Sound) (hc : c ∈ s.spawned) : (s.removeSpawned c).Sound :=
  SoundWith.giveBack (SoundWith.rehold h fun a => by
    have hcount := (List.perm_cons_erase hc).count_eq a
    simp only [List.count_cons, List.count_nil] at hcount ⊢
    omega)

theorem Sound.release (h : s.Sound) (hc : c ∈ s.clients) : (s.release c).Sound :=
  SoundWith.giveBack (SoundWith.rehold h fun a => by
    have hcount := (List.perm_cons_erase hc).count_eq a
    simp only [List.count_cons, List.count_nil] at hcount ⊢
    omega)

theorem Sound.releaseHeld (h : s.Sound) (hc : c ∈ s.held) : (s.releaseHeld c).Sound := by
  have htaken : SoundWith { s with held := s.held.erase c } [c] :=
    SoundWith.rehold h fun a => by
      have hcount := (List.perm_cons_erase hc).count_eq a
      simp only [List.count_cons, List.count_nil] at hcount ⊢
      omega
  exact htaken.ReleaseCreature

theorem SoundWith.removeCreatureCheck (h : s.SoundWith pending) :
    (s.removeCreatureCheck c).SoundWith pending := by
  unfold CreatureStore.removeCreatureCheck
  split_ifs with hlisted
  · refine ⟨h.counted.congr rfl rfl rfl fun _ => rfl,
      ⟨h.masters.iff, h.masters.alive, h.masters.nodup⟩,
      ⟨h.places.nodup, h.places.stays, h.places.removed⟩,
      ⟨h.checks.nodup, h.checks.iff, fun d hd hcheck => ?_, h.checks.pass⟩⟩
    simp only [Function.update_apply] at hcheck
    split_ifs at hcheck with hdc
    exact h.checks.check d hd hcheck
  · exact h

theorem Sound.endRemoval (h : s.Sound) (hc : c ∈ s.removing) : (s.endRemoval c).Sound := by
  have herase := List.perm_cons_erase hc
  have hperm : (c :: (s.onMap ++ s.removing.erase c)).Perm (s.onMap ++ s.removing) :=
    List.perm_middle.symm.trans (herase.symm.append_left s.onMap)
  have hnodup := List.nodup_cons.mp (hperm.nodup_iff.mpr h.places.nodup)
  refine SoundWith.removeCreatureCheck (SoundWith.ReleaseCreature ⟨?_,
    ⟨h.masters.iff, h.masters.alive, h.masters.nodup⟩,
    ⟨hnodup.2, fun d hd => ?_, fun d hd hremoved => ?_⟩,
    ⟨h.checks.nodup, h.checks.iff, h.checks.check, h.checks.pass⟩⟩)
  · refine h.counted.congr rfl rfl rfl fun a => ?_
    have hcount := herase.count_eq a
    simp only [List.nil_append, outside, listed, List.count_append, List.count_cons] at hcount ⊢
    simp only [List.count_nil]
    omega
  · have hdc : d ≠ c := fun h => hnodup.1 (h ▸ hd)
    simp only [Function.update_of_ne hdc]
    exact h.places.stays d (hperm.mem_iff.mp (List.mem_cons_of_mem c hd))
  · simp only [Function.update_apply] at hremoved
    split_ifs at hremoved with hdc
    · subst hdc
      have hpos : 0 < s.outside.count d :=
        List.count_pos_iff.mpr (mem_outside_of_present (.inr hc))
      have hcounted := h.counted.counter_eq d
      simp only [RefCount.holders, List.nil_append] at hcounted
      change 0 < references.counter s d
      omega
    · exact h.places.removed d hd hremoved

/-! ### Masters -/

theorem SoundWith.leave (h : s.SoundWith pending) (hc : c ∈ s.alive)
    (hmaster : s.master c = some m) : SoundWith { s with
      summons := Function.update s.summons m ((s.summons m).erase c)
      master := Function.update s.master c none } (c :: pending) := by
  have hm := h.masters.alive c m hc hmaster
  have hmem := (h.masters.iff c m hc hm).mpr hmaster
  refine ⟨?_, ⟨fun d n hd hn => ?_, fun d n hd hn => ?_, fun n hn => ?_⟩,
    ⟨h.places.nodup, h.places.stays, h.places.removed⟩,
    ⟨h.checks.nodup, h.checks.iff, h.checks.check, h.checks.pass⟩⟩
  · refine h.counted.move [] [c] hm rfl rfl
      (fun d hd => by simp only [references, refs, Function.update_of_ne hd]) fun a => ?_
    have hcount := (List.perm_cons_erase hmem).count_eq a
    simp only [references, refs, Function.update_self, List.count_append, List.count_cons,
      List.count_nil] at hcount ⊢
    omega
  · simp only [Function.update_apply]
    split_ifs with hnm hdc hdc
    · subst hnm hdc
      simpa using (h.masters.nodup n hn).not_mem_erase
    · subst hnm
      rw [List.mem_erase_of_ne hdc]
      exact h.masters.iff d n hd hn
    · subst hdc
      rw [h.masters.iff d n hd hn, hmaster]
      simpa using Ne.symm hnm
    · exact h.masters.iff d n hd hn
  · simp only [Function.update_apply] at hn
    split_ifs at hn with hdc
    exact h.masters.alive d n hd hn
  · simp only [Function.update_apply]
    split_ifs with hnm
    · exact (h.masters.nodup m hm).erase c
    · exact h.masters.nodup n hn

theorem SoundWith.join (h : s.SoundWith (c :: pending)) (hc : c ∈ s.alive) (hm : m ∈ s.alive)
    (hmaster : s.master c = none) : SoundWith { s with
      summons := Function.update s.summons m (s.summons m ++ [c])
      master := Function.update s.master c (some m) } pending := by
  have hfree {n : CreatureId} (hn : n ∈ s.alive) : c ∉ s.summons n := by
    rw [h.masters.iff c n hc hn, hmaster]
    simp
  refine ⟨?_, ⟨fun d n hd hn => ?_, fun d n hd hn => ?_, fun n hn => ?_⟩,
    ⟨h.places.nodup, h.places.stays, h.places.removed⟩,
    ⟨h.checks.nodup, h.checks.iff, h.checks.check, h.checks.pass⟩⟩
  · refine h.counted.move [c] [] hm rfl rfl
      (fun d hd => by simp only [references, refs, Function.update_of_ne hd]) fun a => ?_
    simp only [references, refs, Function.update_self, List.count_append, List.count_nil]
    omega
  · simp only [Function.update_apply]
    split_ifs with hnm hdc hdc
    · subst hnm hdc
      simp
    · subst hnm
      rw [List.mem_append, List.mem_singleton, h.masters.iff d n hd hn]
      simp [hdc]
    · subst hdc
      refine iff_of_false (hfree hn) ?_
      simpa using Ne.symm hnm
    · exact h.masters.iff d n hd hn
  · simp only [Function.update_apply] at hn
    split_ifs at hn with hdc
    · obtain rfl := Option.some.inj hn
      exact hm
    · exact h.masters.alive d n hd hn
  · simp only [Function.update_apply]
    split_ifs with hnm
    · exact (List.perm_append_singleton c _).nodup_iff.mpr
        (List.nodup_cons.mpr ⟨hfree hm, h.masters.nodup m hm⟩)
    · exact h.masters.nodup n hn

theorem update_push_erase {summons : CreatureId → List CreatureId} (hmem : c ∈ summons d)
    (m : CreatureId) :
    Function.update (Function.update summons m (summons m ++ [c])) d
        ((Function.update summons m (summons m ++ [c]) d).erase c) =
      Function.update (Function.update summons d ((summons d).erase c)) m
        (Function.update summons d ((summons d).erase c) m ++ [c]) := by
  by_cases hmd : m = d
  · subst hmd
    simp only [Function.update_self, Function.update_idem, List.erase_append_left _ hmem]
  · rw [Function.update_of_ne (Ne.symm hmd), Function.update_of_ne hmd,
      Function.update_comm hmd]

theorem Sound.setMaster (h : s.Sound) (hc : c ∈ s.alive) {newMaster : Option CreatureId}
    (hnew : ∀ m, newMaster = some m → m ∈ s.alive) : (s.setMaster c newMaster).Sound := by
  unfold CreatureStore.setMaster
  cases hmaster : s.master c with
  | none =>
    cases newMaster with
    | none => exact h
    | some m => exact (SoundWith.increment h hc).join hc (hnew m rfl) hmaster
  | some old =>
    have hold := h.masters.alive c old hc hmaster
    have hmem := (h.masters.iff c old hc hold).mpr hmaster
    have hleft := SoundWith.leave h hc hmaster
    cases newMaster with
    | none =>
      simp only [Option.isNone_none, Option.isNone_some, Bool.and_false, Bool.false_eq_true,
        if_false, Option.elim_none, Option.elim_some, eraseSummon, if_pos hmem]
      exact hleft.giveBack
    | some m =>
      have hjoined := (hleft.increment hc).join (m := m) hc (hnew m rfl)
        (by simp [incrementReferenceCounter])
      have hpushed : c ∈ (s.pushSummon c m).summons old := by
        simp only [pushSummon, Function.update_apply]
        split_ifs with hm
        · subst hm
          exact List.mem_append_left _ hmem
        · exact hmem
      simp only [Option.isNone_some, Bool.and_false, Bool.false_eq_true,
        if_false, Option.elim_some, eraseSummon, if_pos hpushed]
      refine (congrArg Sound ?_).mp hjoined.giveBack
      rw [decrementReferenceCounter]
      congr 1
      have hsummons := update_push_erase hmem m
      simp only [pushSummon, incrementReferenceCounter, hsummons, Function.update_idem]

theorem Sound.onRemoveCreature (h : s.Sound) (hc : c ∈ s.alive) : (s.onRemoveCreature c).Sound := by
  unfold CreatureStore.onRemoveCreature
  split
  · split_ifs
    · exact h
    · exact h.setMaster hc nofun
  · exact h

/-! ### Targets and friends -/

theorem SoundWith.setList {pending' : List CreatureId} (h : s.SoundWith pending) (hm : m ∈ s.alive)
    {list : MonsterList} {l : List CreatureId}
    (hcount : ∀ a, (s.lists m list).count a + pending.count a = l.count a + pending'.count a) :
    (s.setList m list l).SoundWith pending' where
  counted := by
    refine h.counted.move pending pending' hm rfl rfl (fun d hd => ?_) fun a => ?_
    · simp only [references, refs, CreatureStore.setList, Function.update_of_ne hd]
    · have ha := hcount a
      cases list with
      | targetList =>
        simp only [references, refs, CreatureStore.setList, Function.update_self,
          List.count_append] at ha ⊢
        rw [Function.update_of_ne (by decide)]
        omega
      | friendList =>
        simp only [references, refs, CreatureStore.setList, Function.update_self,
          List.count_append] at ha ⊢
        rw [Function.update_of_ne (by decide)]
        omega
  masters := ⟨h.masters.iff, h.masters.alive, h.masters.nodup⟩
  places := ⟨h.places.nodup, h.places.stays, h.places.removed⟩
  checks := ⟨h.checks.nodup, h.checks.iff, h.checks.check, h.checks.pass⟩

theorem Sound.addTo (h : s.Sound) (hm : m ∈ s.alive) (hc : c ∈ s.alive) {list : MonsterList}
    {pushFront : Bool} : (s.addTo c m list pushFront).Sound := by
  unfold CreatureStore.addTo
  split_ifs with hmem hfront
  · exact h
  · refine (SoundWith.increment h hc).setList hm fun a => ?_
    simp only [incrementReferenceCounter, List.count_cons, List.count_nil]
    omega
  · refine (SoundWith.increment h hc).setList hm fun a => ?_
    simp only [incrementReferenceCounter, List.count_append, List.count_cons, List.count_nil]
    omega

theorem Sound.removeFrom (h : s.Sound) (hm : m ∈ s.alive) {list : MonsterList} :
    (s.removeFrom c m list).Sound := by
  unfold CreatureStore.removeFrom
  split_ifs with hmem
  · refine SoundWith.giveBack (SoundWith.setList h hm fun a => ?_)
    have hcount := (List.perm_cons_erase hmem).count_eq a
    simp only [List.count_cons, List.count_nil] at hcount ⊢
    omega
  · exact h

theorem SoundWith.filter (h : s.Sound) (hm : m ∈ s.alive) (list : MonsterList)
    (p : CreatureId → Bool) :
    (s.setList m list ((s.lists m list).filter fun c => !p c)).SoundWith
      ((s.lists m list).filter p) :=
  SoundWith.setList h hm fun a => by
    have hcount := (List.filter_append_perm p (s.lists m list)).count_eq a
    simp only [List.count_append, List.count_nil] at hcount ⊢
    omega

theorem Sound.dropFrom (h : s.Sound) (hm : m ∈ s.alive) {list : MonsterList}
    {p : CreatureId → Bool} : (s.dropFrom m list p).Sound :=
  (SoundWith.filter h hm list p).giveBack

theorem Sound.alive_dropFrom (h : s.Sound) (hm : m ∈ s.outside) {list : MonsterList}
    {p : CreatureId → Bool} : m ∈ (s.dropFrom m list p).alive :=
  (SoundWith.filter h (SoundWith.alive_of_outside h hm) list p).alive_giveBack hm

theorem Sound.onFollowCreatureComplete (h : s.Sound) (hm : m ∈ s.alive) {hasFollowPath : Bool} :
    (s.onFollowCreatureComplete c m hasFollowPath).Sound := by
  unfold CreatureStore.onFollowCreatureComplete
  split_ifs with hmem hpath hsummon
  · refine SoundWith.setList h hm fun a => ?_
    rw [← (List.perm_cons_erase hmem).count_eq a]
  · refine SoundWith.setList h hm fun a => ?_
    rw [(List.perm_append_singleton c _).count_eq a, ← (List.perm_cons_erase hmem).count_eq a]
  · refine SoundWith.giveBack (SoundWith.setList h hm fun a => ?_)
    have hcount := (List.perm_cons_erase hmem).count_eq a
    simp only [List.count_cons, List.count_nil] at hcount ⊢
    omega
  · exact h

theorem Sound.death (h : s.Sound) (hm : m ∈ s.outside) : (s.death m).Sound := by
  have halive := SoundWith.alive_of_outside h hm
  have habandoned : (s.abandon m).SoundWith (s.summons m) := by
    refine ⟨?_, h.masters.abandon halive, ⟨h.places.nodup, h.places.stays, h.places.removed⟩,
      ⟨h.checks.nodup, h.checks.iff, h.checks.check, h.checks.pass⟩⟩
    refine h.counted.move [] (s.summons m) halive rfl rfl (fun d hd => ?_) fun a => ?_
    · simp only [references, refs, abandon, Function.update_of_ne hd]
    · simp only [references, refs, abandon, Function.update_self, List.count_append,
        List.count_nil]
      omega
  obtain ⟨hreleased, hframe⟩ := habandoned.giveBack_frame
  have houtside : m ∈ ((s.abandon m).giveBack (s.summons m)).outside := by
    rw [hframe.outside]
    exact hm
  have htargets : (((s.abandon m).giveBack (s.summons m)).dropFrom m .targetList
      fun _ => true).Sound := hreleased.dropFrom (SoundWith.alive_of_outside hreleased houtside)
  exact htargets.dropFrom (hreleased.alive_dropFrom houtside)

/-! ### Checks -/

theorem count_listed_update {i : Nat} (hi : i < EVENT_CREATURECOUNT) (v : List CreatureId)
    (a : CreatureId) :
    ((List.range EVENT_CREATURECOUNT).flatMap (Function.update s.checkCreatureLists i v)).count a +
      (s.checkCreatureLists i).count a = s.listed.count a + v.count a :=
  ListSet.count_flatMap_update List.nodup_range (List.mem_range.mpr hi) v a

theorem SoundWith.addCheckFlag (h : s.SoundWith pending) (hlisted : s.inCheckCreaturesVector c) :
    SoundWith { s with creatureCheck := Function.update s.creatureCheck c true } pending := by
  refine ⟨h.counted.congr rfl rfl rfl fun _ => rfl,
    ⟨h.masters.iff, h.masters.alive, h.masters.nodup⟩,
    ⟨h.places.nodup, h.places.stays, h.places.removed⟩,
    ⟨h.checks.nodup, h.checks.iff, fun d hd hcheck => ?_, h.checks.pass⟩⟩
  simp only [Function.update_apply] at hcheck
  split_ifs at hcheck with hdc
  · rw [hdc]
    exact hlisted
  · exact h.checks.check d hd hcheck

/-- A creature comes to the end of one of the lists, where a pass through it still finds it. -/
theorem SoundWith.enlist (h : s.SoundWith (c :: pending)) (hc : c ∈ s.alive) {i : Nat}
    (hi : i < EVENT_CREATURECOUNT) (hnew : s.inCheckCreaturesVector c = false) :
    SoundWith { s with
      inCheckCreaturesVector := Function.update s.inCheckCreaturesVector c true
      checkCreatureLists := Function.update s.checkCreatureLists i
        (s.checkCreatureLists i ++ [c]) } pending := by
  have hcount (a : CreatureId) : ((List.range EVENT_CREATURECOUNT).flatMap (Function.update
      s.checkCreatureLists i (s.checkCreatureLists i ++ [c]))).count a =
        (c :: s.listed).count a := by
    have ha := count_listed_update (s := s) hi (s.checkCreatureLists i ++ [c]) a
    rw [List.count_append] at ha
    simp only [List.count_cons, List.count_nil] at ha ⊢
    omega
  have hperm := List.perm_iff_count.mpr hcount
  have hfree : c ∉ s.listed := by
    rw [← h.checks.iff c hc, hnew]
    exact Bool.false_ne_true
  refine ⟨?_, ⟨h.masters.iff, h.masters.alive, h.masters.nodup⟩,
    ⟨h.places.nodup, h.places.stays, h.places.removed⟩,
    ⟨hperm.nodup_iff.mpr (List.nodup_cons.mpr ⟨hfree, h.checks.nodup⟩), fun d hd => ?_,
      fun d hd hcheck => ?_, fun index it hpass => ?_⟩⟩
  · refine h.counted.congr rfl rfl rfl fun a => ?_
    have ha := hcount a
    simp only [List.cons_append, outside, listed, List.count_append, List.count_cons] at ha ⊢
    omega
  · rw [listed, hperm.mem_iff, List.mem_cons, ← h.checks.iff d hd]
    simp only [Function.update_apply]
    split_ifs with hdc
    · simp [hdc]
    · simp [hdc]
  · simp only [Function.update_apply]
    split_ifs with hdc
    · rfl
    · exact h.checks.check d hd hcheck
  · obtain ⟨hindex, hit, hchecked⟩ := h.checks.pass index it hpass
    refine ⟨hindex, ?_⟩
    simp only [Function.update_apply]
    split_ifs with hii
    · subst hii
      refine ⟨hit.trans (by simp), ?_⟩
      rw [List.take_append_of_le_length hit]
      exact hchecked
    · exact ⟨hit, hchecked⟩

theorem Sound.addCreatureCheck (h : s.Sound) (hc : c ∈ s.alive) {i : Nat}
    (hi : i < EVENT_CREATURECOUNT) : (s.addCreatureCheck c i).Sound := by
  unfold CreatureStore.addCreatureCheck
  by_cases hlisted : s.inCheckCreaturesVector c = true
  · simp only [if_pos hlisted]
    exact SoundWith.addCheckFlag h hlisted
  · simp only [if_neg hlisted]
    have hmore := (SoundWith.increment h hc).enlist hc hi (Bool.eq_false_of_not_eq_true hlisted)
    exact hmore.addCheckFlag (c := c) (Function.update_self ..)

theorem Sound.beginPass (h : s.Sound) {index : Nat} (hindex : index < EVENT_CREATURECOUNT) :
    (s.beginPass index).Sound := by
  refine ⟨h.counted.congr rfl rfl rfl fun _ => rfl,
    ⟨h.masters.iff, h.masters.alive, h.masters.nodup⟩,
    ⟨h.places.nodup, h.places.stays, h.places.removed⟩,
    ⟨h.checks.nodup, h.checks.iff, h.checks.check, fun index it hpass => ?_⟩⟩
  obtain ⟨rfl, rfl⟩ := Prod.mk.inj (Option.some.inj hpass)
  exact ⟨hindex, Nat.zero_le _, rfl⟩

/-- A creature that is not to be checked any more leaves the list that a pass goes through. -/
theorem SoundWith.strike (h : s.Sound) {index it : Nat} (hindex : index < EVENT_CREATURECOUNT)
    (hlt : it < (s.checkCreatureLists index).length)
    (hget : (s.checkCreatureLists index)[it] = c) (hcheck : s.creatureCheck c = false)
    (hpass : s.pass = some (index, it)) :
    SoundWith { s with
      inCheckCreaturesVector := Function.update s.inCheckCreaturesVector c false
      checkCreatureLists := Function.update s.checkCreatureLists index
        ((s.checkCreatureLists index).eraseIdx it) } [c] := by
  have hcount (a : CreatureId) : (c :: (List.range EVENT_CREATURECOUNT).flatMap (Function.update
      s.checkCreatureLists index ((s.checkCreatureLists index).eraseIdx it))).count a =
        s.listed.count a := by
    have ha := count_listed_update (s := s) hindex ((s.checkCreatureLists index).eraseIdx it) a
    have herase := (List.getElem_cons_eraseIdx_perm hlt).count_eq a
    rw [hget] at herase
    simp only [List.count_cons] at herase ⊢
    omega
  have hperm := List.perm_iff_count.mpr hcount
  have hnodup := List.nodup_cons.mp (hperm.nodup_iff.mpr h.checks.nodup)
  refine ⟨?_, ⟨h.masters.iff, h.masters.alive, h.masters.nodup⟩,
    ⟨h.places.nodup, h.places.stays, h.places.removed⟩,
    ⟨hnodup.2, fun d hd => ?_, fun d hd hdcheck => ?_, fun index' it' hpass' => ?_⟩⟩
  · refine h.counted.congr rfl rfl rfl fun a => ?_
    have ha := hcount a
    simp only [List.nil_append, List.cons_append, outside, listed, List.count_append,
      List.count_cons] at ha ⊢
    omega
  · simp only [Function.update_apply]
    split_ifs with hdc
    · subst hdc
      exact iff_of_false id hnodup.1
    · rw [h.checks.iff d hd, ← hperm.mem_iff, List.mem_cons]
      simp [hdc, listed]
  · have hdc : d ≠ c := by
      rintro rfl
      exact absurd (hdcheck.symm.trans hcheck) (by decide)
    simp only [Function.update_of_ne hdc]
    exact h.checks.check d hd hdcheck
  · obtain ⟨rfl, rfl⟩ := Prod.mk.inj (Option.some.inj (hpass.symm.trans hpass'))
    obtain ⟨-, -, hchecked⟩ := h.checks.pass index it hpass
    refine ⟨hindex, ?_⟩
    simp only [Function.update_self]
    refine ⟨?_, ?_⟩
    · rw [List.length_eraseIdx_of_lt hlt]
      omega
    · rw [List.take_eraseIdx_eq_take_of_le _ _ _ le_rfl]
      exact hchecked

theorem Sound.checkNext (h : s.Sound) {index it : Nat} (hpass : s.pass = some (index, it)) :
    (s.checkNext index it).Sound := by
  obtain ⟨hindex, hit, hchecked⟩ := h.checks.pass index it hpass
  unfold CreatureStore.checkNext
  split
  next hend =>
    refine Sound.cleanup ⟨h.counted.congr rfl rfl rfl fun _ => rfl,
      ⟨h.masters.iff, h.masters.alive, h.masters.nodup⟩,
      ⟨h.places.nodup, h.places.stays, h.places.removed⟩,
      ⟨h.checks.nodup, h.checks.iff, h.checks.check, nofun⟩⟩
  next creature hcreature =>
    obtain ⟨hlt, hget⟩ := List.getElem?_eq_some_iff.mp hcreature
    split_ifs with hcheck
    · refine ⟨h.counted.congr rfl rfl rfl fun _ => rfl,
        ⟨h.masters.iff, h.masters.alive, h.masters.nodup⟩,
        ⟨h.places.nodup, h.places.stays, h.places.removed⟩,
        ⟨h.checks.nodup, h.checks.iff, h.checks.check, fun index' it' hpass' => ?_⟩⟩
      obtain ⟨rfl, rfl⟩ := Prod.mk.inj (Option.some.inj hpass')
      refine ⟨hindex, hlt, ?_⟩
      rw [hchecked, List.take_add_one, hcreature, Option.toList_some]
    · exact SoundWith.ReleaseCreature
        (SoundWith.strike h hindex hlt hget (Bool.eq_false_of_not_eq_true hcheck) hpass)

theorem Sound.checkCreatures (h : s.Sound) : s.checkCreatures.Sound := by
  unfold CreatureStore.checkCreatures
  split
  next index it hpass => exact h.checkNext hpass
  next => exact h

/-! ## Runs -/

theorem Sound.apply (h : s.Sound) {op : CreatureOp} (hvalid : op.Valid s) : (op.apply s).Sound := by
  have hpresent {m : CreatureId} (hm : m ∈ s.onMap ∨ m ∈ s.removing) : m ∈ s.alive :=
    SoundWith.alive_of_outside h (mem_outside_of_present hm)
  cases op with
  | create c => exact h.create hvalid
  | discard c => exact h.discard hvalid.1 hvalid.2
  | placeCreature c => exact h.internalPlaceCreature hvalid
  | beginRemoval c => exact h.beginRemoval hvalid
  | onRemoveCreature c => exact h.onRemoveCreature (hpresent (.inr hvalid))
  | endRemoval c => exact h.endRemoval hvalid
  | setMaster c newMaster => exact h.setMaster hvalid.1 hvalid.2
  | addTo m c list pushFront => exact h.addTo (hpresent hvalid.1) hvalid.2
  | removeFrom m c list => exact h.removeFrom (hpresent hvalid)
  | dropFrom m list p => exact h.dropFrom (hpresent hvalid)
  | onFollowCreatureComplete m c hasFollowPath =>
    exact h.onFollowCreatureComplete (hpresent hvalid)
  | death m => exact h.death (mem_outside_of_present hvalid)
  | addCreatureCheck c i => exact h.addCreatureCheck hvalid.1 hvalid.2
  | removeCreatureCheck c => exact SoundWith.removeCreatureCheck h
  | beginPass index => exact h.beginPass hvalid.2
  | checkCreatures => exact h.checkCreatures
  | addSpawned c => exact h.addSpawned hvalid
  | removeSpawned c => exact h.removeSpawned hvalid
  | connect c => exact h.connect hvalid
  | release c => exact h.release hvalid
  | hold c => exact h.hold hvalid
  | releaseHeld c => exact h.releaseHeld hvalid
  | cleanup => exact h.cleanup

theorem sound_of_reachable (h : Run.Reachable creatureSystem s) : s.Sound := by
  refine h.invariant (fun s hs => ?_) fun s op s' hs hstep => ?_
  · have hinit : s = {} := hs
    rw [hinit]
    exact ⟨⟨fun _ => rfl, nofun⟩, ⟨nofun, nofun, nofun⟩, ⟨.nil, nofun, nofun⟩,
      ⟨.nil, nofun, nofun, nofun⟩⟩
  · rw [hstep.2]
    exact hs.apply hstep.1

theorem Sound.counter_eq (h : s.Sound) (c : CreatureId) :
    s.referenceCounter c = s.outside.count c + ∑ m ∈ s.alive, (s.refs m).count c :=
  h.counted.counter_eq c

theorem Sound.counter_pos (h : s.Sound) (hc : c ∈ s.alive) (hparent : s.hasParent c) :
    0 < s.referenceCounter c := by
  simp only [hasParent, Bool.or_eq_true, decide_eq_true_eq] at hparent
  rcases hparent with hpresent | hremoved
  · have hpos : 0 < s.outside.count c :=
      List.count_pos_iff.mpr (mem_outside_of_present hpresent)
    rw [h.counter_eq]
    omega
  · exact h.places.removed c hc hremoved

/-- In every run the counter of a creature is the number of the references on it, whatever is
held still exists, a master exists and has the creature among its summons, and a creature that
was once placed is there only as long as there is a reference on it. -/
theorem references_counted (h : Run.Reachable creatureSystem s) :
    (∀ c, s.referenceCounter c = s.outside.count c + ∑ m ∈ s.alive, (s.refs m).count c) ∧
    (∀ c ∈ s.outside, c ∈ s.alive) ∧ (∀ m ∈ s.alive, ∀ c ∈ s.refs m, c ∈ s.alive) ∧
    (∀ c ∈ s.alive, ∀ m, s.master c = some m → m ∈ s.alive ∧ c ∈ s.summons m) ∧
    ∀ c ∈ s.alive, s.hasParent c → 0 < s.referenceCounter c := by
  have hsound := sound_of_reachable h
  refine ⟨hsound.counter_eq, fun c hc => SoundWith.alive_of_outside hsound hc,
    fun m hm c hc => SoundWith.alive_of_refs hsound hm hc, fun c hc m hmaster => ?_,
    fun c hc => hsound.counter_pos hc⟩
  have hm := hsound.masters.alive c m hc hmaster
  exact ⟨hm, (hsound.masters.iff c m hc hm).mpr hmaster⟩

/-! A wolf with a summon. -/

def pack : CreatureStore :=
  ((((({} : CreatureStore).create 1).internalPlaceCreature 1).create 2).internalPlaceCreature
    2).setMaster 2 (some 1)

theorem reachable_apply (h : Run.Reachable creatureSystem s) (op : CreatureOp)
    (hvalid : op.Valid s) : Run.Reachable creatureSystem (op.apply s) :=
  h.step' ⟨hvalid, rfl⟩

theorem reachable_pack : Run.Reachable creatureSystem pack := by
  have h₀ : Run.Reachable creatureSystem {} := .init rfl
  have h₁ := reachable_apply h₀ (.create 1) (Finset.notMem_empty 1)
  have h₂ := reachable_apply h₁ (.placeCreature 1) (Finset.mem_insert_self 1 _)
  have h₃ := reachable_apply h₂ (.create 2) (show 2 ∉ ({1} : Finset CreatureId) by decide)
  have h₄ := reachable_apply h₃ (.placeCreature 2) (Finset.mem_insert_self 2 _)
  refine reachable_apply h₄ (.setMaster 2 (some 1)) ⟨Finset.mem_insert_self 2 _, fun m hm => ?_⟩
  obtain rfl := Option.some.inj hm
  exact Finset.mem_insert_of_mem (Finset.mem_insert_self 1 _)

theorem references_counted_pack : pack.referenceCounter 2 = 2 ∧
    (∀ c, pack.referenceCounter c =
      pack.outside.count c + ∑ m ∈ pack.alive, (pack.refs m).count c) ∧
    ∀ c ∈ pack.alive, pack.hasParent c → 0 < pack.referenceCounter c :=
  have h := references_counted reachable_pack
  ⟨rfl, h.1, h.2.2.2.2⟩

/-- A creature is in at most one of the lists, once, as its flag says. A pass through a list goes
over each of its creatures once, also over those that come into the list meanwhile, and whatever
the creatures that think in it do. -/
theorem checked_once (h : Run.Reachable creatureSystem s) :
    s.listed.Nodup ∧ (∀ c ∈ s.alive, (s.inCheckCreaturesVector c = true ↔ c ∈ s.listed)) ∧
    (∀ c ∈ s.alive, s.creatureCheck c = true → c ∈ s.listed) ∧
    ∀ index it, s.pass = some (index, it) → s.checked.Nodup ∧
      s.checked = (s.checkCreatureLists index).take it ∧
      ((s.checkCreatureLists index)[it]? = none → s.checked = s.checkCreatureLists index) := by
  have hchecks := (sound_of_reachable h).checks
  refine ⟨hchecks.nodup, hchecks.iff, fun c hc hcheck =>
    (hchecks.iff c hc).mp (hchecks.check c hc hcheck), fun index it hpass => ?_⟩
  obtain ⟨hindex, hit, hchecked⟩ := hchecks.pass index it hpass
  have hnodup : (s.checkCreatureLists index).Nodup :=
    (List.nodup_flatMap.mp hchecks.nodup).1 index (List.mem_range.mpr hindex)
  refine ⟨hchecked ▸ hnodup.sublist (List.take_sublist _ _), hchecked, fun hend => ?_⟩
  rw [hchecked, List.take_of_length_le (List.getElem?_eq_none_iff.mp hend)]

/-! Both are checked in one pass, and the wolf has been. -/

def hunting : CreatureStore :=
  (((pack.addCreatureCheck 1 0).addCreatureCheck 2 0).beginPass 0).checkCreatures

theorem reachable_hunting : Run.Reachable creatureSystem hunting := by
  have hwolf : 1 ∈ pack.alive := by decide
  have hsummon : 2 ∈ pack.alive := by decide
  have h₁ := reachable_apply reachable_pack (.addCreatureCheck 1 0) ⟨hwolf, by decide⟩
  have h₂ := reachable_apply h₁ (.addCreatureCheck 2 0) ⟨hsummon, by decide⟩
  have h₃ := reachable_apply h₂ (.beginPass 0) ⟨rfl, by decide⟩
  exact reachable_apply h₃ .checkCreatures rfl

theorem checked_once_hunting : hunting.checked = [1] ∧ hunting.listed.Nodup ∧
    ∀ c ∈ hunting.alive, (hunting.inCheckCreaturesVector c = true ↔ c ∈ hunting.listed) :=
  have h := checked_once reachable_hunting
  ⟨rfl, h.1, h.2.1⟩

end CreatureStore

end Eloth
