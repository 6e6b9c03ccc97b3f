import Mathlib.Data.List.Nodup
import Mathlib.Data.List.Perm.Basic
import Mathlib.Order.Nat
import Eloth.Item
import Eloth.Lib.Run

/-!
# Known creatures

A client keeps the creatures it was told about under their ids. The server remembers which ids
these are, so that it can refer to a creature by its id, and names an id that the client may
forget whenever it introduces a new one.
-/

namespace Eloth

abbrev maxClientViewportX : Int := 8
abbrev maxClientViewportY : Int := 6

/-- A creature as the player of the client sees it. The ids are handed out from positive
counters. -/
structure SeenCreature where
  id : UInt32
  id_ne : id ≠ 0
  isRemoved : Bool
  canSeeCreature : Bool
  position : Position

/-- The world as a call reads it, and the order of iteration that the hash set has after an
insertion. -/
structure ClientView where
  playerId : UInt32
  myPos : Position
  getCreatureByID : UInt32 → Option SeenCreature
  insert : UInt32 → List UInt32 → List UInt32
  insert_perm : ∀ id set, (insert id set).Perm (id :: set)

/-- The values that a call finds in its local variable and in its message: an indeterminate id
and the number of free bytes. -/
structure CallLocals where
  removedKnown : UInt32
  room : Nat

inductive CreatureHeader where
  | known (id : UInt32)
  | introduce (remove id : UInt32)
  deriving DecidableEq

/-- The known creatures and the headers written so far, each with the set after it, the last one
first. -/
structure KnownCreatures where
  knownCreatureSet : List UInt32
  written : List (CreatureHeader × List UInt32)

namespace ClientView

def canSeePosition (v : ClientView) (x y z : Int) : Bool :=
  let offsetz : Int := v.myPos.z - z
  (if v.myPos.z ≤ 7 then decide (z ≤ 7) else decide (offsetz.natAbs ≤ 2)) &&
    (decide (x ≥ v.myPos.x - maxClientViewportX + offsetz) &&
      decide (x ≤ v.myPos.x + (maxClientViewportX + 1) + offsetz) &&
      decide (y ≥ v.myPos.y - maxClientViewportY + offsetz) &&
      decide (y ≤ v.myPos.y + (maxClientViewportY + 1) + offsetz))

def canSeePos (v : ClientView) (pos : Position) : Bool := v.canSeePosition pos.x pos.y pos.z

def canSee (v : ClientView) : Option SeenCreature → Bool
  | none => false
  | some c => !c.isRemoved && c.canSeeCreature && v.canSeePos c.position

end ClientView

namespace KnownCreatures

def checkCreatureAsKnown (v : ClientView) (knownCreatureSet : List UInt32) (id : UInt32)
    (removedKnown : UInt32) : Bool × UInt32 × List UInt32 :=
  if id ∈ knownCreatureSet then (true, removedKnown, knownCreatureSet)
  else
    let set := v.insert id knownCreatureSet
    if set.length > 250 then
      match set.find? fun it => !v.canSee (v.getCreatureByID it) with
      | some it => (false, it, set.erase it)
      | none =>
        let it := if set.head? = some id then set.tail.headD 0 else set.headD 0
        (false, it, set.erase it)
    else (false, 0, set)

def AddCreature (s : KnownCreatures) (id : UInt32) (known : Bool) (remove : UInt32) (room : Nat) :
    KnownCreatures :=
  if known then
    if 6 ≤ room then { s with written := (.known id, s.knownCreatureSet) :: s.written } else s
  else
    if 10 ≤ room then { s with written := (.introduce remove id, s.knownCreatureSet) :: s.written }
    else s

/-- A call of `checkCreatureAsKnown` and the call of `AddCreature` after it, which is passed the
computed flag or `false`. -/
structure Call where
  view : ClientView
  creature : SeenCreature
  passesKnown : Bool
  locals : CallLocals

def Call.apply (s : KnownCreatures) (c : Call) : KnownCreatures :=
  let (known, removedKnown, set) :=
    checkCreatureAsKnown c.view s.knownCreatureSet c.creature.id c.locals.removedKnown
  AddCreature { s with knownCreatureSet := set } c.creature.id (c.passesKnown && known) removedKnown
    c.locals.room

abbrev TileCreatures := List (SeenCreature × CallLocals)

/-! The calls that each message makes, in order. -/

def GetTileDescription (v : ClientView) (creatures : TileCreatures) : List Call :=
  creatures.reverse.filterMap fun (creature, locals) =>
    if !creature.canSeeCreature then none else some ⟨v, creature, true, locals⟩

/-- The descriptions of the tiles that a map description, of a window or of its edges, goes
through. -/
def GetMapDescription (v : ClientView) (tiles : List TileCreatures) : List Call :=
  tiles.flatMap (GetTileDescription v)

def sendUpdateTile (v : ClientView) (tile : Option TileCreatures) (pos : Position) : List Call :=
  if !v.canSeePos pos then []
  else match tile with
    | some creatures => GetTileDescription v creatures
    | none => []

def sendUpdateTileCreature (v : ClientView) (pos : Position) (creature : SeenCreature)
    (locals : CallLocals) : List Call :=
  if !v.canSeePos pos then [] else [⟨v, creature, false, locals⟩]

/-- The tiles are those of the map around the player. -/
def sendAddCreature (v : ClientView) (creature : SeenCreature) (pos : Position) (stackpos : Int)
    (tile : Option TileCreatures) (tiles : List TileCreatures) (locals : CallLocals) :
    List Call :=
  if !v.canSeePos pos then []
  else if creature.id ≠ v.playerId then
    if stackpos ≥ 10 then
      match tile with
      | some creatures => sendUpdateTile v (some creatures) pos
      | none => []
    else [⟨v, creature, true, locals⟩]
  else GetMapDescription v tiles

def sendRemoveTileCreature : List Call := []

def sendMoveCreature (v : ClientView) (creature : SeenCreature) (newPos : Position)
    (newStackPos : Int) (oldPos : Position) (teleport : Bool) (tile : Option TileCreatures)
    (tiles : List TileCreatures) (locals : CallLocals) : List Call :=
  if creature.id = v.playerId then
    if teleport then sendRemoveTileCreature ++ GetMapDescription v tiles
    else GetMapDescription v tiles
  else if v.canSeePos oldPos && v.canSeePos creature.position then
    if teleport || (oldPos.z == 7 && newPos.z ≥ 8) then
      sendRemoveTileCreature ++ sendAddCreature v creature newPos newStackPos tile tiles locals
    else []
  else if v.canSeePos oldPos then sendRemoveTileCreature
  else if v.canSeePos creature.position then
    sendAddCreature v creature newPos newStackPos tile tiles locals
  else []

inductive Op where
  | sendAddCreature (v : ClientView) (creature : SeenCreature) (pos : Position) (stackpos : Int)
      (tile : Option TileCreatures) (tiles : List TileCreatures) (locals : CallLocals)
  | sendUpdateTile (v : ClientView) (tile : Option TileCreatures) (pos : Position)
  | sendUpdateTileCreature (v : ClientView) (pos : Position) (creature : SeenCreature)
      (locals : CallLocals)
  | sendMoveCreature (v : ClientView) (creature : SeenCreature) (newPos : Position)
      (newStackPos : Int) (oldPos : Position) (teleport : Bool) (tile : Option TileCreatures)
      (tiles : List TileCreatures) (locals : CallLocals)
  | sendRemoveTileCreature

def Op.calls : Op → List Call
  | .sendAddCreature v creature pos stackpos tile tiles locals =>
    KnownCreatures.sendAddCreature v creature pos stackpos tile tiles locals
  | .sendUpdateTile v tile pos => KnownCreatures.sendUpdateTile v tile pos
  | .sendUpdateTileCreature v pos creature locals =>
    KnownCreatures.sendUpdateTileCreature v pos creature locals
  | .sendMoveCreature v creature newPos newStackPos oldPos teleport tile tiles locals =>
    KnownCreatures.sendMoveCreature v creature newPos newStackPos oldPos teleport tile tiles locals
  | .sendRemoveTileCreature => KnownCreatures.sendRemoveTileCreature

def Op.apply (s : KnownCreatures) (op : Op) : KnownCreatures := op.calls.foldl Call.apply s

/-! ## The client -/

def client : List (CreatureHeader × List UInt32) → List UInt32
  | [] => []
  | (.known _, _) :: written => client written
  | (.introduce remove id, _) :: written => id :: (client written).filter (· ≠ remove)

/-- What a header may say to a client that knows these ids. -/
def Understood (known : List UInt32) : CreatureHeader × List UInt32 → Prop
  | (.known id, set) => id ∈ set ∧ id ∈ known
  | (.introduce remove id, _) => remove = 0 ∨ remove ≠ id

def AllUnderstood : List (CreatureHeader × List UInt32) → Prop
  | [] => True
  | header :: written => Understood (client written) header ∧ AllUnderstood written

/-- The server knows at most 250 creatures, and the client knows each of them and has understood
every header. -/
structure InStep (s : KnownCreatures) : Prop where
  zero : 0 ∉ s.knownCreatureSet
  nodup : s.knownCreatureSet.Nodup
  length_le : s.knownCreatureSet.length ≤ 250
  subset : ∀ id ∈ s.knownCreatureSet, id ∈ client s.written
  understood : AllUnderstood s.written

/-- The creature whose removal makes room for a new one. -/
def evicted (v : ClientView) (set : List UInt32) (id : UInt32) : UInt32 :=
  match (v.insert id set).find? fun it => !v.canSee (v.getCreatureByID it) with
  | some it => it
  | none =>
    if (v.insert id set).head? = some id then (v.insert id set).tail.headD 0
    else (v.insert id set).headD 0

/-- The header fits into the message; a creature that is known already is not introduced again
with an indeterminate id that the client knows; and a new creature is not itself the first one out
of sight when the set is full. -/
structure Harmless (s : KnownCreatures) (c : Call) : Prop where
  fits : (if c.creature.id ∈ s.knownCreatureSet ∧ c.passesKnown = true then 6 else 10) ≤ c.locals.room
  passes : c.creature.id ∈ s.knownCreatureSet → c.passesKnown = true ∨
    c.locals.removedKnown ∉ s.knownCreatureSet
  stays : c.creature.id ∉ s.knownCreatureSet → 250 ≤ s.knownCreatureSet.length →
    ((c.view.insert c.creature.id s.knownCreatureSet).find? fun it =>
      !c.view.canSee (c.view.getCreatureByID it)) ≠ some c.creature.id

variable {s : KnownCreatures} {c : Call} {v : ClientView} {set : List UInt32}
  {id removedKnown : UInt32}

theorem check_of_mem (h : id ∈ set) :
    checkCreatureAsKnown v set id removedKnown = (true, removedKnown, set) := if_pos h

theorem check_of_small (h : id ∉ set) (hsmall : set.length < 250) :
    checkCreatureAsKnown v set id removedKnown = (false, 0, v.insert id set) := by
  have hlen : (v.insert id set).length = set.length + 1 := (v.insert_perm id set).length_eq
  unfold checkCreatureAsKnown
  rw [if_neg h]
  exact if_neg (by omega)

theorem check_of_full (h : id ∉ set) (hfull : 250 ≤ set.length) :
    checkCreatureAsKnown v set id removedKnown =
      (false, evicted v set id, (v.insert id set).erase (evicted v set id)) := by
  have hlen : (v.insert id set).length = set.length + 1 := (v.insert_perm id set).length_eq
  unfold checkCreatureAsKnown evicted
  rw [if_neg h]
  dsimp only
  rw [if_pos (by omega)]
  cases (v.insert id set).find? fun it => !v.canSee (v.getCreatureByID it) with
  | some it => rfl
  | none => rfl

theorem evicted_mem (hfull : 250 ≤ set.length) (hnodup : (v.insert id set).Nodup)
    (hstays : ((v.insert id set).find? fun it => !v.canSee (v.getCreatureByID it)) ≠ some id) :
    evicted v set id ∈ v.insert id set ∧ evicted v set id ≠ id := by
  have hlen : (v.insert id set).length = set.length + 1 := (v.insert_perm id set).length_eq
  unfold evicted
  cases hfind : (v.insert id set).find? fun it => !v.canSee (v.getCreatureByID it) with
  | some it =>
    refine ⟨List.mem_of_find?_eq_some hfind, fun he => hstays ?_⟩
    rw [hfind]
    exact congrArg some he
  | none =>
    match hset : v.insert id set with
    | [] => simp [hset] at hlen
    | [_] =>
      rw [hset, List.length_singleton] at hlen
      omega
    | first :: second :: rest =>
      rw [hset, List.nodup_cons] at hnodup
      by_cases hfirst : first = id
      · subst hfirst
        have hne : second ≠ first := fun he => hnodup.1 (he ▸ List.mem_cons_self)
        simp [hne]
      · simp [hfirst]

theorem inStep_apply (hs : s.InStep) (hc : s.Harmless c) : (c.apply s).InStep := by
  by_cases hmem : c.creature.id ∈ s.knownCreatureSet
  · unfold Call.apply
    rw [check_of_mem hmem]
    cases hpass : c.passesKnown with
    | true =>
      have hfits := hc.fits
      rw [if_pos ⟨hmem, hpass⟩] at hfits
      simp only [AddCreature, Bool.and_self, if_true, if_pos hfits]
      exact ⟨hs.zero, hs.nodup, hs.length_le, hs.subset, ⟨hmem, hs.subset _ hmem⟩, hs.understood⟩
    | false =>
      have hfits := hc.fits
      rw [if_neg (by simp [hpass])] at hfits
      have hout := (hc.passes hmem).resolve_left (by simp [hpass])
      simp only [AddCreature, Bool.false_and, Bool.false_eq_true, if_false, if_pos hfits]
      refine ⟨hs.zero, hs.nodup, hs.length_le, fun known hknown => ?_, .inr ?_, hs.understood⟩
      · have hne : known ≠ c.locals.removedKnown := fun he => hout (he ▸ hknown)
        simp [client, hs.subset known hknown, hne]
      · exact fun he => hout (he ▸ hmem)
  · have hfits := hc.fits
    rw [if_neg fun h => hmem h.1] at hfits
    have hperm := c.view.insert_perm c.creature.id s.knownCreatureSet
    have hzero : 0 ∉ c.view.insert c.creature.id s.knownCreatureSet := by
      rw [hperm.mem_iff, List.mem_cons, not_or]
      exact ⟨c.creature.id_ne.symm, hs.zero⟩
    have hnodup : (c.view.insert c.creature.id s.knownCreatureSet).Nodup :=
      hperm.nodup_iff.mpr (hs.nodup.cons hmem)
    unfold Call.apply
    by_cases hfull : 250 ≤ s.knownCreatureSet.length
    · obtain ⟨hevicted, hne⟩ := evicted_mem hfull hnodup (hc.stays hmem hfull)
      rw [check_of_full hmem hfull]
      simp only [AddCreature, Bool.and_false, Bool.false_eq_true, if_false, if_pos hfits]
      refine ⟨fun h => hzero (List.mem_of_mem_erase h), hnodup.erase _, ?_,
        fun known hknown => ?_, .inr hne, hs.understood⟩
      · have hle := hs.length_le
        rw [List.length_erase_of_mem hevicted, hperm.length_eq, List.length_cons]
        omega
      · rw [hnodup.mem_erase_iff, hperm.mem_iff, List.mem_cons] at hknown
        obtain ⟨hkept, rfl | hold⟩ := hknown
        · simp [client]
        · simp [client, hs.subset known hold, hkept]
    · rw [check_of_small hmem (not_le.mp hfull)]
      simp only [AddCreature, Bool.and_false, Bool.false_eq_true, if_false, if_pos hfits]
      refine ⟨hzero, hnodup, ?_, fun known hknown => ?_, .inl rfl, hs.understood⟩
      · rw [hperm.length_eq, List.length_cons]
        omega
      · have hne : known ≠ 0 := fun he => hzero (he ▸ hknown)
        rw [hperm.mem_iff, List.mem_cons] at hknown
        rcases hknown with rfl | hold
        · simp [client]
        · simp [client, hs.subset known hold, hne]

/-! ## Runs -/

def AllHarmless : KnownCreatures → List Call → Prop
  | _, [] => True
  | s, c :: calls => s.Harmless c ∧ AllHarmless (c.apply s) calls

theorem inStep_foldl {calls : List Call} (hs : s.InStep) (h : s.AllHarmless calls) :
    (calls.foldl Call.apply s).InStep := by
  induction calls generalizing s with
  | nil => exact hs
  | cons c calls ih => exact ih (inStep_apply hs h.1) h.2

/-- The messages that one client is sent, from its login on. -/
def messages : Run.System KnownCreatures Op where
  init s := s = ⟨[], []⟩
  step s op s' := s' = op.apply s

/-- While every call is harmless, the client follows the server. -/
theorem inStep_of_reachable
    (h : Run.ReachableBy messages (fun s op => s.AllHarmless op.calls) s) : s.InStep := by
  refine h.invariant (I := InStep) ?_ ?_
  · rintro s rfl
    exact ⟨List.not_mem_nil, List.nodup_nil, Nat.zero_le _, fun _ h => absurd h List.not_mem_nil,
      trivial⟩
  · rintro s op s' hs hop rfl
    exact inStep_foldl hs hop

/-! A monster stands next to the player and is given a new name. -/

def nearView : ClientView where
  playerId := 1
  myPos := ⟨100, 100, 7⟩
  getCreatureByID _ := none
  insert id set := id :: set
  insert_perm _ _ := .refl _

def nearMonster : SeenCreature where
  id := 7
  id_ne := by decide
  isRemoved := false
  canSeeCreature := true
  position := ⟨101, 100, 7⟩

def monsterAppears : Op :=
  .sendAddCreature nearView nearMonster nearMonster.position 1 none [] ⟨0, 20⟩

theorem inStep_of_monsterAppears :
    (monsterAppears.apply ⟨[], []⟩).knownCreatureSet = [7] ∧ (monsterAppears.apply ⟨[], []⟩).InStep :=
  ⟨by decide, inStep_of_reachable (.step (i := monsterAppears) (.init rfl)
    ⟨⟨by decide, fun h => absurd h (by decide), fun _ h => absurd h (by decide)⟩, trivial⟩ rfl)⟩

/-- The monster is introduced a second time, and the id to forget is indeterminate. -/
theorem renamed_monster :
    ¬ ∀ s, Run.Reachable messages s → s.InStep := by
  intro h
  have hreach : Run.Reachable messages
      ((Op.sendUpdateTileCreature nearView nearMonster.position nearMonster ⟨7, 20⟩).apply
        (monsterAppears.apply ⟨[], []⟩)) :=
    .step (.step (i := monsterAppears) (.init rfl) trivial rfl) trivial rfl
  rcases (h _ hreach).understood.1 with hzero | hne
  · exact absurd hzero (by decide)
  · exact hne rfl

end KnownCreatures

end Eloth
