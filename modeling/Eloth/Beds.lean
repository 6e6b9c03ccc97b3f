import Mathlib.Algebra.Group.Nat.Defs
import Mathlib.Data.List.Count
import Mathlib.Logic.Function.Basic
import Mathlib.Tactic.SplitIfs
import Eloth.Lib.Run

/-!
# Beds

A bed has two halves, which both know who sleeps there and since when. The server finds the bed of
a player by the guid, to wake the player up at the next login. The sleepers are saved with the
items of the houses.
-/

namespace Eloth

/-- The beds of the houses. `next` is the other half of a bed, as `getNextBedItem` finds it. -/
structure BedMap where
  house : Nat → Option Nat
  bedsList : Nat → List Nat
  next : Nat → Option Nat
  mem_bedsList : ∀ bed h, bed ∈ bedsList h ↔ house bed = some h
  next_next : ∀ bed partner, next bed = some partner → next partner = some bed
  house_next : ∀ bed partner, next bed = some partner → house partner = house bed

/-- The halves of a bed. -/
def BedMap.both (beds : BedMap) (bed : Nat) : List Nat := bed :: (beds.next bed).toList

structure SleptTime where
  guid : Nat
  sleepStart : Nat
  deriving DecidableEq

/-- The fields of the beds and the owners of the houses, with the sleeps that have begun, the sleeps
that `wakeUp` has ended, and the characters whose name was found at every start of the server. An
entry of `woken` has the time, and whether the player could be loaded and got its regeneration. -/
structure Beds where
  sleeperGUID : Nat → Nat := fun _ => 0
  sleepStart : Nat → Nat := fun _ => 0
  bedSleepersMap : Nat → Option Nat := fun _ => none
  owner : Nat → Nat := fun _ => 0
  slept : List SleptTime := []
  woken : List (SleptTime × Nat × Bool) := []
  named : Nat → Bool := fun _ => true

namespace Beds

variable (beds : BedMap) (s : Beds)

def internalSetSleeper (bed guid now : Nat) : Beds :=
  { s with
    sleeperGUID := Function.update s.sleeperGUID bed guid
    sleepStart := Function.update s.sleepStart bed now }

def internalRemoveSleeper (bed : Nat) : Beds :=
  { s with
    sleeperGUID := Function.update s.sleeperGUID bed 0
    sleepStart := Function.update s.sleepStart bed 0 }

def setBedSleeper (bed guid : Nat) : Beds :=
  { s with bedSleepersMap := Function.update s.bedSleepersMap guid (some bed) }

def removeBedSleeper (guid : Nat) : Beds :=
  { s with bedSleepersMap := Function.update s.bedSleepersMap guid none }

def sleep (bed guid now : Nat) : Beds :=
  if beds.house bed = none then s
  else if s.sleeperGUID bed ≠ 0 then s
  else
    let s := s.internalSetSleeper bed guid now
    let s :=
      match beds.next bed with
      | some nextBedItem => s.internalSetSleeper nextBedItem guid now
      | none => s
    { s.setBedSleeper bed guid with slept := ⟨guid, now⟩ :: s.slept }

/-- A player who is not given is loaded for its regeneration, and saved again. -/
def wakeUp (bed now : Nat) (regenerates : Bool) : Beds :=
  if beds.house bed = none then s
  else
    let s :=
      if s.sleeperGUID bed ≠ 0 then
        { s with
          woken := (⟨s.sleeperGUID bed, s.sleepStart bed⟩, now, regenerates) :: s.woken }
      else s
    let s := s.removeBedSleeper (s.sleeperGUID bed)
    let s := s.internalRemoveSleeper bed
    match beds.next bed with
    | some nextBedItem => s.internalRemoveSleeper nextBedItem
    | none => s

/-- The players that `loadPlayerById` finds. -/
abbrev Loads := Nat → Bool

/-- `trySleep` of a bed that can be used, and `sleep`. `free` says that the item of the bed has a
form without a sleeper. -/
def use (bed guid now : Nat) (free : Bool) (loads : Loads) : Beds :=
  match beds.house bed with
  | none => s
  | some house =>
    if s.sleeperGUID bed ≠ 0 then
      if free ∧ s.owner house = guid then s.wakeUp beds bed now (loads (s.sleeperGUID bed)) else s
    else s.sleep beds bed guid now

/-- The loop of `setOwner` over the beds of the house. -/
def removeSleepers (bedsList : List Nat) (now : Nat) (loads : Loads) : Beds :=
  bedsList.foldl
    (fun s bed =>
      if s.sleeperGUID bed ≠ 0 then s.wakeUp beds bed now (loads (s.sleeperGUID bed)) else s) s

def setOwner (house guid : Nat) (named : Bool) (now : Nat) (loads : Loads) : Beds :=
  if s.owner house = guid then s
  else
    let s :=
      if s.owner house ≠ 0 then
        let s := s.removeSleepers beds (beds.bedsList house) now loads
        { s with owner := Function.update s.owner house 0 }
      else s
    if guid ≠ 0 ∧ named then { s with owner := Function.update s.owner house guid } else s

def login (guid now : Nat) : Beds :=
  match s.bedSleepersMap guid with
  | some bed => s.wakeUp beds bed now true
  | none => s

/-- `readAttr` of a bed, of what `serializeAttr` has written. -/
def readAttr (saved : Beds) (known : Nat → Bool) (bed : Nat) : Beds :=
  let guid := saved.sleeperGUID bed
  let s :=
    if guid ≠ 0 ∧ known guid then
      { s.setBedSleeper bed guid with sleeperGUID := Function.update s.sleeperGUID bed guid }
    else s
  { s with sleepStart := Function.update s.sleepStart bed (saved.sleepStart bed % 2 ^ 32) }

/-- The server has saved the houses, and started again without the beds. `known` are the names
found at the start. -/
def started (known : Nat → Bool) : Beds :=
  { slept := s.slept
    woken := s.woken
    owner := fun house => if known (s.owner house) then s.owner house else 0
    named := fun guid => s.named guid && known guid }

def restart (order : List Nat) (known : Nat → Bool) : Beds :=
  order.foldl (fun t bed => t.readAttr s known bed) (s.started known)

end Beds

inductive BedOp where
  | use (bed guid now : Nat) (free : Bool) (loads : Beds.Loads)
  | setOwner (house guid : Nat) (named : Bool) (now : Nat) (loads : Beds.Loads)
  | login (guid now : Nat)
  | restart (order : List Nat) (known : Nat → Bool)

namespace Beds

def apply (beds : BedMap) (s : Beds) : BedOp → Beds
  | .use bed guid now free loads => s.use beds bed guid now free loads
  | .setOwner house guid named now loads => s.setOwner beds house guid named now loads
  | .login guid now => s.login beds guid now
  | .restart order known => s.restart order known

/-- A player who went to bed is taken out of the game before it acts again. All beds of the houses
are read back. -/
def Valid (beds : BedMap) (s : Beds) : BedOp → Prop
  | .use _ guid now _ _ => guid ≠ 0 ∧ s.bedSleepersMap guid = none ∧ now < 2 ^ 32
  | .restart order _ => ∀ bed, bed ∈ order ↔ beds.house bed ≠ none
  | _ => True

def system (beds : BedMap) : Run.System Beds BedOp where
  init s := s = {}
  step s op s' := s.Valid beds op ∧ s' = s.apply beds op

/-- The player sleeps since then. -/
def asleep (s : Beds) (sleep : SleptTime) : Nat :=
  match s.bedSleepersMap sleep.guid with
  | some bed => if s.sleepStart bed = sleep.sleepStart then 1 else 0
  | none => 0

/-- Both halves of a bed know the sleeper, whom the map leads to one of them. Every sleep goes on or
has been ended once, unless the name of the player was not found at a start. -/
structure Sound (beds : BedMap) (s : Beds) : Prop where
  halves : ∀ bed, ∀ half ∈ beds.both bed,
    s.sleeperGUID half = s.sleeperGUID bed ∧ s.sleepStart half = s.sleepStart bed
  mapped : ∀ bed, s.sleeperGUID bed ≠ 0 →
    ∃ half ∈ beds.both bed, s.bedSleepersMap (s.sleeperGUID bed) = some half
  sleeper : ∀ guid bed, s.bedSleepersMap guid = some bed → guid ≠ 0 ∧ s.sleeperGUID bed = guid
  inHouse : ∀ bed, s.sleeperGUID bed ≠ 0 → beds.house bed ≠ none
  fits : ∀ bed, s.sleepStart bed < 2 ^ 32
  once : ∀ sleep : SleptTime,
    (s.woken.map Prod.fst).count sleep + s.asleep sleep ≤ s.slept.count sleep ∧
      (s.named sleep.guid →
        s.slept.count sleep = (s.woken.map Prod.fst).count sleep + s.asleep sleep)

theorem mem_both {beds : BedMap} {bed half : Nat} :
    half ∈ beds.both bed ↔ half = bed ∨ beds.next bed = some half := by
  rw [BedMap.both, List.mem_cons, Option.mem_toList]

theorem self_mem_both (beds : BedMap) (bed : Nat) : bed ∈ beds.both bed := mem_both.2 (.inl rfl)

theorem both_symm {beds : BedMap} {bed half : Nat} (h : half ∈ beds.both bed) :
    bed ∈ beds.both half := by
  rcases mem_both.1 h with rfl | h
  · exact self_mem_both beds half
  · exact mem_both.2 (.inr (beds.next_next bed half h))

theorem both_trans {beds : BedMap} {bed half other : Nat} (h : other ∈ beds.both half)
    (h' : half ∈ beds.both bed) : other ∈ beds.both bed := by
  rcases mem_both.1 h with rfl | h
  · exact h'
  · rcases mem_both.1 h' with rfl | h'
    · exact mem_both.2 (.inr h)
    · have hback := beds.next_next bed half h'
      exact mem_both.2 (.inl (Option.some_inj.1 (h.symm.trans hback)))

theorem house_both {beds : BedMap} {bed half : Nat} (h : half ∈ beds.both bed) :
    beds.house half = beds.house bed := by
  rcases mem_both.1 h with rfl | h
  · rfl
  · exact beds.house_next bed half h

section Step

variable {beds : BedMap} {s : Beds} {bed guid now : Nat}

theorem update_half (hnext : beds.next bed = none) (f : Nat → Nat) (v : Nat) :
    Function.update f bed v = fun half => if half ∈ beds.both bed then v else f half := by
  funext half
  simp only [Function.update_apply, mem_both, hnext, reduceCtorEq, or_false]

theorem update_halves {partner : Nat} (hnext : beds.next bed = some partner) (f : Nat → Nat)
    (v : Nat) : Function.update (Function.update f bed v) partner v =
      fun half => if half ∈ beds.both bed then v else f half := by
  funext half
  simp only [Function.update_apply, mem_both, hnext, Option.some_inj]
  grind

theorem sleep_eq (hhouse : beds.house bed ≠ none) (hfree : s.sleeperGUID bed = 0) :
    s.sleep beds bed guid now =
      { s with
        sleeperGUID := fun half => if half ∈ beds.both bed then guid else s.sleeperGUID half
        sleepStart := fun half => if half ∈ beds.both bed then now else s.sleepStart half
        bedSleepersMap := Function.update s.bedSleepersMap guid (some bed)
        slept := ⟨guid, now⟩ :: s.slept } := by
  rw [sleep, if_neg hhouse, if_neg (not_not_intro hfree)]
  cases hnext : beds.next bed with
  | none => simp only [internalSetSleeper, setBedSleeper, update_half hnext]
  | some partner => simp only [internalSetSleeper, setBedSleeper, update_halves hnext]

theorem wakeUp_eq {regenerates : Bool} (hhouse : beds.house bed ≠ none)
    (hsleeper : s.sleeperGUID bed ≠ 0) :
    s.wakeUp beds bed now regenerates =
      { s with
        sleeperGUID := fun half => if half ∈ beds.both bed then 0 else s.sleeperGUID half
        sleepStart := fun half => if half ∈ beds.both bed then 0 else s.sleepStart half
        bedSleepersMap := Function.update s.bedSleepersMap (s.sleeperGUID bed) none
        woken := (⟨s.sleeperGUID bed, s.sleepStart bed⟩, now, regenerates) :: s.woken } := by
  rw [wakeUp, if_neg hhouse, if_pos hsleeper]
  cases hnext : beds.next bed with
  | none => simp only [internalRemoveSleeper, removeBedSleeper, update_half hnext]
  | some partner => simp only [internalRemoveSleeper, removeBedSleeper, update_halves hnext]

theorem asleep_of_none {sleep : SleptTime} (h : s.bedSleepersMap sleep.guid = none) :
    s.asleep sleep = 0 := by
  rw [asleep, h]

theorem asleep_of_some {sleep : SleptTime} (h : s.bedSleepersMap sleep.guid = some bed) :
    s.asleep sleep = if s.sleepStart bed = sleep.sleepStart then 1 else 0 := by
  rw [asleep, h]

theorem asleep_congr {s' : Beds} {sleep : SleptTime}
    (hmap : s'.bedSleepersMap sleep.guid = s.bedSleepersMap sleep.guid)
    (hstart : ∀ bed, s.bedSleepersMap sleep.guid = some bed →
      s'.sleepStart bed = s.sleepStart bed) : s'.asleep sleep = s.asleep sleep := by
  cases hbed : s.bedSleepersMap sleep.guid with
  | none => rw [asleep_of_none hbed, asleep_of_none (hmap.trans hbed)]
  | some bed => rw [asleep_of_some hbed, asleep_of_some (hmap.trans hbed), hstart bed hbed]

/-- A bed outside the halves of a bed has another sleeper, or none. -/
theorem Sound.other {half : Nat} (h : s.Sound beds) (hhalf : half ∉ beds.both bed)
    (hsleeper : s.sleeperGUID half ≠ 0) : s.sleeperGUID half ≠ s.sleeperGUID bed := by
  intro heq
  obtain ⟨at_half, hmem, hat⟩ := h.mapped half hsleeper
  obtain ⟨at_bed, hmem', hat'⟩ := h.mapped bed (heq ▸ hsleeper)
  have hsame : at_half = at_bed := Option.some_inj.1 (hat.symm.trans (heq ▸ hat'))
  exact hhalf (both_trans (both_symm (hsame ▸ hmem)) hmem')

theorem count_cons (sleep x : SleptTime) (sleeps : List SleptTime) :
    (x :: sleeps).count sleep = sleeps.count sleep + if x = sleep then 1 else 0 := by
  simp only [List.count_cons, beq_iff_eq]

/-- A step that begins or ends as many sleeps as it starts or stops counting. -/
theorem Sound.once_of {s' : Beds} (h : s.Sound beds) (sleep : SleptTime)
    (hnamed : s'.named = s.named)
    (hbalance : s'.slept.count sleep + ((s.woken.map Prod.fst).count sleep + s.asleep sleep) =
      s.slept.count sleep + ((s'.woken.map Prod.fst).count sleep + s'.asleep sleep)) :
    (s'.woken.map Prod.fst).count sleep + s'.asleep sleep ≤ s'.slept.count sleep ∧
      (s'.named sleep.guid →
        s'.slept.count sleep = (s'.woken.map Prod.fst).count sleep + s'.asleep sleep) := by
  obtain ⟨hle, heq⟩ := h.once sleep
  refine ⟨by omega, fun hguid => ?_⟩
  have hbefore := heq (hnamed ▸ hguid)
  omega

/-- The halves of a free bed hold no sleeper. -/
theorem Sound.not_both (h : s.Sound beds) (hfree : s.sleeperGUID bed = 0) {half : Nat}
    (hsleeper : s.sleeperGUID half ≠ 0) : half ∉ beds.both bed :=
  fun hmem => hsleeper ((h.halves bed half hmem).1.trans hfree)

theorem Sound.asleep_sleep (h : s.Sound beds) (now : Nat) (hhouse : beds.house bed ≠ none)
    (hfree : s.sleeperGUID bed = 0) (hguid : guid ≠ 0) (hawake : s.bedSleepersMap guid = none)
    (slept : SleptTime) : (s.sleep beds bed guid now).asleep slept =
      s.asleep slept + if (⟨guid, now⟩ : SleptTime) = slept then 1 else 0 := by
  obtain ⟨key, start⟩ := slept
  have hmap : (s.sleep beds bed guid now).bedSleepersMap =
      Function.update s.bedSleepersMap guid (some bed) := by rw [sleep_eq hhouse hfree]
  have hstart : (s.sleep beds bed guid now).sleepStart =
      fun half => if half ∈ beds.both bed then now else s.sleepStart half := by
    rw [sleep_eq hhouse hfree]
  rcases eq_or_ne key guid with rfl | hne
  · have hsome := (congrFun hmap key).trans (Function.update_self ..)
    rw [asleep_of_some hsome, asleep_of_none hawake, hstart, Nat.zero_add]
    simp only [if_pos (self_mem_both beds bed), SleptTime.mk.injEq, true_and]
  · rw [if_neg (fun heq => hne (SleptTime.mk.inj heq).1.symm)]
    refine asleep_congr ((congrFun hmap key).trans (Function.update_of_ne hne ..))
      fun other hother => ?_
    obtain ⟨hzero, hsleeper⟩ := h.sleeper key other hother
    rw [hstart]
    exact if_neg (h.not_both hfree (hsleeper.symm ▸ hzero))

theorem Sound.sleep (h : s.Sound beds) (hguid : guid ≠ 0) (hawake : s.bedSleepersMap guid = none)
    (hfits : now < 2 ^ 32) : (s.sleep beds bed guid now).Sound beds := by
  by_cases hhouse : beds.house bed = none
  · rw [Beds.sleep, if_pos hhouse]
    exact h
  by_cases hfree : s.sleeperGUID bed = 0
  swap
  · rw [Beds.sleep, if_neg hhouse, if_pos hfree]
    exact h
  rw [sleep_eq hhouse hfree]
  refine ⟨fun other half hmem => ?_, fun other hother => ?_, fun key other hkey => ?_,
    fun other hother => ?_, fun other => ?_, fun slept => ?_⟩
  · have hiff : half ∈ beds.both bed ↔ other ∈ beds.both bed :=
      ⟨both_trans (both_symm hmem), both_trans hmem⟩
    simp only [hiff]
    split_ifs
    exacts [⟨rfl, rfl⟩, h.halves other half hmem]
  · by_cases hmem : other ∈ beds.both bed
    · exact ⟨bed, both_symm hmem, by simp only [if_pos hmem, Function.update_self]⟩
    · simp only [if_neg hmem] at hother ⊢
      obtain ⟨half, hhalf, hmap⟩ := h.mapped other hother
      refine ⟨half, hhalf, ?_⟩
      rw [Function.update_of_ne (fun heq => ?_), hmap]
      rw [heq, hawake] at hmap
      cases hmap
  · rcases eq_or_ne key guid with rfl | hne
    · cases (Function.update_self ..).symm.trans hkey
      exact ⟨hguid, if_pos (self_mem_both beds bed)⟩
    · have hold := (Function.update_of_ne hne ..).symm.trans hkey
      obtain ⟨hzero, hsleeper⟩ := h.sleeper key other hold
      exact ⟨hzero, (if_neg (h.not_both hfree (hsleeper.symm ▸ hzero))).trans hsleeper⟩
  · by_cases hmem : other ∈ beds.both bed
    · rw [house_both hmem]
      exact hhouse
    · exact h.inHouse other (by simpa only [if_neg hmem] using hother)
  · simp only
    split_ifs
    exacts [hfits, h.fits other]
  · have hasleep := h.asleep_sleep now hhouse hfree hguid hawake slept
    rw [sleep_eq hhouse hfree] at hasleep
    refine h.once_of slept rfl ?_
    simp only [hasleep, count_cons]
    omega

/-- The other beds keep their sleepers, whom the map still leads to them. -/
theorem Sound.wakeUp_key (h : s.Sound beds) {key half : Nat} (hne : key ≠ s.sleeperGUID bed)
    (hkey : s.bedSleepersMap key = some half) : half ∉ beds.both bed := fun hmem =>
  hne ((h.sleeper key half hkey).2.symm.trans (h.halves bed half hmem).1)

theorem Sound.asleep_wakeUp (h : s.Sound beds) (now : Nat) (regenerates : Bool)
    (hhouse : beds.house bed ≠ none) (hsleeper : s.sleeperGUID bed ≠ 0) (slept : SleptTime) :
    s.asleep slept = (s.wakeUp beds bed now regenerates).asleep slept +
      if (⟨s.sleeperGUID bed, s.sleepStart bed⟩ : SleptTime) = slept then 1 else 0 := by
  obtain ⟨key, start⟩ := slept
  have hmap : (s.wakeUp beds bed now regenerates).bedSleepersMap =
      Function.update s.bedSleepersMap (s.sleeperGUID bed) none := by rw [wakeUp_eq hhouse hsleeper]
  have hstart : (s.wakeUp beds bed now regenerates).sleepStart =
      fun half => if half ∈ beds.both bed then 0 else s.sleepStart half := by
    rw [wakeUp_eq hhouse hsleeper]
  rcases eq_or_ne key (s.sleeperGUID bed) with rfl | hne
  · obtain ⟨half, hmem, hat⟩ := h.mapped bed hsleeper
    have hnone := (congrFun hmap (s.sleeperGUID bed)).trans (Function.update_self ..)
    rw [asleep_of_some hat, (h.halves bed half hmem).2, asleep_of_none hnone, Nat.zero_add]
    simp only [SleptTime.mk.injEq, true_and]
  · rw [if_neg (fun heq => hne (SleptTime.mk.inj heq).1.symm)]
    refine (asleep_congr ((congrFun hmap key).trans (Function.update_of_ne hne ..))
      fun other hother => ?_).symm
    rw [hstart]
    exact if_neg (h.wakeUp_key hne hother)

theorem Sound.wakeUp {regenerates : Bool} (h : s.Sound beds) (hsleeper : s.sleeperGUID bed ≠ 0) :
    (s.wakeUp beds bed now regenerates).Sound beds := by
  have hhouse := h.inHouse bed hsleeper
  rw [wakeUp_eq hhouse hsleeper]
  refine ⟨fun other half hmem => ?_, fun other hother => ?_, fun key other hkey => ?_,
    fun other hother => ?_, fun other => ?_, fun slept => ?_⟩
  · have hiff : half ∈ beds.both bed ↔ other ∈ beds.both bed :=
      ⟨both_trans (both_symm hmem), both_trans hmem⟩
    simp only [hiff]
    split_ifs
    exacts [⟨rfl, rfl⟩, h.halves other half hmem]
  · by_cases hmem : other ∈ beds.both bed
    · exact absurd (if_pos hmem) hother
    · simp only [if_neg hmem] at hother ⊢
      obtain ⟨half, hhalf, hmap⟩ := h.mapped other hother
      exact ⟨half, hhalf, (Function.update_of_ne (h.other hmem hother) ..).trans hmap⟩
  · rcases eq_or_ne key (s.sleeperGUID bed) with rfl | hne
    · cases (Function.update_self ..).symm.trans hkey
    · have hold := (Function.update_of_ne hne ..).symm.trans hkey
      obtain ⟨hzero, hkept⟩ := h.sleeper key other hold
      exact ⟨hzero, (if_neg (h.wakeUp_key hne hold)).trans hkept⟩
  · by_cases hmem : other ∈ beds.both bed
    · exact absurd (if_pos hmem) hother
    · exact h.inHouse other (by simpa only [if_neg hmem] using hother)
  · simp only
    split_ifs
    exacts [Nat.two_pow_pos 32, h.fits other]
  · have hasleep := h.asleep_wakeUp now regenerates hhouse hsleeper slept
    rw [wakeUp_eq hhouse hsleeper] at hasleep
    refine h.once_of slept rfl ?_
    simp only [hasleep, List.map_cons, count_cons]
    omega

theorem Sound.use (h : s.Sound beds) {free : Bool} {loads : Loads} (hguid : guid ≠ 0)
    (hawake : s.bedSleepersMap guid = none) (hfits : now < 2 ^ 32) :
    (s.use beds bed guid now free loads).Sound beds := by
  rw [Beds.use]
  split
  · exact h
  · split_ifs with hsleeper hown
    · exact h.wakeUp hsleeper
    · exact h
    · exact h.sleep hguid hawake hfits

theorem Sound.removeSleepers (h : s.Sound beds) (bedsList : List Nat) {loads : Loads} :
    (s.removeSleepers beds bedsList now loads).Sound beds := by
  rw [Beds.removeSleepers]
  induction bedsList generalizing s with
  | nil => exact h
  | cons bed bedsList ih =>
    rw [List.foldl_cons]
    refine ih ?_
    split_ifs with hsleeper
    exacts [h.wakeUp hsleeper, h]

/-- The owners of the houses are not read by what holds of the sleepers. -/
theorem Sound.withOwner (h : s.Sound beds) (owner : Nat → Nat) :
    ({ s with owner := owner } : Beds).Sound beds :=
  ⟨h.halves, h.mapped, h.sleeper, h.inHouse, h.fits, h.once⟩

theorem Sound.setOwner (h : s.Sound beds) {house : Nat} {named : Bool} {loads : Loads} :
    (s.setOwner beds house guid named now loads).Sound beds := by
  rw [Beds.setOwner]
  split_ifs with _ howned
  · exact h
  · exact ((h.removeSleepers _).withOwner _).withOwner _
  · exact (h.removeSleepers _).withOwner _
  · exact h.withOwner _
  · exact h

theorem Sound.login (h : s.Sound beds) : (s.login beds guid now).Sound beds := by
  rw [Beds.login]
  split
  · rename_i bed hbed
    obtain ⟨hzero, hsleeper⟩ := h.sleeper guid bed hbed
    exact h.wakeUp (hsleeper.symm ▸ hzero)
  · exact h

end Step

section Restart

variable {beds : BedMap} {s saved : Beds} {known : Nat → Bool}

/-- The beds that `readAttr` gives their sleeper back. -/
abbrev Returns (saved : Beds) (known : Nat → Bool) (bed : Nat) : Prop :=
  saved.sleeperGUID bed ≠ 0 ∧ known (saved.sleeperGUID bed)

theorem readAttr_sleeperGUID (bed : Nat) : (s.readAttr saved known bed).sleeperGUID =
    if Returns saved known bed then Function.update s.sleeperGUID bed (saved.sleeperGUID bed)
    else s.sleeperGUID := by
  rw [readAttr]
  unfold Returns
  split_ifs <;> rfl

theorem readAttr_bedSleepersMap (bed : Nat) : (s.readAttr saved known bed).bedSleepersMap =
    if Returns saved known bed then
      Function.update s.bedSleepersMap (saved.sleeperGUID bed) (some bed)
    else s.bedSleepersMap := by
  rw [readAttr]
  unfold Returns
  split_ifs <;> rfl

theorem readAttr_sleepStart (bed : Nat) : (s.readAttr saved known bed).sleepStart =
    Function.update s.sleepStart bed (saved.sleepStart bed % 2 ^ 32) := by
  rw [readAttr]
  split_ifs <;> rfl

/-- The state after the bed items of `order` are read. -/
def readBeds (saved : Beds) (known : Nat → Bool) (order : List Nat) (s : Beds) : Beds :=
  order.foldl (fun t bed => t.readAttr saved known bed) s

theorem readBeds_sleeperGUID (order : List Nat) (s : Beds) (bed : Nat) :
    (readBeds saved known order s).sleeperGUID bed =
      if bed ∈ order ∧ Returns saved known bed then saved.sleeperGUID bed
      else s.sleeperGUID bed := by
  induction order generalizing s with
  | nil => rw [if_neg (fun hmem => List.not_mem_nil hmem.1), readBeds, List.foldl_nil]
  | cons head order ih =>
    rw [readBeds, List.foldl_cons, ← readBeds, ih, readAttr_sleeperGUID]
    rcases eq_or_ne bed head with rfl | hne
    · by_cases hreturns : Returns saved known bed
      · rw [if_pos hreturns, Function.update_self, ite_self,
          if_pos ⟨List.mem_cons_self, hreturns⟩]
      · rw [if_neg (fun h => hreturns h.2), if_neg hreturns, if_neg (fun h => hreturns h.2)]
    · have hhead : (if Returns saved known head then
          Function.update s.sleeperGUID head (saved.sleeperGUID head) else s.sleeperGUID) bed =
          s.sleeperGUID bed := by
        split_ifs
        exacts [Function.update_of_ne hne .., rfl]
      rw [hhead]
      simp only [List.mem_cons, hne, false_or]

theorem readBeds_sleepStart (order : List Nat) (s : Beds) (bed : Nat) :
    (readBeds saved known order s).sleepStart bed =
      if bed ∈ order then saved.sleepStart bed % 2 ^ 32 else s.sleepStart bed := by
  induction order generalizing s with
  | nil => rw [if_neg List.not_mem_nil, readBeds, List.foldl_nil]
  | cons head order ih =>
    rw [readBeds, List.foldl_cons, ← readBeds, ih, readAttr_sleepStart]
    rcases eq_or_ne bed head with rfl | hne
    · rw [Function.update_self, ite_self, if_pos List.mem_cons_self]
    · rw [Function.update_of_ne hne]
      simp only [List.mem_cons, hne, false_or]

/-- A player found in the map was put there by one of its beds. -/
theorem readBeds_found (order : List Nat) (s : Beds) {guid bed : Nat}
    (hfound : (readBeds saved known order s).bedSleepersMap guid = some bed) :
    s.bedSleepersMap guid = some bed ∨
      bed ∈ order ∧ Returns saved known bed ∧ saved.sleeperGUID bed = guid := by
  induction order generalizing s with
  | nil => exact .inl hfound
  | cons head order ih =>
    rw [readBeds, List.foldl_cons, ← readBeds] at hfound
    rcases ih _ hfound with hold | ⟨hmem, hrest⟩
    · rw [readAttr_bedSleepersMap] at hold
      split_ifs at hold with hreturns
      · rcases eq_or_ne guid (saved.sleeperGUID head) with rfl | hne
        · cases (Function.update_self ..).symm.trans hold
          exact .inr ⟨List.mem_cons_self, hreturns, rfl⟩
        · exact .inl ((Function.update_of_ne hne ..).symm.trans hold)
      · exact .inl hold
    · exact .inr ⟨List.mem_cons_of_mem _ hmem, hrest⟩

theorem readAttr_isSome {guid : Nat} (bed : Nat) (h : (s.bedSleepersMap guid).isSome) :
    ((s.readAttr saved known bed).bedSleepersMap guid).isSome := by
  rw [readAttr_bedSleepersMap]
  split_ifs
  · rw [Function.update_apply]
    split_ifs
    exacts [rfl, h]
  · exact h

theorem readBeds_isSome (order : List Nat) (s : Beds) {guid : Nat}
    (h : (s.bedSleepersMap guid).isSome ∨
      ∃ bed ∈ order, Returns saved known bed ∧ saved.sleeperGUID bed = guid) :
    ((readBeds saved known order s).bedSleepersMap guid).isSome := by
  induction order generalizing s with
  | nil =>
    rcases h with h | ⟨bed, hmem, -⟩
    exacts [h, absurd hmem List.not_mem_nil]
  | cons head order ih =>
    rw [readBeds, List.foldl_cons, ← readBeds]
    refine ih _ ?_
    rcases h with h | ⟨bed, hmem, hreturns, rfl⟩
    · exact .inl (readAttr_isSome head h)
    · rcases List.mem_cons.1 hmem with rfl | hmem
      · refine .inl ?_
        rw [readAttr_bedSleepersMap, if_pos hreturns, Function.update_self]
        rfl
      · exact .inr ⟨bed, hmem, hreturns, rfl⟩

theorem readAttr_slept (s saved : Beds) (known : Nat → Bool) (bed : Nat) :
    (s.readAttr saved known bed).slept = s.slept ∧
    (s.readAttr saved known bed).woken = s.woken ∧
    (s.readAttr saved known bed).named = s.named := by
  rw [readAttr]
  split_ifs <;> exact ⟨rfl, rfl, rfl⟩

theorem readBeds_slept (saved : Beds) (known : Nat → Bool) (order : List Nat) (s : Beds) :
    (readBeds saved known order s).slept = s.slept ∧
      (readBeds saved known order s).woken = s.woken ∧
      (readBeds saved known order s).named = s.named := by
  induction order generalizing s with
  | nil => exact ⟨rfl, rfl, rfl⟩
  | cons head order ih =>
    rw [readBeds, List.foldl_cons, ← readBeds]
    obtain ⟨hslept, hwoken, hnamed⟩ := ih (s.readAttr saved known head)
    obtain ⟨hslept', hwoken', hnamed'⟩ := readAttr_slept s saved known head
    exact ⟨hslept.trans hslept', hwoken.trans hwoken', hnamed.trans hnamed'⟩

variable {order : List Nat} (hvalid : ∀ bed, bed ∈ order ↔ beds.house bed ≠ none)

include hvalid

theorem Sound.restart_sleeperGUID (h : s.Sound beds) (bed : Nat) :
    (s.restart order known).sleeperGUID bed =
      if Returns s known bed then s.sleeperGUID bed else 0 := by
  rw [restart, ← readBeds, readBeds_sleeperGUID]
  by_cases hreturns : Returns s known bed
  · rw [if_pos hreturns, if_pos ⟨(hvalid bed).2 (h.inHouse bed hreturns.1), hreturns⟩]
  · rw [if_neg hreturns, if_neg fun hboth => hreturns hboth.2, started]

theorem Sound.restart_sleepStart (h : s.Sound beds) (bed : Nat) :
    (s.restart order known).sleepStart bed =
      if beds.house bed ≠ none then s.sleepStart bed else 0 := by
  rw [restart, ← readBeds, readBeds_sleepStart, Nat.mod_eq_of_lt (h.fits bed)]
  simp only [hvalid, started]

omit hvalid in
/-- The map leads to a half of the bed that it led to before. -/
theorem Sound.restart_found (h : s.Sound beds) {guid bed : Nat}
    (hfound : (s.restart order known).bedSleepersMap guid = some bed) :
    Returns s known bed ∧ s.sleeperGUID bed = guid ∧
      ∃ half ∈ beds.both bed, s.bedSleepersMap guid = some half := by
  rw [restart, ← readBeds] at hfound
  rcases readBeds_found order _ hfound with hold | ⟨-, hreturns, rfl⟩
  · cases hold
  · exact ⟨hreturns, rfl, h.mapped bed hreturns.1⟩

theorem Sound.restart_kept (h : s.Sound beds) {guid bed : Nat} (hknown : known guid)
    (hmap : s.bedSleepersMap guid = some bed) :
    ∃ half ∈ beds.both bed, (s.restart order known).bedSleepersMap guid = some half := by
  obtain ⟨hzero, rfl⟩ := h.sleeper guid bed hmap
  have hmem := (hvalid bed).2 (h.inHouse bed hzero)
  have hsome := readBeds_isSome order (s.started known) (.inr ⟨bed, hmem, ⟨hzero, hknown⟩, rfl⟩)
  obtain ⟨half, hhalf⟩ := Option.isSome_iff_exists.1 hsome
  refine ⟨half, ?_, hhalf⟩
  obtain ⟨hreturns, hsame, -⟩ := h.restart_found hhalf
  by_contra hother
  exact h.other hother hreturns.1 hsame

theorem Sound.asleep_restart (h : s.Sound beds) (sleep : SleptTime) :
    (s.restart order known).asleep sleep = if known sleep.guid then s.asleep sleep else 0 := by
  split_ifs with hknown
  · cases hmap : s.bedSleepersMap sleep.guid with
    | none =>
      rw [asleep_of_none hmap]
      refine asleep_of_none (Option.eq_none_iff_forall_ne_some.2 fun bed hfound => ?_)
      obtain ⟨-, -, half, -, hhalf⟩ := h.restart_found hfound
      rw [hmap] at hhalf
      cases hhalf
    | some bed =>
      obtain ⟨hzero, hsleeper⟩ := h.sleeper _ bed hmap
      obtain ⟨half, hmem, hhalf⟩ := h.restart_kept hvalid hknown hmap
      have hhouse := h.inHouse bed (hsleeper.symm ▸ hzero)
      rw [asleep_of_some hmap, asleep_of_some hhalf, h.restart_sleepStart hvalid half,
        house_both hmem, if_pos hhouse, (h.halves bed half hmem).2]
  · refine asleep_of_none (Option.eq_none_iff_forall_ne_some.2 fun bed hfound => hknown ?_)
    obtain ⟨hreturns, hsame, -⟩ := h.restart_found hfound
    exact hsame ▸ hreturns.2

theorem Sound.restart (h : s.Sound beds) : (s.restart order known).Sound beds := by
  refine ⟨fun bed half hmem => ?_, fun bed hsleeper => ?_, fun guid bed hfound => ?_,
    fun bed hsleeper => ?_, fun bed => ?_, fun sleep => ?_⟩
  · obtain ⟨hsleeper, hstart⟩ := h.halves bed half hmem
    rw [h.restart_sleeperGUID hvalid, h.restart_sleeperGUID hvalid, h.restart_sleepStart hvalid,
      h.restart_sleepStart hvalid, house_both hmem, hstart]
    simp only [Returns, hsleeper, and_self]
  · rw [h.restart_sleeperGUID hvalid] at hsleeper ⊢
    split_ifs at hsleeper ⊢ with hreturns
    · obtain ⟨half, hmem, hmap⟩ := h.mapped bed hsleeper
      obtain ⟨half', hmem', hmap'⟩ := h.restart_kept hvalid hreturns.2 hmap
      exact ⟨half', both_trans hmem' hmem, hmap'⟩
    · exact absurd rfl hsleeper
  · obtain ⟨hreturns, hsame, -⟩ := h.restart_found hfound
    rw [h.restart_sleeperGUID hvalid, if_pos hreturns]
    exact ⟨hsame ▸ hreturns.1, hsame⟩
  · rw [h.restart_sleeperGUID hvalid] at hsleeper
    split_ifs at hsleeper with hreturns
    · exact h.inHouse bed hreturns.1
    · exact absurd rfl hsleeper
  · rw [h.restart_sleepStart hvalid]
    split_ifs
    exacts [h.fits bed, Nat.two_pow_pos 32]
  · obtain ⟨hle, heq⟩ := h.once sleep
    obtain ⟨hslept, hwoken, hnamed⟩ := readBeds_slept s known order (s.started known)
    rw [h.asleep_restart hvalid, Beds.restart, ← readBeds, hslept, hwoken, hnamed]
    simp only [started]
    split_ifs with hknown
    · exact ⟨hle, fun hboth => heq (Bool.and_eq_true_iff.1 hboth).1⟩
    · exact ⟨by omega, fun hboth => absurd (Bool.and_eq_true_iff.1 hboth).2 hknown⟩

end Restart

section Ended

variable {beds : BedMap} {s : Beds} {bed guid now : Nat}

theorem Sound.wakeUp_mapped {regenerates : Bool} {half : Nat} (h : s.Sound beds)
    (hsleeper : s.sleeperGUID bed ≠ 0) (hmap : s.bedSleepersMap guid = some half) :
    (s.wakeUp beds bed now regenerates).bedSleepersMap guid = some half ∨
      guid = s.sleeperGUID bed ∧ half ∈ beds.both bed := by
  rw [wakeUp_eq (h.inHouse bed hsleeper) hsleeper]
  rcases eq_or_ne guid (s.sleeperGUID bed) with rfl | hne
  · obtain ⟨other, hmem, hother⟩ := h.mapped bed hsleeper
    cases hother.symm.trans hmap
    exact .inr ⟨rfl, hmem⟩
  · exact .inl ((Function.update_of_ne hne ..).trans hmap)

theorem Sound.removeSleepers_mapped {bedsList : List Nat} {loads : Loads} {half : Nat}
    (h : s.Sound beds) (hmap : s.bedSleepersMap guid = some half) :
    (s.removeSleepers beds bedsList now loads).bedSleepersMap guid = some half ∨
      ∃ bed ∈ bedsList, half ∈ beds.both bed := by
  rw [Beds.removeSleepers]
  induction bedsList generalizing s with
  | nil => exact .inl hmap
  | cons bed bedsList ih =>
    rw [List.foldl_cons]
    have hcons : (∃ b ∈ bedsList, half ∈ beds.both b) → ∃ b ∈ bed :: bedsList, half ∈ beds.both b :=
      fun ⟨b, hmem, hhalf⟩ => ⟨b, List.mem_cons_of_mem _ hmem, hhalf⟩
    split_ifs with hsleeper
    · rcases h.wakeUp_mapped hsleeper hmap with hkept | ⟨-, hhalf⟩
      · exact (ih (h.wakeUp hsleeper) hkept).imp_right hcons
      · exact .inr ⟨bed, List.mem_cons_self, hhalf⟩
    · exact (ih h hmap).imp_right hcons

/-- A bed that is free stays free, and the beds of the list become free. -/
theorem Sound.removeSleepers_free {bedsList : List Nat} {loads : Loads} (h : s.Sound beds)
    (hbed : bed ∈ bedsList ∨ s.sleeperGUID bed = 0) :
    (s.removeSleepers beds bedsList now loads).sleeperGUID bed = 0 := by
  rw [Beds.removeSleepers]
  induction bedsList generalizing s with
  | nil => exact hbed.resolve_left List.not_mem_nil
  | cons head bedsList ih =>
    rw [List.foldl_cons]
    split_ifs with hsleeper
    · refine ih (h.wakeUp hsleeper) ?_
      rw [wakeUp_eq (h.inHouse head hsleeper) hsleeper]
      by_cases hmem : bed ∈ beds.both head
      · exact .inr (if_pos hmem)
      · rcases hbed with hlist | hfree
        · refine .inl ((List.mem_cons.1 hlist).resolve_left ?_)
          rintro rfl
          exact hmem (self_mem_both beds bed)
        · exact .inr ((if_neg hmem).trans hfree)
    · refine ih h (hbed.elim (fun hlist => ?_) .inr)
      rcases List.mem_cons.1 hlist with rfl | hlist
      exacts [.inr (not_not.1 hsleeper), .inl hlist]

theorem Sound.setOwner_free {house : Nat} {named : Bool} {loads : Loads} (h : s.Sound beds)
    (howned : s.owner house ≠ 0) (hother : s.owner house ≠ guid)
    (hbed : bed ∈ beds.bedsList house) :
    (s.setOwner beds house guid named now loads).sleeperGUID bed = 0 := by
  rw [Beds.setOwner, if_neg hother, if_pos howned]
  split_ifs <;> exact h.removeSleepers_free (.inl hbed)

/-- What ends the sleep of a player in a bed. -/
def EndedBy (beds : BedMap) (s : Beds) (guid bed : Nat) : BedOp → Prop
  | .use _ user _ _ _ => ∃ house, beds.house bed = some house ∧ s.owner house = user
  | .setOwner house newOwner _ _ _ =>
    beds.house bed = some house ∧ s.owner house ≠ 0 ∧ s.owner house ≠ newOwner
  | .login player _ => player = guid
  | .restart _ known => known guid = false

theorem Sound.ended {op : BedOp} (h : s.Sound beds) (hvalid : s.Valid beds op)
    (hmap : s.bedSleepersMap guid = some bed)
    (hended : (s.apply beds op).bedSleepersMap guid = none) : EndedBy beds s guid bed op := by
  cases op with
  | use at_bed user now free loads =>
    rw [Beds.apply, Beds.use] at hended
    split at hended
    · cases hmap.symm.trans hended
    · rename_i house hhouse
      split_ifs at hended with hsleeper hown
      · rcases h.wakeUp_mapped hsleeper hmap with hkept | ⟨-, hhalf⟩
        · cases hkept.symm.trans hended
        · exact ⟨house, (house_both hhalf).trans hhouse, hown.2⟩
      · cases hmap.symm.trans hended
      · rw [sleep_eq (hhouse ▸ Option.some_ne_none house) (not_not.1 hsleeper)] at hended
        rcases eq_or_ne guid user with rfl | hne
        · cases (Function.update_self ..).symm.trans hended
        · cases hmap.symm.trans ((Function.update_of_ne hne ..).symm.trans hended)
  | setOwner house newOwner named now loads =>
    rw [Beds.apply, Beds.setOwner] at hended
    split_ifs at hended with hsame howned
    · cases hmap.symm.trans hended
    all_goals first
      | cases hmap.symm.trans hended
      | rcases h.removeSleepers_mapped hmap with hkept | ⟨head, hmem, hhalf⟩
        · cases hkept.symm.trans hended
        · have hhouse := (beds.mem_bedsList head house).1 hmem
          exact ⟨(house_both hhalf).trans hhouse, howned, hsame⟩
  | login player now =>
    rw [Beds.apply, Beds.login] at hended
    split at hended
    · rename_i head hhead
      obtain ⟨hzero, hsleeper⟩ := h.sleeper player head hhead
      rcases h.wakeUp_mapped (hsleeper.symm ▸ hzero) hmap with hkept | ⟨hguid, -⟩
      · cases hkept.symm.trans hended
      · exact (hguid.trans hsleeper).symm
    · cases hmap.symm.trans hended
  | restart order known =>
    refine Bool.eq_false_iff.2 fun hknown => ?_
    obtain ⟨half, -, hhalf⟩ := h.restart_kept hvalid hknown hmap
    cases hhalf.symm.trans hended

theorem Sound.apply {op : BedOp} (h : s.Sound beds) (hvalid : s.Valid beds op) :
    (s.apply beds op).Sound beds := by
  cases op with
  | use at_bed user now free loads => exact h.use hvalid.1 hvalid.2.1 hvalid.2.2
  | setOwner house newOwner named now loads => exact h.setOwner
  | login player now => exact h.login
  | restart order known => exact h.restart hvalid

theorem sound_empty : ({} : Beds).Sound beds where
  halves _ _ _ := ⟨rfl, rfl⟩
  mapped _ hsleeper := absurd rfl hsleeper
  sleeper _ _ hmap := nomatch hmap
  inHouse _ hsleeper := absurd rfl hsleeper
  fits _ := Nat.two_pow_pos 32
  once _ := ⟨Nat.le_refl 0, fun _ => rfl⟩

theorem reachable_sound (h : Run.Reachable (system beds) s) : s.Sound beds := by
  refine Run.Reachable.invariant (S := system beds) (I := Sound beds) ?_ ?_ h
  · rintro _ rfl
    exact sound_empty
  · rintro s op _ hs ⟨hvalid, rfl⟩
    exact hs.apply hvalid

theorem reachable_apply (h : Run.Reachable (system beds) s) (op : BedOp)
    (hvalid : s.Valid beds op) : Run.Reachable (system beds) (s.apply beds op) :=
  h.step' ⟨hvalid, rfl⟩

end Ended

/-- The map leads to a bed of every sleeper and of nobody else, and the two halves of a bed agree.
Every sleep has been ended once or goes on. A sleep is ended by the login of the player, by the
owner of the house, by a change of the owner, which leaves no sleeper, or by a start of the server
that does not find the name. -/
theorem sleeps_ended_once {beds : BedMap} {s : Beds} (h : Run.Reachable (system beds) s) :
    (∀ bed, ∀ half ∈ beds.both bed,
      s.sleeperGUID half = s.sleeperGUID bed ∧ s.sleepStart half = s.sleepStart bed) ∧
    (∀ guid bed, guid ≠ 0 → (s.sleeperGUID bed = guid ↔
      ∃ half ∈ beds.both bed, s.bedSleepersMap guid = some half)) ∧
    (∀ sleep : SleptTime, s.named sleep.guid →
      s.slept.count sleep = (s.woken.map Prod.fst).count sleep + s.asleep sleep) ∧
    (∀ sleep : SleptTime,
      (s.woken.map Prod.fst).count sleep + s.asleep sleep ≤ s.slept.count sleep) ∧
    (∀ house guid named now loads, s.owner house ≠ 0 → s.owner house ≠ guid →
      ∀ bed ∈ beds.bedsList house,
        (s.setOwner beds house guid named now loads).sleeperGUID bed = 0) ∧
    ∀ op s', (system beds).step s op s' → ∀ guid bed, s.bedSleepersMap guid = some bed →
      s'.bedSleepersMap guid = none → EndedBy beds s guid bed op := by
  have hs := reachable_sound h
  refine ⟨hs.halves, fun guid bed hguid => ⟨?_, ?_⟩, fun sleep => (hs.once sleep).2,
    fun sleep => (hs.once sleep).1, fun house guid named now loads howned hother bed hbed =>
      hs.setOwner_free howned hother hbed, ?_⟩
  · rintro rfl
    exact hs.mapped bed hguid
  · rintro ⟨half, hmem, hmap⟩
    exact (hs.halves bed half hmem).1.symm.trans (hs.sleeper guid half hmap).2
  · rintro op _ ⟨hvalid, rfl⟩ guid bed hmap hended
    exact hs.ended hvalid hmap hended

/-- Two beds of one house, of which the second has no other half. -/
def houseBeds : BedMap where
  house bed := if bed < 3 then some 7 else none
  bedsList house := if house = 7 then [0, 1, 2] else []
  next
    | 0 => some 1
    | 1 => some 0
    | _ => none
  mem_bedsList bed h := by grind
  next_next bed partner := by grind
  house_next bed partner := by grind

/-- A player sleeps over a start of the server, and comes back an hour later. -/
def hourAsleep : Beds :=
  let evening := apply houseBeds {} (.use 1 5 100 true fun _ => true)
  let restarted := apply houseBeds evening (.restart [2, 1, 0] fun _ => true)
  apply houseBeds restarted (.login 5 3700)

theorem reachable_hourAsleep : Run.Reachable (system houseBeds) hourAsleep := by
  have hempty : Run.Reachable (system houseBeds) {} := .init rfl
  have hevening := reachable_apply hempty (.use 1 5 100 true fun _ => true)
    ⟨by decide, rfl, by decide⟩
  have hrestarted := reachable_apply hevening (.restart [2, 1, 0] fun _ => true) fun bed => by
    simp only [houseBeds, List.mem_cons, List.not_mem_nil, or_false]
    grind
  exact reachable_apply hrestarted (.login 5 3700) trivial

theorem sleeps_ended_once_hourAsleep : hourAsleep.woken = [(⟨5, 100⟩, 3700, true)] ∧
    hourAsleep.slept.count ⟨5, 100⟩ =
      (hourAsleep.woken.map Prod.fst).count ⟨5, 100⟩ + hourAsleep.asleep ⟨5, 100⟩ :=
  ⟨by decide, (sleeps_ended_once reachable_hourAsleep).2.2.1 ⟨5, 100⟩ rfl⟩

end Beds

end Eloth
