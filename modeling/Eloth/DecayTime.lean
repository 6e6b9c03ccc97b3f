import Eloth.DecayRun

/-!
# When an item decays

`checkDecay` runs every `EVENT_DECAYINTERVAL` and the dispatcher cleans up after each task. An item
that nothing else changes waits in one bucket at a time; the time of the next visit of this bucket
and the duration that is left make up the time at which it should decay, up to one round.
-/

namespace Eloth

open Game

namespace Item

variable (it : Item) {type type' : AttrType}

theorem attr_setIntAttr_self (value : Int) :
    (it.setIntAttr type value).attr type = some (.integer value) := by
  simp [setIntAttr, setAttr, attr]

theorem attr_setIntAttr_of_ne (value : Int) (h : type' ≠ type) :
    (it.setIntAttr type value).attr type' = it.attr type' := by
  simp only [setIntAttr, setAttr, attr, Function.update_of_ne h]
  cases it.attributes <;> rfl

theorem getDuration_setDecaying (decayState : Int) :
    (it.setDecaying decayState).getDuration = it.getDuration := by
  have hattr := it.attr_setIntAttr_of_ne decayState
    (show AttrType.duration ≠ AttrType.decayState by decide)
  rw [getDuration, getDuration, getIntAttr, getIntAttr, setDecaying, hattr]

theorem getDuration_lt : it.getDuration < 2 ^ 32 := by
  rw [getDuration]
  omega

theorem getDuration_decreaseDuration {time : Nat} (h : time ≤ it.getDuration) :
    (it.decreaseDuration time).getDuration = it.getDuration - time := by
  have hattr : (it.decreaseDuration time).getIntAttr .duration =
      it.getIntAttr .duration + -(time : Int) := by
    rw [getIntAttr, decreaseDuration, attr_setIntAttr_self]
  rw [getDuration] at h
  rw [getDuration, getDuration, hattr]
  omega

end Item

/-- Setting an attribute that has no say in it does not change whether an item can decay. -/
theorem canDecay_setIntAttr (env : Env) (w : World) (r : ItemRef) {type : AttrType}
    (value : Item → Int) (hdecayTo : AttrType.decayTo ≠ type) (hunique : AttrType.uniqueId ≠ type) :
    (w.modifyItem r fun it => it.setIntAttr type (value it)).canDecay env r = w.canDecay env r := by
  have hitem : (w.modifyItem r fun it => it.setIntAttr type (value it)).item r =
      (w.item r).setIntAttr type (value (w.item r)) := World.modifyItem_item_self
  have hremoved : (w.modifyItem r fun it => it.setIntAttr type (value it)).isRemoved r =
      w.isRemoved r := DecayState.isRemoved_modifyItem fun _ => rfl
  rw [World.canDecay, World.canDecay, hremoved, hitem]
  simp only [Item.getDecayTo, Item.hasAttribute, Item.getIntAttr,
    Item.attr_setIntAttr_of_ne _ _ hdecayTo, Item.attr_setIntAttr_of_ne _ _ hunique]
  rfl

namespace DecayState

variable (env : Env) (fuel : Nat)

/-- What the decay of the item depends on is the same. -/
structure LeavesAlone (r : ItemRef) (s s' : DecayState) : Prop where
  duration : (s'.world.item r).getDuration = (s.world.item r).getDuration
  canDecay : s'.world.canDecay env r = s.world.canDecay env r
  lastBucket : s'.world.lastBucket = s.world.lastBucket
  isChecking : s'.loop.isSome = s.loop.isSome
  toDecayItems : s'.world.toDecayItems.count r = s.world.toDecayItems.count r
  decayItems : ∀ b, (s'.world.decayItems b).count r = (s.world.decayItems b).count r
  loop : (s'.loop.getD []).count r = (s.loop.getD []).count r

/-- The server with the time, the time of the next `checkDecay` and the times of the calls of
`internalDecayItem` for one item. -/
structure Clock where
  state : DecayState
  now : Nat
  next : Nat
  calls : List Nat := []

/-- One step of the server, as the item sees it. Tasks take no time, and each one ends with a
cleanup, so that time passes and `checkDecay` begins only when nothing is left to register. -/
inductive Clock.Step (r : ItemRef) : Clock → Clock → Prop
  | rest {c : Clock} (s' : DecayState) (halone : LeavesAlone env r c.state s') :
      Step r c { c with state := s' }
  | wait {c : Clock} (time : Nat) (hloop : c.state.loop = none)
      (hclean : c.state.world.toDecayItems = []) (htime : c.now + time ≤ c.next) :
      Step r c { c with now := c.now + time }
  | cleanup {c : Clock} (hloop : c.state.loop = none) :
      Step r c { c with state := c.state.clean c.state.world }
  | beginCheck {c : Clock} (s' : DecayState) (hclean : c.state.world.toDecayItems = [])
      (hdue : c.now = c.next) (hs' : c.state.apply env fuel .beginCheck = some s') :
      Step r c { c with state := s', next := c.next + EVENT_DECAYINTERVAL }
  | visitOther {c : Clock} {item : ItemRef} {rest : List ItemRef} (hne : item ≠ r)
      (hloop : c.state.loop = some (item :: rest))
      (halone : LeavesAlone env r { c.state with loop := some rest }
        (c.state.visitItem env fuel item rest)) :
      Step r c { c with state := c.state.visitItem env fuel item rest }
  | visit {c : Clock} (rest : List ItemRef) (hloop : c.state.loop = some (r :: rest)) :
      Step r c { c with
        state := c.state.visitItem env fuel r rest
        calls := if c.state.decayCalls env fuel .visit = [] then c.calls else c.now :: c.calls }
  | endCheck {c : Clock} (s' : DecayState) (hs' : c.state.apply env fuel .endCheck = some s') :
      Step r c { c with state := s' }

/-- The runs from a clock, as long as the decay of the item does not start the item again. -/
inductive Clock.Runs (r : ItemRef) (c₀ : Clock) : Clock → Prop
  | start : Runs r c₀ c₀
  | step {c c' : Clock} (h : Runs r c₀ c) (honce : c.calls = [] ∨ c.state.entries r = 0)
      (hstep : c.Step env fuel r c') : Runs r c₀ c'

/-- The item has just started to decay with the duration `d`. -/
structure Clock.Started (r : ItemRef) (d : Nat) (c : Clock) : Prop where
  calls : c.calls = []
  now_le : c.now ≤ c.next
  next_le : c.next ≤ c.now + EVENT_DECAYINTERVAL
  next_eq : c.state.loop.isSome → c.next = c.now + EVENT_DECAYINTERVAL
  state : ∃ s : DecayState, s.world.canDecay env r = true ∧
    (s.world.item r).getDecaying ≠ DECAYING_TRUE ∧ (s.world.item r).getDuration = d ∧
    s.entries r = 0 ∧ s.world.lastBucket < EVENT_DECAY_BUCKETS ∧
    c.state = s.become (startDecay env (fuel + 1) s.world (some r))

/-! ## The places of an item -/

section Places

variable {env fuel} {r : ItemRef} {s s' : DecayState} {c c' : Clock} {b v d t₀ : Nat}

/-- How often the item is new, in the buckets and in what the loop goes through. -/
structure Placed (r : ItemRef) (s : DecayState) (new : Nat) (bucket : Nat → Nat) (loop : Nat) :
    Prop where
  toDecayItems : s.world.toDecayItems.count r = new
  decayItems : ∀ b < EVENT_DECAY_BUCKETS, (s.world.decayItems b).count r = bucket b
  loop : (s.loop.getD []).count r = loop

def only (b b' : Nat) : Nat := if b' = b then 1 else 0

theorem LeavesAlone.placed (h : LeavesAlone env r s s') {new loop : Nat} {bucket : Nat → Nat}
    (hs : Placed r s new bucket loop) : Placed r s' new bucket loop :=
  ⟨h.toDecayItems.trans hs.toDecayItems, fun b hb => (h.decayItems b).trans (hs.decayItems b hb),
    h.loop.trans hs.loop⟩

/-- The bucket that the next `checkDecay` goes through. -/
def nextBucket (s : DecayState) : Nat :=
  if s.loop.isSome then (s.bucket + 1) % EVENT_DECAY_BUCKETS else s.bucket

/-- The time at which a bucket is gone through next. -/
def Clock.visitTime (c : Clock) (b : Nat) : Nat :=
  c.next + EVENT_DECAYINTERVAL *
    ((b + EVENT_DECAY_BUCKETS - nextBucket c.state) % EVENT_DECAY_BUCKETS)

/-- An item with the duration `v` left that is visited at the time `V` will decay in time, or its
duration is read as a negative number. -/
def Due (t₀ d v V : Nat) : Prop :=
  0 < v ∧
    if d < 2 ^ 31 then
      v < 2 ^ 31 ∧
        if v < 1000 then
          t₀ + d ≤ V + v ∧ V + v ≤ t₀ + d + EVENT_DECAYINTERVAL ∧
            V ≤ t₀ + max d EVENT_DECAYINTERVAL
        else t₀ + d + 750 ≤ V + v ∧ V + v ≤ t₀ + d + 1000
    else v = d ∧ V ≤ t₀ + 1000

/-- Where the item is until it decays. -/
inductive Place (r : ItemRef) (t₀ d v : Nat) (c : Clock) : Prop
  | registered (hplaced : Placed r c.state 1 (fun _ => 0) 0) (hnow : c.now = t₀) (hv : v = d)
  | waiting (b : Nat) (hb : b < EVENT_DECAY_BUCKETS) (hplaced : Placed r c.state 0 (only b) 0)
      (hdue : Due t₀ d v (c.visitTime b))
  | checked (hplaced : Placed r c.state 0 (fun _ => 0) 1) (hdue : Due t₀ d v c.now)

/-- The clock while the item waits for its decay. -/
structure Pending (env : Env) (r : ItemRef) (t₀ d v : Nat) (c : Clock) : Prop where
  calls : c.calls = []
  now_le : c.now ≤ c.next
  next_le : c.next ≤ c.now + EVENT_DECAYINTERVAL
  next_eq : c.state.loop.isSome → c.next = c.now + EVENT_DECAYINTERVAL
  lastBucket : c.state.world.lastBucket < EVENT_DECAY_BUCKETS
  canDecay : c.state.world.canDecay env r = true
  duration : (c.state.world.item r).getDuration = v
  positive : 0 < d
  bound : d < 2 ^ 32
  place : Place r t₀ d v c

theorem Due.le {V : Nat} (h : Due t₀ d v V) (hd : d < 2 ^ 32) :
    V ≤ t₀ + max d EVENT_DECAYINTERVAL := by
  rw [Due, EVENT_DECAYINTERVAL] at *
  split_ifs at h <;> omega

/-! ## The steps -/

/-- Only the decay lists and the references differ. -/
structure Relisted (w w' : World) : Prop where
  item : w'.item = w.item
  player : w'.player = w.player
  next : w'.next = w.next

theorem Relisted.canDecay {w w' : World} (h : Relisted w w') :
    w'.canDecay env r = w.canDecay env r := by
  have hparent : w'.parentOf = w.parentOf := by
    funext c
    cases c with
    | container x => exact congrArg Item.parent (congrFun h.item x)
    | player p =>
      exact congrArg (fun q : Player => some (Cylinder.tile q.tile)) (congrFun h.player p)
    | tile pos => rfl
  have hremoved : w'.isRemoved r = w.isRemoved r := by
    simp only [World.isRemoved, h.item, World.climbFuel, h.next, climb_congr hparent]
  rw [World.canDecay, World.canDecay, hremoved, h.item]

theorem cleanup_frame (w : World) (r : ItemRef) :
    Relisted w (cleanup w) ∧ (cleanup w).lastBucket = w.lastBucket ∧
      (cleanup w).toDecayItems = [] ∧
        ∀ b, ((cleanup w).decayItems b).count r =
          (w.decayItems b).count r +
            if b = cleanupBucket w r then w.toDecayItems.count r else 0 := by
  have hfold (l : List ItemRef) (w : World) :
      let w' := l.foldl (fun w item => pushBucket w (cleanupBucket w item) item) w
      Relisted w w' ∧ w'.lastBucket = w.lastBucket ∧
        ∀ b, (w'.decayItems b).count r =
          (w.decayItems b).count r + if b = cleanupBucket w r then l.count r else 0 := by
    induction l generalizing w with
    | nil => exact ⟨⟨rfl, rfl, rfl⟩, rfl, fun b => by simp⟩
    | cons item l ih =>
      obtain ⟨hlists, hlast, hcount⟩ := ih (pushBucket w (cleanupBucket w item) item)
      refine ⟨⟨hlists.item, hlists.player, hlists.next⟩, hlast, fun b => (hcount b).trans ?_⟩
      have hsame : cleanupBucket (pushBucket w (cleanupBucket w item) item) r =
          cleanupBucket w r := rfl
      have hpush : ((pushBucket w (cleanupBucket w item) item).decayItems b).count r =
          (w.decayItems b).count r +
            if b = cleanupBucket w item then [item].count r else 0 := by
        simp only [pushBucket, setBucket, Function.update_apply]
        split_ifs with hb
        · rw [hb, List.count_append]
        · rfl
      have hcons : (item :: l).count r = [item].count r + l.count r :=
        (List.count_append : ([item] ++ l).count r = _)
      rw [hsame, hpush, hcons]
      by_cases hr : item = r
      · subst hr
        split_ifs <;> omega
      · have hzero : [item].count r = 0 := by simp [hr]
        rw [hzero]
        split_ifs <;> omega
  rw [cleanup, foldl_decrementReferenceCounter]
  obtain ⟨hlists, hlast, hcount⟩ := hfold w.toDecayItems { w with
    referenceCounter := fun r => w.referenceCounter r - w.toReleaseItems.count r
    toReleaseItems := [] }
  exact ⟨⟨hlists.item, hlists.player, hlists.next⟩, hlast, rfl, hcount⟩

theorem Placed.cleanup {new loop : Nat} {bucket : Nat → Nat} (h : Placed r s new bucket loop)
    {w : World} (hdecayItems : w.decayItems = s.world.decayItems)
    (htoDecay : w.toDecayItems = s.world.toDecayItems) (hworld : s'.world = Game.cleanup w)
    (hloop : (s'.loop.getD []).count r = loop) :
    Placed r s' 0 (fun b => bucket b + if b = cleanupBucket w r then new else 0) loop := by
  obtain ⟨-, -, hnil, hcount⟩ := cleanup_frame w r
  refine ⟨?_, fun b hb => ?_, hloop⟩
  · rw [hworld, hnil, List.count_nil]
  · rw [hworld, hcount, hdecayItems, htoDecay, h.decayItems b hb, h.toDecayItems]

theorem Pending.alone (h : Pending env r t₀ d v c) {s' : DecayState}
    (halone : LeavesAlone env r c.state s') : Pending env r t₀ d v { c with state := s' } := by
  have hnext : nextBucket s' = nextBucket c.state := by
    rw [nextBucket, nextBucket, halone.isChecking, bucket, bucket, halone.lastBucket]
  have hvisit (b : Nat) : ({ c with state := s' } : Clock).visitTime b = c.visitTime b := by
    rw [Clock.visitTime, Clock.visitTime, hnext]
  refine { h with
    next_eq := fun hloop => h.next_eq (halone.isChecking ▸ hloop)
    lastBucket := halone.lastBucket.trans_lt h.lastBucket
    canDecay := halone.canDecay.trans h.canDecay
    duration := halone.duration.trans h.duration
    place := ?_ }
  cases h.place with
  | registered hplaced hnow hv => exact .registered (halone.placed hplaced) hnow hv
  | waiting b hb hplaced hdue => exact .waiting b hb (halone.placed hplaced) (hvisit b ▸ hdue)
  | checked hplaced hdue => exact .checked (halone.placed hplaced) hdue

/-- A new entry goes to the bucket that is due next, or to the last one for a whole round. -/
theorem due_cleanupBucket {w : World} (hlast : w.lastBucket < EVENT_DECAY_BUCKETS)
    (hduration : (w.item r).getDuration = d) (hd : 0 < d) {next : Nat} (hnow : t₀ ≤ next)
    (hnext : next ≤ t₀ + EVENT_DECAYINTERVAL) :
    cleanupBucket w r < EVENT_DECAY_BUCKETS ∧
      Due t₀ d d (next + EVENT_DECAYINTERVAL * ((cleanupBucket w r + EVENT_DECAY_BUCKETS -
        (w.lastBucket + 1) % EVENT_DECAY_BUCKETS) % EVENT_DECAY_BUCKETS)) := by
  refine ⟨cleanupBucket_lt hlast, hd, ?_⟩
  rw [cleanupBucket, hduration]
  by_cases hlong : EVENT_DECAYINTERVAL * EVENT_DECAY_BUCKETS ≤ d
  · rw [if_pos hlong]
    rw [EVENT_DECAY_BUCKETS, EVENT_DECAYINTERVAL] at *
    split_ifs <;> omega
  · rw [if_neg hlong]
    rw [EVENT_DECAY_BUCKETS, EVENT_DECAYINTERVAL] at *
    split_ifs <;> omega

theorem Pending.cleaned (h : Pending env r t₀ d v c) {w : World}
    (hlists : Relisted c.state.world w) (hdecayItems : w.decayItems = c.state.world.decayItems)
    (htoDecay : w.toDecayItems = c.state.world.toDecayItems)
    (hlast : w.lastBucket < EVENT_DECAY_BUCKETS)
    (hbucket : (w.lastBucket + 1) % EVENT_DECAY_BUCKETS = nextBucket c.state)
    (hempty : c.state.loop.getD [] = []) (hworld : s'.world = Game.cleanup w)
    (hloop : s'.loop = none) : Pending env r t₀ d v { c with state := s' } := by
  obtain ⟨hcleaned, hlast', -, -⟩ := cleanup_frame w r
  have hzero : (s'.loop.getD []).count r = 0 := by rw [hloop]; rfl
  have hnext : nextBucket s' = nextBucket c.state := by
    rw [nextBucket, hloop, ← hbucket, bucket, hworld, hlast']
    rfl
  have hvisit (b : Nat) : ({ c with state := s' } : Clock).visitTime b = c.visitTime b := by
    rw [Clock.visitTime, Clock.visitTime, hnext]
  refine { h with
    next_eq := fun hsome => ?_
    lastBucket := ?_
    canDecay := ?_
    duration := ?_
    place := ?_ }
  · rw [hloop] at hsome
    cases hsome
  · rw [hworld, hlast']
    exact hlast
  · rw [hworld, hcleaned.canDecay, hlists.canDecay]
    exact h.canDecay
  · rw [hworld, hcleaned.item, hlists.item]
    exact h.duration
  · cases h.place with
    | registered hplaced hnow hv =>
      subst hv
      have hplaced' := (show Placed r c.state 1 (fun _ => 0) 0 from hplaced).cleanup hdecayItems
        htoDecay hworld hzero
      have hduration : (w.item r).getDuration = v := by
        rw [hlists.item]
        exact h.duration
      obtain ⟨hb, hdue⟩ := due_cleanupBucket hlast hduration h.positive (hnow ▸ h.now_le)
        (hnow ▸ h.next_le)
      rw [hbucket] at hdue
      refine .waiting (cleanupBucket w r) hb ?_ (hvisit _ ▸ hdue)
      refine ⟨hplaced'.toDecayItems, fun b hb => (hplaced'.decayItems b hb).trans ?_,
        hplaced'.loop⟩
      rw [only, Nat.zero_add]
    | waiting b hb hplaced hdue =>
      have hplaced' := hplaced.cleanup hdecayItems htoDecay hworld hzero
      refine .waiting b hb ?_ (hvisit b ▸ hdue)
      refine ⟨hplaced'.toDecayItems, fun b' hb' => (hplaced'.decayItems b' hb').trans ?_,
        hplaced'.loop⟩
      rw [ite_self, Nat.add_zero]
    | checked hplaced hdue =>
      have hone := hplaced.loop
      rw [hempty] at hone
      cases hone

theorem Pending.beginCheck (h : Pending env r t₀ d v c)
    (hclean : c.state.world.toDecayItems = []) (hdue : c.now = c.next)
    (hs' : c.state.apply env fuel .beginCheck = some s') :
    Pending env r t₀ d v
      { c with state := s', next := c.next + EVENT_DECAYINTERVAL } := by
  simp only [apply] at hs'
  split at hs'
  case h_2 => cases hs'
  case h_1 hloop =>
  cases hs'
  have hbucket : c.state.bucket < EVENT_DECAY_BUCKETS := Nat.mod_lt _ (by decide)
  have hnextBucket : nextBucket c.state = c.state.bucket := by rw [nextBucket, hloop]; rfl
  refine { h with
    now_le := h.now_le.trans (Nat.le_add_right _ _)
    next_le := by dsimp only; rw [hdue]
    next_eq := fun _ => by dsimp only; rw [hdue]
    canDecay := by
      rw [← h.canDecay]
      exact Relisted.canDecay ⟨rfl, rfl, rfl⟩
    place := ?_ }
  cases h.place with
  | registered hplaced hnow hv =>
    have hone := hplaced.toDecayItems
    rw [hclean] at hone
    cases hone
  | waiting b hb hplaced hdue' =>
    rw [Clock.visitTime, hnextBucket] at hdue'
    by_cases hsame : b = c.state.bucket
    · subst hsame
      refine .checked ⟨hplaced.toDecayItems, fun b' hb' => ?_, ?_⟩ ?_
      · have hcount := hplaced.decayItems b' hb'
        simp only [setBucket, Function.update_apply]
        rw [only] at hcount
        split_ifs at hcount ⊢
        · rfl
        · exact hcount
      · have hcount := hplaced.decayItems _ hbucket
        rwa [only, if_pos rfl] at hcount
      · have hzero : (c.state.bucket + EVENT_DECAY_BUCKETS - c.state.bucket) %
            EVENT_DECAY_BUCKETS = 0 := by simp
        rw [hzero, Nat.mul_zero, Nat.add_zero, ← hdue] at hdue'
        exact hdue'
    · refine .waiting b hb ⟨hplaced.toDecayItems, fun b' hb' => ?_, ?_⟩ ?_
      · have hcount := hplaced.decayItems b' hb'
        simp only [setBucket, Function.update_apply]
        split_ifs with hb''
        · rw [only, if_neg (by omega)]
          rfl
        · exact hcount
      · have hcount := hplaced.decayItems _ hbucket
        rwa [only, if_neg (Ne.symm hsame)] at hcount
      · have hvisit : c.next + EVENT_DECAYINTERVAL +
              EVENT_DECAYINTERVAL * ((b + EVENT_DECAY_BUCKETS -
                (c.state.bucket + 1) % EVENT_DECAY_BUCKETS) % EVENT_DECAY_BUCKETS) =
            c.next + EVENT_DECAYINTERVAL *
              ((b + EVENT_DECAY_BUCKETS - c.state.bucket) % EVENT_DECAY_BUCKETS) := by
          simp only [EVENT_DECAY_BUCKETS, EVENT_DECAYINTERVAL] at *
          omega
        rw [Clock.visitTime]
        exact hvisit.symm ▸ hdue'
  | checked hplaced hdue' =>
    have hone := hplaced.loop
    rw [hloop] at hone
    cases hone

theorem toInt32_eq {n : Nat} (h : n < 2 ^ 32) :
    toInt32 n = if n < 2 ^ 31 then (n : Int) else (n : Int) - 2 ^ 32 := by
  rw [toInt32, Nat.mod_eq_of_lt h]

/-- Only a duration of less than two rounds ends, or one that is read as a negative number. -/
theorem stays_none {w : World} {bucket : Nat} (hdecay : w.canDecay env r = true)
    (hduration : (w.item r).getDuration = v) (hv : v < 2 ^ 32)
    (h : staysIn env bucket w r = none) : v < 1875 ∨ 2 ^ 31 ≤ v := by
  rw [staysIn, hdecay, hduration, toInt32_eq hv] at h
  simp only [EVENT_DECAY_BUCKETS, EVENT_DECAYINTERVAL, Bool.not_true, Bool.false_eq_true,
    if_false] at h
  split_ifs at h <;> omega

theorem stays_some {w : World} {bucket : Nat} (hbucket : bucket < EVENT_DECAY_BUCKETS)
    (hdecay : w.canDecay env r = true)
    (hduration : (w.item r).getDuration = v) (hv : v < 2 ^ 32)
    (h : staysIn env bucket w r = some b) :
    1875 ≤ v ∧ v < 2 ^ 31 ∧
      b = if v < 2000 then (bucket + 1) % EVENT_DECAY_BUCKETS else bucket := by
  rw [staysIn, hdecay, hduration, toInt32_eq hv] at h
  simp only [EVENT_DECAY_BUCKETS, EVENT_DECAYINTERVAL, Bool.not_true, Bool.false_eq_true,
    if_false] at h hbucket ⊢
  split_ifs at h ⊢ <;> simp only [Option.some.injEq] at h <;> omega

theorem checkDecayItem_stays {w : World} {bucket : Nat} (hv : (w.item r).getDuration < 2 ^ 31)
    (hlong : 1000 ≤ (w.item r).getDuration) (h : staysIn env bucket w r = some b) :
    checkDecayItem env fuel bucket w r =
      pushBucket (w.modifyItem r fun it => it.decreaseDuration (1000 : Nat)) b r := by
  have htime : min ((EVENT_DECAYINTERVAL * EVENT_DECAY_BUCKETS : Nat) : Int)
      (toInt32 (w.item r).getDuration) = (1000 : Nat) := by
    rw [toInt32_eq (by omega), if_pos hv, EVENT_DECAYINTERVAL, EVENT_DECAY_BUCKETS]
    omega
  rw [Nat.cast_mul] at htime
  rw [staysIn] at h
  rw [checkDecayItem]
  dsimp only at h ⊢
  split_ifs at h ⊢
  · rw [← Option.some.inj h, htime]
  · rw [← Option.some.inj h, htime]

theorem Due.stays {V : Nat} (h : Due t₀ d v V) {bucket : Nat}
    (hbucket : bucket < EVENT_DECAY_BUCKETS) (hlong : 1875 ≤ v) (hv : v < 2 ^ 31)
    (hb : b = if v < 2000 then (bucket + 1) % EVENT_DECAY_BUCKETS else bucket) :
    Due t₀ d (v - 1000) (V + EVENT_DECAYINTERVAL + EVENT_DECAYINTERVAL *
      ((b + EVENT_DECAY_BUCKETS - (bucket + 1) % EVENT_DECAY_BUCKETS) % EVENT_DECAY_BUCKETS)) := by
  have hturns : (b + EVENT_DECAY_BUCKETS - (bucket + 1) % EVENT_DECAY_BUCKETS) %
      EVENT_DECAY_BUCKETS = if v < 2000 then 0 else 3 := by
    rw [hb, EVENT_DECAY_BUCKETS] at *
    split_ifs <;> omega
  rw [hturns]
  rw [Due, EVENT_DECAYINTERVAL] at *
  split_ifs at h ⊢ <;> omega

theorem Due.decays_iff {V : Nat} (h : Due t₀ d v V) (hlast : v < 1875 ∨ 2 ^ 31 ≤ v) :
    t₀ + d ≤ V + 1250 ↔ d < 2 ^ 31 := by
  rw [Due, EVENT_DECAYINTERVAL] at h
  split_ifs at h <;> omega

/-- The item is visited: it decays, within its time exactly if its duration is not read as a
negative number, or it waits in another bucket or for another round. -/
theorem Pending.visit (h : Pending env r t₀ d v c) {rest : List ItemRef}
    (hloop : c.state.loop = some (r :: rest)) :
    (c.state.decayCalls env fuel .visit ≠ [] ∧ c.now ≤ t₀ + max d EVENT_DECAYINTERVAL ∧
      (t₀ + d ≤ c.now + 1250 ↔ d < 2 ^ 31)) ∨
    (c.state.decayCalls env fuel .visit = [] ∧
      ∃ v', Pending env r t₀ d v' { c with state := c.state.visitItem env fuel r rest }) := by
  have hone : Placed r c.state 0 (fun _ => 0) 1 ∧ Due t₀ d v c.now := by
    have hpos : 1 ≤ (c.state.loop.getD []).count r := by
      rw [hloop]
      exact List.one_le_count_iff.mpr List.mem_cons_self
    cases h.place with
    | registered hplaced => exact absurd hplaced.loop (by omega)
    | waiting b hb hplaced => exact absurd hplaced.loop (by omega)
    | checked hplaced hdue => exact ⟨hplaced, hdue⟩
  obtain ⟨hplaced, hdue⟩ := hone
  have hle := hdue.le h.bound
  have hv : v < 2 ^ 32 := h.duration ▸ Item.getDuration_lt _
  cases hstays : staysIn env c.state.bucket c.state.world r with
  | none =>
    refine .inl ⟨?_, hle, ?_⟩
    · simp only [decayCalls, hloop, h.canDecay, hstays]
      exact List.cons_ne_nil _ _
    · have hlast := stays_none h.canDecay h.duration hv hstays
      exact hdue.decays_iff hlast
  | some b =>
    refine .inr ⟨?_, ?_⟩
    · simp only [decayCalls, hloop, hstays]
      simp
    · have hbucket : c.state.bucket < EVENT_DECAY_BUCKETS := Nat.mod_lt _ (by decide)
      obtain ⟨hlong, hlt, hb⟩ := stays_some hbucket h.canDecay h.duration hv hstays
      have hworld : (c.state.visitItem env fuel r rest).world =
          pushBucket (c.state.world.modifyItem r fun it => it.decreaseDuration (1000 : Nat)) b r :=
        checkDecayItem_stays (by rw [h.duration]; exact hlt) (by rw [h.duration]; omega) hstays
      have hsame : (c.state.visitItem env fuel r rest).bucket = c.state.bucket := by
        rw [bucket, hworld]
        rfl
      have hnext := h.next_eq (by rw [hloop]; rfl)
      have hzero : rest.count r = 0 := by
        have hcount := hplaced.loop
        rw [hloop, Option.getD_some, List.count_cons_self] at hcount
        omega
      refine ⟨v - 1000, h.calls, h.now_le, h.next_le, fun _ => hnext, ?_, ?_, ?_, h.positive,
        h.bound, .waiting b ?_ ⟨?_, fun b' hb' => ?_, hzero⟩ ?_⟩
      · rw [hworld]
        exact h.lastBucket
      · rw [hworld, ← h.canDecay, ← canDecay_setIntAttr env c.state.world r
          (fun it => it.getIntAttr .duration + -((1000 : Nat) : Int))
          (show AttrType.decayTo ≠ AttrType.duration by decide) (by decide)]
        exact Relisted.canDecay ⟨rfl, rfl, rfl⟩
      · rw [hworld]
        change ((c.state.world.modifyItem r fun it =>
          it.decreaseDuration (1000 : Nat)).item r).getDuration = v - 1000
        rw [World.modifyItem_item_self, Item.getDuration_decreaseDuration, h.duration]
        rw [h.duration]
        omega
      · rw [hb]
        split_ifs
        · exact Nat.mod_lt _ (by decide)
        · exact hbucket
      · rw [hworld]
        exact hplaced.toDecayItems
      · have hcount := hplaced.decayItems b' hb'
        rw [hworld, only]
        simp only [pushBucket, setBucket, Function.update_apply]
        split_ifs with hbb
        · subst hbb
          rw [List.count_append]
          exact congrArg₂ (· + ·) hcount List.count_singleton_self
        · exact hcount
      · have hstay := hdue.stays hbucket hlong hlt hb
        rw [Clock.visitTime]
        have hnextBucket : nextBucket (c.state.visitItem env fuel r rest) =
            (c.state.bucket + 1) % EVENT_DECAY_BUCKETS := by
          rw [nextBucket, hsame]
          rfl
        rw [hnextBucket]
        change Due t₀ d (v - 1000) (c.next + _)
        rw [hnext]
        exact hstay

theorem Pending.endCheck (h : Pending env r t₀ d v c)
    (hs' : c.state.apply env fuel .endCheck = some s') :
    Pending env r t₀ d v { c with state := s' } := by
  simp only [apply] at hs'
  split at hs'
  case h_2 => cases hs'
  case h_1 hloop =>
  cases hs'
  have hbucket : c.state.bucket < EVENT_DECAY_BUCKETS := Nat.mod_lt _ (by decide)
  refine h.cleaned (w := { c.state.world with lastBucket := c.state.bucket }) ⟨rfl, rfl, rfl⟩ rfl
    rfl hbucket ?_ (by rw [hloop]; rfl) rfl rfl
  rw [nextBucket, hloop]
  rfl

theorem Pending.cleanup (h : Pending env r t₀ d v c) (hloop : c.state.loop = none) :
    Pending env r t₀ d v { c with state := c.state.clean c.state.world } := by
  refine h.cleaned (w := c.state.world) ⟨rfl, rfl, rfl⟩ rfl rfl h.lastBucket ?_
    (by rw [hloop]; rfl) rfl hloop
  rw [nextBucket, hloop]
  rfl

theorem Pending.wait (h : Pending env r t₀ d v c) {time : Nat} (hloop : c.state.loop = none)
    (hclean : c.state.world.toDecayItems = []) (htime : c.now + time ≤ c.next) :
    Pending env r t₀ d v { c with now := c.now + time } := by
  refine { h with
    now_le := htime
    next_le := h.next_le.trans (by dsimp only; omega)
    next_eq := fun hsome => ?_
    place := ?_ }
  · rw [show ({ c with now := c.now + time } : Clock).state = c.state from rfl, hloop] at hsome
    cases hsome
  · cases h.place with
    | registered hplaced hnow hv =>
      have hone := hplaced.toDecayItems
      rw [hclean] at hone
      cases hone
    | waiting b hb hplaced hdue => exact .waiting b hb hplaced hdue
    | checked hplaced hdue =>
      have hone := hplaced.loop
      rw [hloop] at hone
      cases hone

theorem Pending.visitOther (h : Pending env r t₀ d v c) {item : ItemRef} {rest : List ItemRef}
    (hne : item ≠ r) (hloop : c.state.loop = some (item :: rest))
    (halone : LeavesAlone env r { c.state with loop := some rest }
      (c.state.visitItem env fuel item rest)) :
    Pending env r t₀ d v { c with state := c.state.visitItem env fuel item rest } := by
  refine h.alone { halone with isChecking := ?_, loop := ?_ }
  · rw [halone.isChecking, hloop]
    rfl
  · rw [halone.loop, hloop, Option.getD_some, Option.getD_some, List.count_cons_of_ne hne]

/-- The clock of an item that is pending, or has decayed once and in time. -/
def Followed (env : Env) (r : ItemRef) (t₀ d : Nat) (c : Clock) : Prop :=
  (∃ v, Pending env r t₀ d v c) ∨ ∃ t, c.calls = [t] ∧ t ≤ t₀ + max d EVENT_DECAYINTERVAL ∧
    (t₀ + d ≤ t + 1250 ↔ d < 2 ^ 31)

theorem Followed.step (h : Followed env r t₀ d c) (honce : c.calls = [] ∨ c.state.entries r = 0)
    (hstep : c.Step env fuel r c') : Followed env r t₀ d c' := by
  rcases h with ⟨v, h⟩ | ⟨t, hcalls, hintime⟩
  · cases hstep with
    | rest s' halone => exact .inl ⟨v, h.alone halone⟩
    | wait time hloop hclean htime => exact .inl ⟨v, h.wait hloop hclean htime⟩
    | cleanup hloop => exact .inl ⟨v, h.cleanup hloop⟩
    | beginCheck s' hclean hdue hs' => exact .inl ⟨v, h.beginCheck hclean hdue hs'⟩
    | visitOther hne hloop halone => exact .inl ⟨v, h.visitOther hne hloop halone⟩
    | visit rest hloop =>
      rcases h.visit hloop with ⟨hcall, hle, hiff⟩ | ⟨hnone, v', h'⟩
      · refine .inr ⟨c.now, ?_, hle, hiff⟩
        rw [← h.calls]
        exact if_neg hcall
      · rw [if_pos hnone]
        exact .inl ⟨v', h'⟩
    | endCheck s' hs' => exact .inl ⟨v, h.endCheck hs'⟩
  · refine .inr ⟨t, ?_, hintime⟩
    cases hstep with
    | visit rest hloop =>
      have hnone : c.state.entries r = 0 := by
        rcases honce with hempty | hnone
        · rw [hcalls] at hempty
          cases hempty
        · exact hnone
      rw [entries_eq, hloop, Option.getD_some, List.count_cons_self] at hnone
      omega
    | _ => exact hcalls

theorem Pending.now_le_max (h : Pending env r t₀ d v c) :
    c.now ≤ t₀ + max d EVENT_DECAYINTERVAL := by
  cases h.place with
  | registered hplaced hnow hv => exact hnow.trans_le (Nat.le_add_right _ _)
  | waiting b hb hplaced hdue =>
    exact (h.now_le.trans (Nat.le_add_right _ _)).trans (hdue.le h.bound)
  | checked hplaced hdue => exact hdue.le h.bound

theorem Clock.Started.pending (h : c.Started env fuel r d) (hd : 0 < d) :
    Pending env r c.now d d c := by
  obtain ⟨s, hdecay, hdecaying, hduration, hentries, hlast, hstate⟩ := h.state
  have hworld : c.state.world =
      (s.world.modifyItem r fun it => it.setDecaying DECAYING_TRUE).pushToDecay r := by
    rw [hstate]
    change startDecay env (fuel + 1) s.world (some r) = _
    rw [startDecay, hdecay, hduration, if_neg (by decide), if_neg hdecaying, if_pos hd]
  have hloop : c.state.loop = s.loop := by rw [hstate]; rfl
  rw [entries_eq] at hentries
  refine ⟨h.calls, h.now_le, h.next_le, h.next_eq, ?_, ?_, ?_, hd, ?_,
    .registered ⟨?_, fun b hb => ?_, ?_⟩ rfl rfl⟩
  · rw [hworld]
    exact hlast
  · rw [hworld, ← hdecay, ← canDecay_setIntAttr env s.world r (fun _ => DECAYING_TRUE)
      (show AttrType.decayTo ≠ AttrType.decayState by decide) (by decide)]
    exact Relisted.canDecay ⟨rfl, rfl, rfl⟩
  · rw [hworld]
    change ((s.world.modifyItem r fun it => it.setDecaying DECAYING_TRUE).item r).getDuration = d
    rw [World.modifyItem_item_self, Item.getDuration_setDecaying, hduration]
  · rw [← hduration]
    exact Item.getDuration_lt _
  · rw [hworld]
    change (r :: s.world.toDecayItems).count r = 1
    rw [List.count_cons_self]
    omega
  · rw [hworld]
    have hzero : bucketCount s.world r = 0 := by omega
    exact List.count_eq_zero.mpr (bucketCount_eq_zero.mp hzero b hb)
  · rw [hloop]
    omega

end Places

/-! ## Torches -/

/-- The torch with another duration, not yet burning. -/
def coldTorch (duration : Int) : DecayState :=
  { torchState with
    world := torchState.world.modifyItem 0 fun it => it.setIntAttr .duration duration }

/-- The torch is lit at the time 0. -/
def torchClock (duration : Int) : Clock where
  state := (coldTorch duration).become
    (startDecay torchEnv 1 (coldTorch duration).world (some 0))
  now := 0
  next := 250

theorem started_torchClock_short : (torchClock 500).Started torchEnv 0 0 500 :=
  ⟨rfl, by decide, by decide, (fun h => nomatch h),
    coldTorch 500, by decide, by decide, by decide, by decide, by decide, rfl⟩

end DecayState

end Eloth
