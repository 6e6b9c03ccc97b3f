import Eloth.DecayEntries
import Eloth.Lib.PointSum
import Eloth.Lib.Run
import Eloth.Sample

/-!
# Runs of the decay lists

The loop of `checkDecay` is taken apart into its visits, so that other operations may come between
them, as they do when something that decays runs a script. What the entries hold of the reference
counters is told apart from what the rest of the program holds.
-/

namespace Eloth

open Game

/-- The loop goes through what is left of the bucket. The rest of the program holds the references
of `others`; the references of the entries in `left` wait in the release queue. -/
structure DecayState where
  world : World
  loop : Option (List ItemRef) := none
  others : ItemRef → Int
  left : List ItemRef := []

inductive DecayOp where
  | startDecay (item : ItemRef)
  | internalAddItem (toCylinder : Cylinder) (item : ItemRef) (index : Int) (flags : Nat)
    (test : Bool)
  | internalMoveItem (mv : Move)
  | transformItem (item : ItemRef) (newId : Nat) (newCount : Int)
  | internalRemoveItem (item : ItemRef) (count : Option Nat) (test : Bool) (flags : Nat)
  | cleanup
  | beginCheck
  | visit
  | endCheck

/-- The runs of `checkDecay` that the operation ends. -/
def DecayOp.checks : DecayOp → Nat
  | endCheck => 1
  | _ => 0

/-- The operation may register the item, besides items that it creates. -/
def DecayOp.enters (r : ItemRef) : DecayOp → Prop
  | startDecay item => r = item
  | internalAddItem _ item _ _ _ => r = item
  | internalMoveItem mv => r = mv.item
  | _ => False

/-- The operation would put the item into the world. -/
def DecayOp.puts (r : ItemRef) : DecayOp → Prop
  | internalAddItem _ item _ _ _ => item = r
  | internalMoveItem mv => mv.item = r
  | _ => False

/-- The bucket that keeps the entry of an item when `checkDecay` comes to it, if it is kept. -/
def staysIn (env : Env) (bucket : Nat) (w : World) (item : ItemRef) : Option Nat :=
  let interval : Int := EVENT_DECAYINTERVAL * EVENT_DECAY_BUCKETS
  if !w.canDecay env item then none
  else
    let duration := toInt32 (w.item item).getDuration
    let duration := duration - min interval duration
    if duration ≤ 0 then none
    else if duration < interval then
      let newBucket :=
        (bucket + ((duration.toNat + EVENT_DECAYINTERVAL / 2) / 1000)) % EVENT_DECAY_BUCKETS
      if newBucket = bucket then none else some newBucket
    else some bucket

namespace DecayState

variable (env : Env) (fuel : Nat) (s : DecayState)

/-- The bucket that `checkDecay` goes through. -/
def bucket : Nat := (s.world.lastBucket + 1) % EVENT_DECAY_BUCKETS

/-- A new item is held by its creator. -/
def become (w' : World) : DecayState :=
  { s with
    world := w'
    others := fun r => if s.world.next ≤ r ∧ r < w'.next then 1 else s.others r }

/-- The references in the release queue are given back. All but those of the entries that left were
references of others. -/
def clean (w : World) : DecayState :=
  { s with
    world := cleanup w
    others := fun r => s.others r - (w.toReleaseItems.count r - s.left.count r)
    left := [] }

/-- One round of the loop. -/
def visitItem (item : ItemRef) (rest : List ItemRef) : DecayState :=
  { s.become (checkDecayItem env fuel s.bucket s.world item) with
    loop := some rest
    left := if (staysIn env s.bucket s.world item).isNone then item :: s.left else s.left }

/-- The operations are called with items that exist. There is no result where the server would
dereference a null pointer. -/
def apply : DecayOp → Option DecayState
  | .startDecay item =>
    if item < s.world.next then some (s.become (startDecay env fuel s.world (some item)))
    else none
  | .internalAddItem toCylinder item index flags test =>
    if item < s.world.next then
      (internalAddItem env s.world toCylinder item index flags test).map fun added =>
        s.become added.world
    else none
  | .internalMoveItem mv =>
    if mv.item < s.world.next then
      (internalMoveItem env s.world mv).map fun result => s.become result.2
    else none
  | .transformItem item newId newCount =>
    if item < s.world.next then
      some (s.become (transformItem env s.world item newId newCount).2)
    else none
  | .internalRemoveItem item count test flags =>
    some (s.become (internalRemoveItem env s.world item count test flags).2)
  | .cleanup => some (s.clean s.world)
  | .beginCheck =>
    match s.loop with
    | none =>
      some { s with
        world := setBucket s.world s.bucket []
        loop := some (s.world.decayItems s.bucket) }
    | some _ => none
  | .visit =>
    match s.loop with
    | some (item :: rest) => some (s.visitItem env fuel item rest)
    | _ => none
  | .endCheck =>
    match s.loop with
    | some [] => some { s.clean { s.world with lastBucket := s.bucket } with loop := none }
    | _ => none

/-- How often an item is registered. -/
def entries (r : ItemRef) : Nat :=
  s.world.toDecayItems.count r +
    ((List.range EVENT_DECAY_BUCKETS).map fun b => (s.world.decayItems b).count r).sum +
      (s.loop.getD []).count r

/-! ## The calls of `internalDecayItem` -/

/-- The calls that follow a call of `startDecay`, with the worlds that they are made in. -/
def startDecayCalls : Nat → World → Option ItemRef → List (World × ItemRef)
  | _, _, none => []
  | 0, _, some _ => []
  | fuel + 1, w, some item =>
    if !w.canDecay env item || (w.item item).getDecaying = DECAYING_TRUE ||
      0 < (w.item item).getDuration then []
    else (w, item) ::
      if (env.items.get (w.item item).id).decayTo ≠ 0 then
        let (newItem, w) :=
          transformItem env w item ((w.item item).getDecayTo env.items).toNat (-1)
        startDecayCalls fuel w newItem
      else []

def internalDecayCalls (w : World) (item : ItemRef) : List (World × ItemRef) :=
  (w, item) ::
    if (env.items.get (w.item item).id).decayTo ≠ 0 then
      let (newItem, w) := transformItem env w item ((w.item item).getDecayTo env.items).toNat (-1)
      startDecayCalls env fuel w newItem
    else []

def decayCalls : DecayOp → List (World × ItemRef)
  | .startDecay item => startDecayCalls env fuel s.world (some item)
  | .visit =>
    match s.loop with
    | some (item :: _) =>
      if s.world.canDecay env item && (staysIn env s.bucket s.world item).isNone then
        let interval : Int := EVENT_DECAYINTERVAL * EVENT_DECAY_BUCKETS
        let decreaseTime := min interval (toInt32 (s.world.item item).getDuration)
        internalDecayCalls env fuel
          (s.world.modifyItem item fun it => it.decreaseDuration decreaseTime) item
      else []
    | _ => []
  | _ => []

/-! ## Runs -/

/-- Nothing is registered yet. -/
def Initial : Prop :=
  s.world.toDecayItems = [] ∧ (∀ b, s.world.decayItems b = []) ∧
    s.world.lastBucket < EVENT_DECAY_BUCKETS ∧ s.loop = none ∧ s.left = [] ∧
      s.others = s.world.referenceCounter

def system : Run.System DecayState DecayOp where
  init := Initial
  step s op s' := s.apply env fuel op = some s'

/-- A run in which the item is out of the world and is not put back, with the number of runs of
`checkDecay` that end in it. -/
inductive Gone (r : ItemRef) : DecayState → Nat → DecayState → Prop
  | refl (s : DecayState) : Gone r s 0 s
  | step {s s' s'' : DecayState} {n : Nat} (h : Gone r s n s') (op : DecayOp)
      (hremoved : s'.world.isRemoved r = true) (hputs : ¬ op.puts r)
      (hop : s'.apply env fuel op = some s'') :
      Gone r s (n + op.checks) s''

/-- Every entry holds a reference, and every entry that left has one waiting to be given back. -/
structure ReferencesHeld : Prop where
  referenceCounter_eq : ∀ r < s.world.next,
    s.world.referenceCounter r = s.others r + s.entries r + s.left.count r
  released : ∀ r, s.left.count r ≤ s.world.toReleaseItems.count r

/-! ## Buckets -/

section Buckets

variable {env fuel s} {w w' : World} {r item : ItemRef} {bucket b : Nat} {l : List ItemRef}

/-- How often an item is in the buckets. -/
def bucketCount (w : World) (r : ItemRef) : Nat :=
  ((List.range EVENT_DECAY_BUCKETS).map fun b => (w.decayItems b).count r).sum

theorem bucketCount_pushBucket (hb : bucket < EVENT_DECAY_BUCKETS) :
    bucketCount (pushBucket w bucket item) r = bucketCount w r + [item].count r := by
  have hpoint := PointSum.sum_map_add (f := fun b => (w.decayItems b).count r)
    (g := fun b => ((pushBucket w bucket item).decayItems b).count r) (a := bucket)
    (d := [item].count r) List.nodup_range (l := List.range EVENT_DECAY_BUCKETS) ?_ ?_
  · rwa [if_pos (List.mem_range.mpr hb)] at hpoint
  · simp [pushBucket, setBucket, List.count_append]
  · intro x hx
    simp [pushBucket, setBucket, Function.update_of_ne hx]

theorem bucketCount_setBucket (hb : bucket < EVENT_DECAY_BUCKETS) :
    bucketCount w r =
      bucketCount (setBucket w bucket []) r + (w.decayItems bucket).count r := by
  have hpoint := PointSum.sum_map_add (f := fun b => ((setBucket w bucket []).decayItems b).count r)
    (g := fun b => (w.decayItems b).count r) (a := bucket)
    (d := (w.decayItems bucket).count r) List.nodup_range
    (l := List.range EVENT_DECAY_BUCKETS) ?_ ?_
  · rwa [if_pos (List.mem_range.mpr hb)] at hpoint
  · simp [setBucket]
  · intro x hx
    simp [setBucket, Function.update_of_ne hx]

theorem bucketCount_of_decayItems (h : w'.decayItems = w.decayItems) :
    bucketCount w' r = bucketCount w r := by
  rw [bucketCount, bucketCount, h]

theorem bucketCount_eq_zero :
    bucketCount w r = 0 ↔ ∀ b < EVENT_DECAY_BUCKETS, r ∉ w.decayItems b := by
  rw [bucketCount, List.sum_eq_zero_iff_forall_eq_nat]
  simp only [List.mem_map, List.mem_range, forall_exists_index, and_imp,
    forall_apply_eq_imp_iff₂, List.count_eq_zero]

theorem cleanupBucket_lt (h : w.lastBucket < EVENT_DECAY_BUCKETS) :
    cleanupBucket w item < EVENT_DECAY_BUCKETS := by
  unfold cleanupBucket
  dsimp only
  split_ifs
  · exact h
  · exact Nat.mod_lt _ (by decide)

/-! ## Cleaning up -/

/-- What cleaning up leaves alone. -/
structure Emptied (w w' : World) (l : List ItemRef) : Prop where
  next : w'.next = w.next
  lastBucket : w'.lastBucket = w.lastBucket
  referenceCounter : w'.referenceCounter = w.referenceCounter
  bucketCount : ∀ r, bucketCount w' r = bucketCount w r + l.count r
  toReleaseItems : w'.toReleaseItems = w.toReleaseItems

theorem emptied_foldl (hlast : w.lastBucket < EVENT_DECAY_BUCKETS) (l : List ItemRef) :
    Emptied w (l.foldl (fun w item => pushBucket w (cleanupBucket w item) item) w) l := by
  induction l generalizing w with
  | nil => exact ⟨rfl, rfl, rfl, fun _ => rfl, rfl⟩
  | cons item l ih =>
    have h := ih (w := pushBucket w (cleanupBucket w item) item) hlast
    refine ⟨h.next, h.lastBucket, h.referenceCounter, fun r => ?_, h.toReleaseItems⟩
    rw [List.foldl_cons, h.bucketCount, bucketCount_pushBucket (cleanupBucket_lt hlast),
      Nat.add_assoc, ← List.count_append, List.singleton_append]

theorem foldl_decrementReferenceCounter (l : List ItemRef) :
    l.foldl World.decrementReferenceCounter w =
      { w with referenceCounter := fun r => w.referenceCounter r - l.count r } := by
  induction l generalizing w with
  | nil => simp
  | cons x l ih =>
    rw [List.foldl_cons, ih]
    congr 1
    funext r
    simp only [World.decrementReferenceCounter, List.count_cons, Function.update_apply]
    by_cases hr : r = x
    · simp only [hr, if_true, BEq.rfl, Nat.cast_add, Nat.cast_one]
      ring
    · simp [hr, Ne.symm hr]

end Buckets

/-! ## The references -/

section References

variable {env fuel s} {s' : DecayState} {w w' : World} {r item : ItemRef} {op : DecayOp}
  {p : ItemRef → Prop}

theorem entries_eq (s : DecayState) (r : ItemRef) :
    s.entries r = s.world.toDecayItems.count r + bucketCount s.world r + (s.loop.getD []).count r :=
  rfl

/-- Also, only items that exist are registered. -/
structure Inv (s : DecayState) : Prop extends ReferencesHeld s where
  lastBucket : s.world.lastBucket < EVENT_DECAY_BUCKETS
  registered : ∀ r, s.world.next ≤ r → s.entries r = 0 ∧ s.left.count r = 0

theorem init_inv (h : Initial s) : Inv s := by
  obtain ⟨htoDecay, hbuckets, hlast, hloop, hleft, hothers⟩ := h
  have hentries (r : ItemRef) : s.entries r = 0 := by
    rw [entries_eq, htoDecay, hloop, bucketCount_eq_zero.mpr fun b _ => by
      rw [hbuckets]
      exact List.not_mem_nil]
    rfl
  refine ⟨⟨fun r _ => ?_, fun r => ?_⟩, hlast, fun r _ => ⟨hentries r, ?_⟩⟩
  · rw [hothers, hentries, hleft]
    simp
  · rw [hleft]
    exact Nat.zero_le _
  · rw [hleft]
    rfl

theorem Inv.become (h : Inv s) (hw : Registers p s.world w') : Inv (s.become w') := by
  obtain ⟨new, htoDecay, hnew, hcounter⟩ := hw.entries
  have hentries (r : ItemRef) : (s.become w').entries r = new.count r + s.entries r := by
    rw [entries_eq, entries_eq]
    change w'.toDecayItems.count r + bucketCount w' r + _ = _
    rw [htoDecay, bucketCount_of_decayItems hw.decayItems, List.count_append]
    change _ + (s.loop.getD []).count r = _
    ring
  refine ⟨⟨fun r hr => ?_, fun r => ?_⟩, hw.lastBucket ▸ h.lastBucket, fun r hr => ?_⟩
  · change w'.referenceCounter r = (if s.world.next ≤ r ∧ r < w'.next then 1 else s.others r) +
      _ + (s.left.count r : Int)
    rw [hcounter, hentries]
    by_cases hfresh : s.world.next ≤ r
    · obtain ⟨hnone, hleft⟩ := h.registered r hfresh
      rw [if_pos ⟨hfresh, hr⟩, if_pos ⟨hfresh, hr⟩, hnone, hleft]
      simp
    · rw [if_neg fun hr => hfresh hr.1, h.referenceCounter_eq r (not_le.mp hfresh), if_neg
        fun hr => hfresh hr.1]
      push_cast
      ring
  · exact (h.released r).trans (hw.released.sublist.count_le r)
  · obtain ⟨hnone, hleft⟩ := h.registered r (hw.next_le.trans hr)
    refine ⟨?_, hleft⟩
    rw [hentries, hnone, List.count_eq_zero.mpr fun hmem => absurd (hnew r hmem).1 (not_lt.mpr hr)]

theorem emptied_cleanup (hlast : w.lastBucket < EVENT_DECAY_BUCKETS) :
    (cleanup w).next = w.next ∧ (cleanup w).lastBucket = w.lastBucket ∧
      (cleanup w).toDecayItems = [] ∧ (cleanup w).toReleaseItems = [] ∧
        (∀ r, bucketCount (cleanup w) r = bucketCount w r + w.toDecayItems.count r) ∧
          ∀ r, (cleanup w).referenceCounter r =
            w.referenceCounter r - w.toReleaseItems.count r := by
  have h := @emptied_foldl { w with
    referenceCounter := fun r => w.referenceCounter r - w.toReleaseItems.count r
    toReleaseItems := [] } hlast w.toDecayItems
  rw [cleanup, foldl_decrementReferenceCounter]
  exact ⟨h.next, h.lastBucket, rfl, h.toReleaseItems, h.bucketCount,
    fun r => congrFun h.referenceCounter r⟩

/-- Cleaning up moves the new entries to the buckets and gives back what the queue holds. -/
theorem Inv.clean (h : Inv s) {b : Nat} (hb : b < EVENT_DECAY_BUCKETS) :
    Inv (s.clean { s.world with lastBucket := b }) := by
  obtain ⟨hnext, hlast, htoDecay, hrelease, hbuckets, hcounter⟩ :=
    @emptied_cleanup { s.world with lastBucket := b } hb
  set w : World := { s.world with lastBucket := b }
  have hentries (r : ItemRef) : (s.clean w).entries r = s.entries r := by
    rw [entries_eq, entries_eq]
    change (cleanup w).toDecayItems.count r + bucketCount (cleanup w) r +
      (s.loop.getD []).count r = _
    rw [htoDecay, hbuckets]
    change 0 + (bucketCount s.world r + s.world.toDecayItems.count r) + _ = _
    ring
  refine ⟨⟨fun r hr => ?_, fun r => Nat.zero_le _⟩, hlast.trans_lt hb, fun r hr => ?_⟩
  · change (cleanup w).referenceCounter r = s.others r - (s.world.toReleaseItems.count r -
      s.left.count r) + _ + ((([] : List ItemRef).count r : Nat) : Int)
    rw [hcounter, hentries]
    change s.world.referenceCounter r - (s.world.toReleaseItems.count r : Int) = _
    rw [h.referenceCounter_eq r (hnext ▸ hr), List.count_nil]
    push_cast
    ring
  · have hold := h.registered r (hnext ▸ hr)
    exact ⟨(hentries r).trans hold.1, rfl⟩

theorem checkDecayItem_keeps (fuel : Nat) {bucket b : Nat} (hbucket : bucket < EVENT_DECAY_BUCKETS)
    (h : staysIn env bucket w item = some b) :
    b < EVENT_DECAY_BUCKETS ∧
      ∃ w₁, Quiet w w₁ ∧ checkDecayItem env fuel bucket w item = pushBucket w₁ b item := by
  unfold staysIn at h
  unfold checkDecayItem
  dsimp only at h ⊢
  split_ifs at h ⊢ with hdecay hdue hsoon hsame
  · obtain rfl := Option.some.inj h
    exact ⟨Nat.mod_lt _ (by decide), _, quiet_modifyItem w item _, rfl⟩
  · obtain rfl := Option.some.inj h
    exact ⟨hbucket, _, quiet_modifyItem w item _, rfl⟩

theorem checkDecayItem_leaves (fuel : Nat) {bucket : Nat} (hitem : item < w.next)
    (h : staysIn env bucket w item = none) :
    ∃ w₁, Registers (· = item) w w₁ ∧
      checkDecayItem env fuel bucket w item = w₁.releaseItem item := by
  unfold staysIn at h
  unfold checkDecayItem
  dsimp only at h ⊢
  have hchanged (f : Item → Item) := quiet_modifyItem w item f
  split_ifs at h ⊢ with hdecay hdue hsoon hsame
  · exact ⟨_, .of_quiet (hchanged _), rfl⟩
  · exact ⟨_, (hchanged _).registers (registers_internalDecayItem fuel
      (w := w.modifyItem item _) hitem), rfl⟩
  · exact ⟨_, (hchanged _).registers (registers_internalDecayItem fuel
      (w := w.modifyItem item _) hitem), rfl⟩

/-- Entries may change their places, or leave while a reference goes to the release queue. -/
theorem Inv.rearrange (h : Inv s) (hnext : s'.world.next = s.world.next)
    (hlast : s'.world.lastBucket = s.world.lastBucket)
    (hcounter : s'.world.referenceCounter = s.world.referenceCounter)
    (hothers : s'.others = s.others)
    (hentries : ∀ r, s'.entries r + s'.left.count r = s.entries r + s.left.count r)
    (hreleased : ∀ r, s'.left.count r ≤ s'.world.toReleaseItems.count r) : Inv s' := by
  refine ⟨⟨fun r hr => ?_, hreleased⟩, hlast ▸ h.lastBucket, fun r hr => ?_⟩
  · have hold := h.referenceCounter_eq r (hnext ▸ hr)
    have hmoved := hentries r
    rw [hcounter, hothers]
    omega
  · have hold := h.registered r (hnext ▸ hr)
    have hmoved := hentries r
    omega

theorem Inv.lt_of_loop {rest : List ItemRef} (h : Inv s) (hloop : s.loop = some (item :: rest)) :
    item < s.world.next := by
  have hentry : s.entries item ≠ 0 := by
    rw [entries_eq, hloop]
    simp
  exact not_le.mp fun hle => hentry (h.registered item hle).1

/-- A visit puts the entry into a bucket, or it lets the item decay or not and releases it. -/
theorem visitItem_cases (env : Env) (fuel : Nat) (rest : List ItemRef)
    (hitem : item < s.world.next) :
    (∃ b w₁, b < EVENT_DECAY_BUCKETS ∧ Quiet s.world w₁ ∧
      s.visitItem env fuel item rest =
        { s.become w₁ with world := pushBucket w₁ b item, loop := some rest }) ∨
    ∃ w₁, Registers (· = item) s.world w₁ ∧
      s.visitItem env fuel item rest =
        { s.become w₁ with
          world := w₁.releaseItem item, loop := some rest, left := item :: s.left } := by
  have hbucket : s.bucket < EVENT_DECAY_BUCKETS := Nat.mod_lt _ (by decide)
  cases hstays : staysIn env s.bucket s.world item with
  | some b =>
    obtain ⟨hb, w₁, hquiet, heq⟩ := checkDecayItem_keeps fuel hbucket hstays
    refine .inl ⟨b, w₁, hb, hquiet, ?_⟩
    rw [visitItem, heq, hstays]
    rfl
  | none =>
    obtain ⟨w₁, hregisters, heq⟩ := checkDecayItem_leaves fuel hitem hstays
    refine .inr ⟨w₁, hregisters, ?_⟩
    rw [visitItem, heq, hstays]
    rfl

/-- Everything that an operation can do. -/
theorem apply_cases (hop : s.apply env fuel op = some s') :
    op.checks = 0 ∧ ((∃ w', Registers (op.enters ·) s.world w' ∧ s' = s.become w') ∨
      s' = s.clean s.world ∨
      (s.loop = none ∧
        s' = { s with
          world := setBucket s.world s.bucket []
          loop := some (s.world.decayItems s.bucket) }) ∨
      ∃ item rest, s.loop = some (item :: rest) ∧ s' = s.visitItem env fuel item rest) ∨
    op.checks = 1 ∧ s.loop = some [] ∧
      s' = { s.clean { s.world with lastBucket := s.bucket } with loop := none } := by
  cases op with
  | startDecay item =>
    obtain ⟨hitem, hop⟩ := Option.ite_none_right_eq_some.mp hop
    exact .inl ⟨rfl, .inl ⟨_, registers_startDecay fuel s.world item hitem,
      (Option.some.inj hop).symm⟩⟩
  | internalAddItem toCylinder item index flags test =>
    obtain ⟨hitem, hop⟩ := Option.ite_none_right_eq_some.mp hop
    obtain ⟨added, hadd, hop⟩ := Option.map_eq_some_iff.mp hop
    exact .inl ⟨rfl, .inl ⟨_, registers_internalAddItemAux _ s.world item index added hitem hadd,
      hop.symm⟩⟩
  | internalMoveItem mv =>
    obtain ⟨hitem, hop⟩ := Option.ite_none_right_eq_some.mp hop
    obtain ⟨⟨ret, w'⟩, hmove, hop⟩ := Option.map_eq_some_iff.mp hop
    exact .inl ⟨rfl, .inl ⟨w', registers_internalMoveItem hitem hmove, hop.symm⟩⟩
  | transformItem item newId newCount =>
    obtain ⟨hitem, hop⟩ := Option.ite_none_right_eq_some.mp hop
    exact .inl ⟨rfl, .inl ⟨_, (transforms_transformItem hitem).registers,
      (Option.some.inj hop).symm⟩⟩
  | internalRemoveItem item count test flags =>
    exact .inl ⟨rfl, .inl ⟨_, .of_quiet
      (quiet_internalRemoveItem env s.world item count test flags), (Option.some.inj hop).symm⟩⟩
  | cleanup => exact .inl ⟨rfl, .inr (.inl (Option.some.inj hop).symm)⟩
  | beginCheck =>
    cases hloop : s.loop with
    | some rest =>
      rw [apply, hloop] at hop
      cases hop
    | none =>
      rw [apply, hloop] at hop
      exact .inl ⟨rfl, .inr (.inr (.inl ⟨rfl, (Option.some.inj hop).symm⟩))⟩
  | visit =>
    match hloop : s.loop with
    | some (item :: rest) =>
      rw [apply, hloop] at hop
      exact .inl ⟨rfl, .inr (.inr (.inr ⟨item, rest, rfl, (Option.some.inj hop).symm⟩))⟩
    | some [] | none =>
      rw [apply, hloop] at hop
      cases hop
  | endCheck =>
    match hloop : s.loop with
    | some [] =>
      rw [apply, hloop] at hop
      exact .inr ⟨rfl, rfl, (Option.some.inj hop).symm⟩
    | some (item :: rest) | none =>
      rw [apply, hloop] at hop
      cases hop

theorem Inv.visitItem {rest : List ItemRef} (h : Inv s) (hloop : s.loop = some (item :: rest)) :
    Inv (s.visitItem env fuel item rest) := by
  have hrest (r : ItemRef) : (s.loop.getD []).count r = [item].count r + rest.count r := by
    rw [hloop, ← List.count_append, List.singleton_append]
    rfl
  obtain ⟨b, w₁, hb, hquiet, heq⟩ | ⟨w₁, hregisters, heq⟩ :=
    visitItem_cases env fuel rest (h.lt_of_loop hloop)
  · have hw := h.become (.of_quiet (p := fun _ => False) hquiet)
    rw [heq]
    refine hw.rearrange rfl rfl rfl rfl (fun r => ?_) hw.released
    rw [entries_eq, entries_eq]
    change w₁.toDecayItems.count r + bucketCount (pushBucket w₁ b item) r + rest.count r + _ =
      w₁.toDecayItems.count r + bucketCount w₁ r + (s.loop.getD []).count r + _
    rw [bucketCount_pushBucket hb, hrest]
    change _ + s.left.count r = _ + s.left.count r
    ring
  · have hw := h.become hregisters
    rw [heq]
    refine hw.rearrange rfl rfl rfl rfl (fun r => ?_) fun r => ?_
    · rw [entries_eq, entries_eq]
      change w₁.toDecayItems.count r + bucketCount w₁ r + rest.count r + (item :: s.left).count r =
        w₁.toDecayItems.count r + bucketCount w₁ r + (s.loop.getD []).count r + s.left.count r
      rw [hrest, ← List.singleton_append, List.count_append]
      ring
    · change (item :: s.left).count r ≤ (w₁.toReleaseItems ++ [item]).count r
      have hleft := hw.released r
      rw [← List.singleton_append, List.count_append, List.count_append, Nat.add_comm]
      exact Nat.add_le_add_right hleft _

theorem Inv.begin (h : Inv s) (hloop : s.loop = none)
    (hs' : s' = { s with
      world := setBucket s.world s.bucket []
      loop := some (s.world.decayItems s.bucket) }) : Inv s' := by
  have hbucket : s.bucket < EVENT_DECAY_BUCKETS := Nat.mod_lt _ (by decide)
  subst hs'
  refine h.rearrange rfl rfl rfl rfl (fun r => ?_) h.released
  rw [entries_eq, entries_eq, hloop, bucketCount_setBucket (w := s.world) hbucket]
  change s.world.toDecayItems.count r + bucketCount (setBucket s.world s.bucket []) r +
    (s.world.decayItems s.bucket).count r + _ = _ + 0 + _
  ring

theorem Inv.end (h : Inv s) (hloop : s.loop = some [])
    (hs' : s' = { s.clean { s.world with lastBucket := s.bucket } with loop := none }) :
    Inv s' := by
  have hcleaned := h.clean (b := s.bucket) (Nat.mod_lt _ (by decide))
  subst hs'
  refine hcleaned.rearrange rfl rfl rfl rfl (fun r => ?_) hcleaned.released
  rw [entries_eq, entries_eq]
  change _ + _ + 0 + _ = _ + _ + (s.loop.getD []).count r + _
  rw [hloop]
  rfl

theorem apply_inv (h : Inv s) (hop : s.apply env fuel op = some s') : Inv s' := by
  obtain ⟨-, ⟨w', hw, rfl⟩ | rfl | ⟨hloop, hs'⟩ | ⟨item, rest, hloop, rfl⟩⟩ | ⟨-, hloop, hs'⟩ :=
    apply_cases hop
  · exact h.become hw
  · exact h.clean h.lastBucket
  · exact h.begin hloop hs'
  · exact h.visitItem hloop
  · exact h.end hloop hs'

theorem reachable_inv (h : Run.Reachable (system env fuel) s) : Inv s :=
  h.invariant (fun _ => init_inv) fun _ _ _ => apply_inv

/-! ## The items that decay -/

theorem climb_congr (h : w'.parentOf = w.parentOf) (n : Nat) (c : Cylinder) :
    w'.climb n c = w.climb n c := by
  induction n generalizing c with
  | zero => rfl
  | succ n ih =>
    rw [World.climb, World.climb, h]
    cases w.parentOf c with
    | none => rfl
    | some above => exact congrArg (c :: ·) (ih above)

theorem decreaseDuration_parent (it : Item) (time : Int) :
    (it.decreaseDuration time).parent = it.parent := rfl

theorem isRemoved_modifyItem {f : Item → Item} (hf : ∀ it, (f it).parent = it.parent) :
    (w.modifyItem item f).isRemoved r = w.isRemoved r := by
  have hparent (x : ItemRef) : ((w.modifyItem item f).item x).parent = (w.item x).parent :=
    World.modifyItem_proj Item.parent hf
  have hclimb : (w.modifyItem item f).parentOf = w.parentOf := by
    funext c
    cases c with
    | container x => exact hparent x
    | player p => rfl
    | tile pos => rfl
  rw [World.isRemoved, World.isRemoved, hparent]
  cases (w.item r).parent with
  | none => rfl
  | some above =>
    dsimp only
    rw [climb_congr hclimb]
    rfl

theorem not_isRemoved_of_canDecay (h : w.canDecay env r = true) : w.isRemoved r = false := by
  rw [World.canDecay, Bool.and_eq_true_iff, Bool.and_eq_true_iff, Bool.and_eq_true_iff] at h
  simpa using h.1.1.1

theorem not_isRemoved_startDecayCalls {w₀ : World} {result : Option ItemRef}
    (h : (w, r) ∈ startDecayCalls env fuel w₀ result) : w.isRemoved r = false := by
  induction fuel generalizing w₀ result with
  | zero => cases result <;> cases h
  | succ fuel ih =>
    cases result with
    | none => cases h
    | some item =>
      rw [startDecayCalls] at h
      split at h
      · cases h
      · next hguard =>
        obtain hfirst | hrest := List.mem_cons.mp h
        · obtain ⟨rfl, rfl⟩ := Prod.mk.inj hfirst
          refine @not_isRemoved_of_canDecay env _ _ ?_
          by_contra hcannot
          exact hguard (by simp [hcannot])
        · split at hrest
          · exact ih hrest
          · cases hrest

theorem not_isRemoved_decayCalls (h : (w, r) ∈ s.decayCalls env fuel op) :
    w.isRemoved r = false := by
  cases op with
  | startDecay item => exact not_isRemoved_startDecayCalls h
  | visit =>
    match hloop : s.loop with
    | some (item :: rest) =>
      rw [decayCalls, hloop] at h
      dsimp only at h
      split_ifs at h with hdecay
      · obtain hfirst | hrest := List.mem_cons.mp h
        · obtain ⟨rfl, rfl⟩ := Prod.mk.inj hfirst
          exact (isRemoved_modifyItem fun it => decreaseDuration_parent it _).trans
            (not_isRemoved_of_canDecay (Bool.and_eq_true_iff.mp hdecay).1)
        · split at hrest
          · exact not_isRemoved_startDecayCalls hrest
          · cases hrest
      · cases h
    | some [] | none =>
      rw [decayCalls, hloop] at h
      cases h
  | _ => cases h

end References

/-! ## The entries of a removed item -/

/-- The runs of `checkDecay` that end until the bucket has been gone through. The bucket of the
current run has been emptied, so that what is in it waits for the next time. -/
def wait (s : DecayState) (b : Nat) : Nat :=
  if s.loop.isSome ∧ b = s.bucket then EVENT_DECAY_BUCKETS + 1
  else (b + EVENT_DECAY_BUCKETS - s.bucket) % EVENT_DECAY_BUCKETS + 1

/-- The entries of the item are gone after so many runs of `checkDecay`. -/
structure GoneWithin (s : DecayState) (r : ItemRef) (n : Nat) : Prop where
  toDecayItems : r ∈ s.world.toDecayItems → EVENT_DECAY_BUCKETS + 1 ≤ n
  loop : r ∈ s.loop.getD [] → 1 ≤ n
  decayItems : ∀ b < EVENT_DECAY_BUCKETS, r ∈ s.world.decayItems b → s.wait b ≤ n

section Gone

variable {env fuel s} {s' : DecayState} {w w' : World} {r item : ItemRef} {op : DecayOp}
  {p : ItemRef → Prop} {n b : Nat}

theorem wait_le : s.wait b ≤ EVENT_DECAY_BUCKETS + 1 := by
  unfold wait
  split_ifs
  · exact le_rfl
  · exact Nat.succ_le_succ (Nat.le_of_lt (Nat.mod_lt _ (by decide)))

theorem wait_pos : 0 < s.wait b := by
  unfold wait
  split_ifs <;> exact Nat.succ_pos _

theorem goneWithin_start (s : DecayState) (r : ItemRef) :
    GoneWithin s r (EVENT_DECAY_BUCKETS + 1) :=
  ⟨fun _ => le_rfl, fun _ => by decide, fun _ _ _ => wait_le⟩

theorem entries_of_goneWithin (h : GoneWithin s r 0) : s.entries r = 0 := by
  have htoDecay : s.world.toDecayItems.count r = 0 :=
    List.count_eq_zero.mpr fun hr => absurd (h.toDecayItems hr) (by decide)
  have hloop : (s.loop.getD []).count r = 0 :=
    List.count_eq_zero.mpr fun hr => absurd (h.loop hr) (by decide)
  have hbuckets : bucketCount s.world r = 0 := bucketCount_eq_zero.mpr fun b hlt hr => by
    have hwait := h.decayItems b hlt hr
    unfold wait at hwait
    split_ifs at hwait <;> omega
  rw [entries_eq, htoDecay, hbuckets, hloop]

/-- No entry of the item is new, and the same bucket is next. -/
theorem GoneWithin.of_mem (h : GoneWithin s r n) (hlast : s'.world.lastBucket = s.world.lastBucket)
    (hactive : s'.loop.isSome = s.loop.isSome)
    (htoDecay : r ∈ s'.world.toDecayItems → r ∈ s.world.toDecayItems)
    (hloop : r ∈ s'.loop.getD [] → r ∈ s.loop.getD [])
    (hbuckets : ∀ b, r ∈ s'.world.decayItems b → r ∈ s.world.decayItems b) :
    GoneWithin s' r n := by
  refine ⟨fun hr => h.toDecayItems (htoDecay hr), fun hr => h.loop (hloop hr), fun b hb hr => ?_⟩
  have hwait : s'.wait b = s.wait b := by rw [wait, wait, bucket, bucket, hlast, hactive]
  exact hwait ▸ h.decayItems b hb (hbuckets b hr)

/-- The item is neither the one that is registered nor a new one. -/
theorem GoneWithin.become (h : GoneWithin s r n) (hw : Registers p s.world w') (hp : ¬ p r)
    (hr : r < s.world.next) : GoneWithin (s.become w') r n :=
  h.of_mem hw.lastBucket rfl (hw.mem_toDecayItems hp hr) id fun _ hmem => hw.decayItems ▸ hmem

theorem mem_pushBucket {bucket : Nat} (hne : r ≠ item)
    (h : r ∈ (pushBucket w bucket item).decayItems b) : r ∈ w.decayItems b := by
  by_cases hb : b = bucket
  · subst hb
    simpa [pushBucket, setBucket, hne] using h
  · simpa [pushBucket, setBucket, Function.update_of_ne hb] using h

/-- A removed item is only released. -/
theorem checkDecayItem_removed (env : Env) (fuel bucket : Nat) (h : w.isRemoved item = true) :
    Quiet w (checkDecayItem env fuel bucket w item) := by
  unfold checkDecayItem
  rw [if_pos (by rw [canDecay_of_isRemoved h]; rfl)]
  exact (quiet_modifyItem w item _).trans (quiet_releaseItem _ item)

theorem GoneWithin.visitItem {rest : List ItemRef} (h : GoneWithin s r n) (hs : Inv s)
    (hloop : s.loop = some (item :: rest)) (hr : r < s.world.next)
    (hremoved : s.world.isRemoved r = true) : GoneWithin (s.visitItem env fuel item rest) r n := by
  have hactive : (some rest).isSome = s.loop.isSome := by
    rw [hloop]
    rfl
  have hrest (hmem : r ∈ rest) : r ∈ s.loop.getD [] := by
    rw [hloop]
    exact List.mem_cons_of_mem item hmem
  obtain rfl | hne := eq_or_ne r item
  · have hquiet := checkDecayItem_removed env fuel s.bucket hremoved
    have hw := Registers.of_quiet (p := fun _ => False) hquiet
    exact h.of_mem hw.lastBucket hactive (hw.mem_toDecayItems id hr) hrest
      fun _ hmem => hw.decayItems ▸ hmem
  · obtain ⟨b, w₁, hb, hquiet, heq⟩ | ⟨w₁, hw, heq⟩ :=
      visitItem_cases env fuel rest (hs.lt_of_loop hloop)
    · have hw := Registers.of_quiet (p := fun _ => False) hquiet
      rw [heq]
      exact h.of_mem hw.lastBucket hactive (hw.mem_toDecayItems id hr) hrest
        fun _ hmem => hw.decayItems ▸ mem_pushBucket hne hmem
    · rw [heq]
      exact h.of_mem hw.lastBucket hactive (hw.mem_toDecayItems hne hr) hrest
        fun _ hmem => hw.decayItems ▸ hmem

theorem mem_foldl_pushBucket {l : List ItemRef}
    (h : r ∈ (l.foldl (fun w item => pushBucket w (cleanupBucket w item) item) w).decayItems b) :
    r ∈ w.decayItems b ∨ r ∈ l := by
  induction l generalizing w with
  | nil => exact .inl h
  | cons item l ih =>
    obtain hmem | hmem := ih h
    · obtain rfl | hne := eq_or_ne r item
      · exact .inr List.mem_cons_self
      · exact .inl (mem_pushBucket hne hmem)
    · exact .inr (List.mem_cons_of_mem item hmem)

theorem mem_cleanup (h : r ∈ (cleanup w).decayItems b) :
    r ∈ w.decayItems b ∨ r ∈ w.toDecayItems := by
  rw [cleanup, foldl_decrementReferenceCounter] at h
  exact @mem_foldl_pushBucket { w with
    referenceCounter := fun r => w.referenceCounter r - w.toReleaseItems.count r
    toReleaseItems := [] } r b w.toDecayItems h

/-- An entry that was new waits for a whole round at most. -/
theorem GoneWithin.clean (h : GoneWithin s r n) (hs : Inv s) :
    GoneWithin (s.clean s.world) r n := by
  obtain ⟨-, hlast, htoDecay, -⟩ := emptied_cleanup hs.lastBucket
  have hwait (b : Nat) : (s.clean s.world).wait b = s.wait b := by
    rw [wait, wait, bucket, bucket, show (s.clean s.world).world.lastBucket = s.world.lastBucket
      from hlast]
    rfl
  refine ⟨fun hmem => ?_, h.loop, fun b hb hmem => ?_⟩
  · rw [show (s.clean s.world).world.toDecayItems = [] from htoDecay] at hmem
    cases hmem
  · obtain hold | hnew := mem_cleanup hmem
    · exact hwait b ▸ h.decayItems b hb hold
    · exact wait_le.trans (h.toDecayItems hnew)

theorem GoneWithin.begin (h : GoneWithin s r n)
    (hs' : s' = { s with
      world := setBucket s.world s.bucket []
      loop := some (s.world.decayItems s.bucket) }) : GoneWithin s' r n := by
  have hbucket : s.bucket < EVENT_DECAY_BUCKETS := Nat.mod_lt _ (by decide)
  subst hs'
  refine ⟨h.toDecayItems, fun hmem => ?_, fun b hb hmem => ?_⟩
  · have hwait := h.decayItems s.bucket hbucket hmem
    exact le_trans wait_pos hwait
  · have hne : b ≠ s.bucket := by
      rintro rfl
      simp [setBucket] at hmem
    have hold := h.decayItems b hb (by simpa [setBucket, Function.update_of_ne hne] using hmem)
    rw [wait, if_neg fun hactive => hne hactive.2] at hold ⊢
    exact hold

/-- The end of a run brings every bucket one run nearer. -/
theorem GoneWithin.end (h : GoneWithin s r n) (hloop : s.loop = some [])
    (hs' : s' = { s.clean { s.world with lastBucket := s.bucket } with loop := none }) :
    GoneWithin s' r (n - 1) := by
  have hbucket : s.bucket < EVENT_DECAY_BUCKETS := Nat.mod_lt _ (by decide)
  obtain ⟨-, hlast, htoDecay, -⟩ :=
    @emptied_cleanup { s.world with lastBucket := s.bucket } hbucket
  have hworld : s'.world = cleanup { s.world with lastBucket := s.bucket } := by rw [hs']; rfl
  have hloop' : s'.loop = none := by rw [hs']
  refine ⟨fun hmem => ?_, fun hmem => ?_, fun b hb hmem => ?_⟩
  · rw [hworld, htoDecay] at hmem
    cases hmem
  · rw [hloop'] at hmem
    cases hmem
  · have hnext : s'.bucket = (s.bucket + 1) % EVENT_DECAY_BUCKETS := by
      rw [bucket, hworld, hlast]
    rw [hworld] at hmem
    rw [wait, hloop', if_neg fun hactive => nomatch hactive.1, hnext]
    obtain hold | hnew := mem_cleanup hmem
    · have hle := h.decayItems b hb hold
      rw [wait, hloop] at hle
      simp only [EVENT_DECAY_BUCKETS, Option.isSome_some, true_and] at hbucket hb hle hnext ⊢
      split_ifs at hle <;> omega
    · have hle := h.toDecayItems hnew
      simp only [EVENT_DECAY_BUCKETS] at hle ⊢
      omega

end Gone

/-! ## The run lemma -/

section Run

variable {env : Env} {fuel : Nat} {s s' : DecayState} {r : ItemRef} {op : DecayOp} {n : Nat}

/-- Nothing is registered for a removed item unless an operation would put it back. -/
theorem apply_of_enters (hremoved : s.world.isRemoved r = true) (hputs : ¬ op.puts r)
    (henters : op.enters r) (hop : s.apply env fuel op = some s') : s' = s.become s.world := by
  cases op with
  | startDecay item =>
    obtain rfl : r = item := henters
    obtain ⟨-, hop⟩ := Option.ite_none_right_eq_some.mp hop
    have hsame : startDecay env fuel s.world (some r) = s.world := by
      cases fuel with
      | zero => rfl
      | succ fuel =>
        rw [startDecay, if_pos]
        rw [canDecay_of_isRemoved hremoved]
        rfl
    rw [hsame] at hop
    exact (Option.some.inj hop).symm
  | internalAddItem toCylinder item index flags test => exact absurd henters.symm hputs
  | internalMoveItem mv => exact absurd henters.symm hputs
  | _ => cases henters

theorem apply_goneWithin (h : GoneWithin s r n) (hs : Inv s) (hr : r < s.world.next)
    (hremoved : s.world.isRemoved r = true) (hputs : ¬ op.puts r)
    (hop : s.apply env fuel op = some s') : GoneWithin s' r (n - op.checks) := by
  obtain ⟨hchecks, hstep⟩ | ⟨hchecks, hloop, hs'⟩ := apply_cases hop
  · rw [hchecks]
    by_cases henters : op.enters r
    · rw [apply_of_enters hremoved hputs henters hop]
      exact h.become (.of_quiet (p := fun _ => False) (.refl s.world)) id hr
    obtain ⟨w', hw, rfl⟩ | rfl | ⟨-, hs'⟩ | ⟨item, rest, hloop, rfl⟩ := hstep
    · exact h.become hw henters hr
    · exact h.clean hs
    · exact h.begin hs'
    · exact h.visitItem hs hloop hr hremoved
  · rw [hchecks]
    exact h.end hloop hs'

theorem next_le_apply (h : Inv s) (hop : s.apply env fuel op = some s') :
    s.world.next ≤ s'.world.next := by
  have hbucket : s.bucket < EVENT_DECAY_BUCKETS := Nat.mod_lt _ (by decide)
  obtain ⟨-, ⟨w', hw, rfl⟩ | rfl | ⟨hloop, rfl⟩ | ⟨item, rest, hloop, rfl⟩⟩ | ⟨-, hloop, rfl⟩ :=
    apply_cases hop
  · exact hw.next_le
  · exact (emptied_cleanup h.lastBucket).1.ge
  · exact le_rfl
  · obtain ⟨b, w₁, hb, hquiet, heq⟩ | ⟨w₁, hw, heq⟩ :=
      visitItem_cases env fuel rest (h.lt_of_loop hloop)
    · rw [heq]
      exact hquiet.next.ge
    · rw [heq]
      exact hw.next_le
  · exact (@emptied_cleanup { s.world with lastBucket := s.bucket } hbucket).1.ge

theorem goneWithin_of_gone (h : Gone env fuel r s n s') (hs : Inv s) (hr : r < s.world.next) :
    Inv s' ∧ r < s'.world.next ∧ GoneWithin s' r (EVENT_DECAY_BUCKETS + 1 - n) := by
  induction h with
  | refl => exact ⟨hs, hr, goneWithin_start _ r⟩
  | step _ op hremoved hputs hop ih =>
    obtain ⟨hs', hr', hgone⟩ := ih
    refine ⟨apply_inv hs' hop, hr'.trans_le (next_le_apply hs' hop), ?_⟩
    rw [← Nat.sub_sub]
    exact apply_goneWithin hgone hs' hr' hremoved hputs hop

end Run

/-! ## A burning torch -/

def torch : ItemType :=
  { ItemType.default with id := 2051, weight := 500, decayTo := 0, decayTime := 600,
                          pickupable := true, moveable := true }

def torchEnv : Env := Env.quiet (Items.ofEntries [torch])

def torchPosition : Position := ⟨100, 100, 7⟩

/-- The torch lies on a tile, with ten seconds left. -/
def torchState : DecayState :=
  let item : Item :=
    { id := torch.id, count := 1, attributes := none, cls := .item,
      parent := some (.tile torchPosition) }
  let w := (World.blank.alloc (item.setIntAttr .duration 10000)).setTile torchPosition
    { Tile.empty with downItems := [0] }
  { world := w, others := w.referenceCounter }

def litTorch : DecayState :=
  torchState.become (startDecay torchEnv 1 torchState.world (some 0))

def removedTorch : DecayState :=
  litTorch.become (internalRemoveItem torchEnv litTorch.world 0 none false 0).2

end DecayState

end Eloth
