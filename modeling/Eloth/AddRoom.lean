import Eloth.MoveRoom
import Eloth.Sample

/-!
# Full containers

When a call of `internalMoveItem` or `internalAddItem` leaves a container with more children than
it has room for. `internalAddItem` asks the first cylinder how much fits, and the size of the
container that it ends up in is checked for `INDEX_WHEREEVER` only.
-/

namespace Eloth.Game

/-- The arguments of a call of `internalAddItem`, or of a recursive one. -/
structure AddCall where
  world : World
  item : ItemRef
  index : Int
  flags : Nat

namespace AddCall

section Definitions

variable (env : Env) (toCylinder : Cylinder) (a : AddCall)

def count : Nat := (a.world.item a.item).getItemCount

def dest : Destination :=
  Cylinder.queryDestination env a.world toCylinder a.index a.item none a.flags

def maxQueryCount : ReturnValue × Nat :=
  Cylinder.queryMaxCount env a.world toCylinder INDEX_WHEREEVER a.item a.count
    (a.dest env toCylinder).flags

def Passes : Prop :=
  Cylinder.queryAdd env a.world (a.dest env toCylinder).cylinder (a.dest env toCylinder).index
      a.item a.count (a.dest env toCylinder).flags none = .noError ∧
    (a.maxQueryCount env toCylinder).1 = .noError

/-- The stack at the destination that the item goes to. -/
def stack : Option ItemRef :=
  (a.dest env toCylinder).destItem.filter fun t =>
    (a.world.item a.item).isStackable env.items &&
      (a.world.item a.item).equals (a.world.item t)

def taken (t : ItemRef) : Nat :=
  min ((100 + 2 ^ 32 - (a.world.item t).getItemCount) % 2 ^ 32)
    (min a.count (a.maxQueryCount env toCylinder).2)

/-- The units that the stack does not take. -/
def rest (t : ItemRef) : Nat :=
  min a.count (a.maxQueryCount env toCylinder).2 - a.taken env toCylinder t

def merged (t : ItemRef) : World :=
  Cylinder.updateThing env a.world (a.dest env toCylinder).cylinder t (a.world.item t).id
    ((a.world.item t).getItemCount + a.taken env toCylinder t)

/-- The count of the item once the stack has been updated. -/
def countAfter (t : ItemRef) : Nat := ((a.merged env toCylinder t).item a.item).getItemCount

/-- The item goes into the destination as it is: no stack there, or a stack that takes nothing. -/
def PlacesWhole : Prop :=
  a.stack env toCylinder = none ∨ ∃ t, a.stack env toCylinder = some t ∧
    0 < a.rest env toCylinder t ∧ a.countAfter env toCylinder t = a.rest env toCylinder t

/-- The recursive call with the units that are left, if one is made. -/
def remainder (t : ItemRef) : Option AddCall :=
  ((a.merged env toCylinder t).cloneItem env a.item).map fun (copy, w) =>
    ⟨w.modifyItem copy fun it => it.setItemCount (a.rest env toCylinder t), copy, INDEX_WHEREEVER,
      (a.dest env toCylinder).flags⟩

/-- The call makes the other one, by way of recursive calls. -/
inductive Makes (env : Env) (toCylinder : Cylinder) : AddCall → AddCall → Prop
  | self (a : AddCall) : Makes env toCylinder a a
  | remainder {a b b' : AddCall} {t : ItemRef} (hpasses : a.Passes env toCylinder)
      (hstack : a.stack env toCylinder = some t) (hpos : 0 < a.rest env toCylinder t)
      (hne : a.countAfter env toCylinder t ≠ a.rest env toCylinder t)
      (hrest : a.remainder env toCylinder t = some b)
      (h : Makes env toCylinder b b') : Makes env toCylinder a b'

/-- The item becomes a child of the container. -/
def Enters (r : ItemRef) : Prop :=
  a.Passes env toCylinder ∧ a.PlacesWhole env toCylinder ∧
    (a.dest env toCylinder).cylinder = .container r ∧
    (a.dest env toCylinder).index < (a.world.container r).capacity

end Definitions

variable {env : Env} {toCylinder : Cylinder} {a b : AddCall} {r : ItemRef} {n capacity : Nat}

theorem room_addWhole {w : World} {d : Destination} {item : ItemRef}
    (h : w.room r = some (n, capacity)) : (addWhole env w d item).room r =
      some (if d.cylinder = .container r ∧ d.index < capacity then n + 1 else n, capacity) := by
  rw [addWhole, room_of_boxes box_notifyAdded, room_addThing h]

theorem room_remainder {t : ItemRef} (hr : r < a.world.next)
    (hroom : a.world.room r = some (n, capacity)) (h : a.remainder env toCylinder t = some b) :
    r < b.world.next ∧ b.world.room r = some (n, capacity) := by
  obtain ⟨⟨copy, w⟩, hclone, rfl⟩ := Option.map_eq_some_iff.mp h
  have hmerged : (a.merged env toCylinder t).boxes = a.world.boxes := box_updateThing
  have hnext : r < (a.merged env toCylinder t).next := by
    rw [next_of_boxes hmerged]
    exact hr
  refine ⟨?_, ?_⟩
  · change r < w.next
    rw [(World.cloneItem_spec hclone).2.1]
    exact hnext.trans (Nat.lt_succ_self _)
  · change (w.modifyItem copy fun it => it.setItemCount _).room r = _
    rw [room_of_boxes (box_modifyItem w copy fun it => it.setItemCount_cls _),
      room_cloneItem hclone hnext, room_of_boxes hmerged, hroom]

/-- What `place` does, in the words of the call. -/
theorem place_cases {again : World → ItemRef → Option Added} {added : Added}
    (h : place env again a.world (a.dest env toCylinder) a.item
      (a.maxQueryCount env toCylinder).2 = some added) :
    (a.stack env toCylinder = none ∧
      added.world = addWhole env a.world (a.dest env toCylinder) a.item) ∨
    ∃ t, a.stack env toCylinder = some t ∧
      ((a.rest env toCylinder t = 0 ∧ added.world =
        notifyAdded env (a.dest env toCylinder).cylinder
          ((a.merged env toCylinder t).releaseItem a.item) (some t)) ∨
      (0 < a.rest env toCylinder t ∧ a.countAfter env toCylinder t = a.rest env toCylinder t ∧
        added.world = addWhole env (a.merged env toCylinder t) (a.dest env toCylinder) a.item) ∨
      (0 < a.rest env toCylinder t ∧ a.countAfter env toCylinder t ≠ a.rest env toCylinder t ∧
        ∃ b added', a.remainder env toCylinder t = some b ∧ again b.world b.item = some added' ∧
          (added.world = added'.world ∨ added.world = added'.world.releaseItem b.item))) := by
  unfold place at h
  dsimp only at h
  cases hstack : a.stack env toCylinder with
  | none =>
    unfold stack at hstack
    rw [hstack] at h
    exact .inl ⟨rfl, by rw [← Option.some.inj h]⟩
  | some t =>
    refine .inr ⟨t, rfl, ?_⟩
    unfold stack at hstack
    rw [hstack] at h
    change addRemainder env again (a.merged env toCylinder t) (a.dest env toCylinder) a.item t
      (a.rest env toCylinder t) = some added at h
    unfold addRemainder at h
    split_ifs at h with hpos hne
    · cases hclone : (a.merged env toCylinder t).cloneItem env a.item with
      | none =>
        rw [hclone] at h
        cases h
      | some made =>
        obtain ⟨copy, w⟩ := made
        rw [hclone] at h
        obtain ⟨added', hagain, hend⟩ := Option.map_eq_some_iff.mp h
        refine .inr (.inr ⟨hpos, ?_, ⟨_, copy, INDEX_WHEREEVER, (a.dest env toCylinder).flags⟩,
          added', ?_, hagain, ?_⟩)
        · exact hne
        · unfold remainder
          rw [hclone]
          rfl
        · split_ifs at hend
          · exact .inr (by rw [← hend])
          · exact .inl (by rw [← hend])
    · exact .inr (.inl ⟨hpos, not_not.mp hne, by rw [← Option.some.inj h]⟩)
    · exact .inl ⟨by omega, by rw [← Option.some.inj h]⟩

theorem makes_enters_iff (hno : ∀ t, a.Passes env toCylinder → a.stack env toCylinder = some t →
    0 < a.rest env toCylinder t → a.countAfter env toCylinder t = a.rest env toCylinder t) :
    (∃ b, Makes env toCylinder a b ∧ b.Enters env toCylinder r) ↔ a.Enters env toCylinder r := by
  constructor
  · rintro ⟨b, hmakes, henters⟩
    cases hmakes with
    | self => exact henters
    | remainder hpasses hstack hpos hne hrest hmakes => exact absurd (hno _ hpasses hstack hpos) hne
  · exact fun h => ⟨a, .self a, h⟩

/-- The container has one child more if the call, or one that it makes, lets the item in, and else
as many as before. -/
theorem add_room {fuel : Nat} {added : Added} (hr : r < a.world.next)
    (hroom : a.world.room r = some (n, capacity))
    (h : internalAddItemAux env toCylinder a.flags false fuel a.world a.item a.index =
      some added) : ∃ n', added.world.room r = some (n', capacity) ∧
      ((∃ b, Makes env toCylinder a b ∧ b.Enters env toCylinder r) → n' = n + 1) ∧
      ((¬ ∃ b, Makes env toCylinder a b ∧ b.Enters env toCylinder r) → n' = n) := by
  induction fuel generalizing a added with
  | zero => cases h
  | succ fuel ih =>
    obtain ⟨-, -, hcapacity⟩ := room_eq_some_iff.mp hroom
    have hrefused : ¬ a.Passes env toCylinder → added.world = a.world → ∃ n',
        added.world.room r = some (n', capacity) ∧
        ((∃ b, Makes env toCylinder a b ∧ b.Enters env toCylinder r) → n' = n + 1) ∧
        ((¬ ∃ b, Makes env toCylinder a b ∧ b.Enters env toCylinder r) → n' = n) := by
      intro hno heq
      rw [makes_enters_iff fun _ hpasses => absurd hpasses hno, heq]
      exact ⟨n, hroom, fun henters => absurd henters.1 hno, fun _ => rfl⟩
    have hwhole : ∀ w, a.Passes env toCylinder → a.PlacesWhole env toCylinder →
        (∀ t, a.stack env toCylinder = some t → 0 < a.rest env toCylinder t →
          a.countAfter env toCylinder t = a.rest env toCylinder t) →
        w.room r = some (n, capacity) →
        added.world.boxes = (addWhole env w (a.dest env toCylinder) a.item).boxes → ∃ n',
        added.world.room r = some (n', capacity) ∧
        ((∃ b, Makes env toCylinder a b ∧ b.Enters env toCylinder r) → n' = n + 1) ∧
        ((¬ ∃ b, Makes env toCylinder a b ∧ b.Enters env toCylinder r) → n' = n) := by
      intro w hpasses hplaces hno hw heq
      rw [makes_enters_iff fun t _ => hno t, room_of_boxes heq, room_addWhole hw]
      refine ⟨_, rfl, fun henters => ?_, fun hnot => ?_⟩
      · exact if_pos ⟨henters.2.2.1, hcapacity ▸ henters.2.2.2⟩
      · exact if_neg fun hdest => hnot ⟨hpasses, hplaces, hdest.1, hcapacity.symm ▸ hdest.2⟩
    unfold internalAddItemAux at h
    dsimp only at h
    split_ifs at h with hadd hmax htest
    · exact hrefused (fun hpasses => hadd hpasses.1) (by rw [← Option.some.inj h])
    · exact hrefused (fun hpasses => hmax hpasses.2) (by rw [← Option.some.inj h])
    · cases htest
    · have hpasses : a.Passes env toCylinder := ⟨not_not.mp hadd, not_not.mp hmax⟩
      obtain ⟨added₁, hplace, rfl⟩ := Option.map_eq_some_iff.mp h
      have hlast : (registerAdded added₁.world a.item).boxes = added₁.world.boxes :=
        box_registerAdded
      rcases place_cases hplace with ⟨hnone, heq⟩ | ⟨t, hstack, hrest⟩
      · exact hwhole a.world hpasses (.inl hnone)
          (fun t ht => by rw [hnone] at ht; cases ht) hroom (by rw [← heq]; exact hlast)
      have hmerged : (a.merged env toCylinder t).boxes = a.world.boxes := box_updateThing
      rcases hrest with ⟨hzero, heq⟩ | ⟨hpos, hall, heq⟩ | ⟨hpos, hne, b, added', hb, hagain, heq⟩
      · rw [makes_enters_iff fun x _ hx hpos => by
          obtain rfl := Option.some.inj (hstack.symm.trans hx); omega]
        refine ⟨n, ?_, fun henters => ?_, fun _ => rfl⟩
        · rw [room_of_boxes hlast, heq, room_of_boxes box_notifyAdded,
            room_of_boxes box_releaseItem, room_of_boxes hmerged]
          exact hroom
        · rcases henters.2.1 with hnone | ⟨x, hx, hpos, -⟩
          · rw [hstack] at hnone
            cases hnone
          · obtain rfl := Option.some.inj (hstack.symm.trans hx)
            omega
      · refine hwhole (a.merged env toCylinder t) hpasses (.inr ⟨t, hstack, hpos, hall⟩)
          (fun x hx _ => ?_) ((room_of_boxes hmerged r).trans hroom) (by rw [← heq]; exact hlast)
        obtain rfl := Option.some.inj (hstack.symm.trans hx)
        exact hall
      · obtain ⟨hr', hroom'⟩ := room_remainder hr hroom hb
        have hflags : b.flags = (a.dest env toCylinder).flags ∧ b.index = INDEX_WHEREEVER := by
          obtain ⟨_, -, rfl⟩ := Option.map_eq_some_iff.mp hb
          exact ⟨rfl, rfl⟩
        have hcall : internalAddItemAux env toCylinder b.flags false fuel b.world b.item b.index =
            some added' := by
          rw [hflags.1, hflags.2]
          exact hagain
        obtain ⟨n', hn', hyes, hno⟩ := ih hr' hroom' hcall
        have hboxes : added₁.world.boxes = added'.world.boxes := by
          rcases heq with heq | heq <;> rw [heq]
          rfl
        have hiff : (∃ x, Makes env toCylinder a x ∧ x.Enters env toCylinder r) ↔
            ∃ x, Makes env toCylinder b x ∧ x.Enters env toCylinder r := by
          constructor
          · rintro ⟨x, hmakes, henters⟩
            cases hmakes with
            | self =>
              rcases henters.2.1 with hnone | ⟨y, hy, -, hall⟩
              · rw [hstack] at hnone
                cases hnone
              · obtain rfl := Option.some.inj (hstack.symm.trans hy)
                exact absurd hall hne
            | remainder _ hy _ _ hrest hmakes =>
              obtain rfl := Option.some.inj (hstack.symm.trans hy)
              obtain rfl := Option.some.inj (hb.symm.trans hrest)
              exact ⟨x, hmakes, henters⟩
          · rintro ⟨x, hmakes, henters⟩
            exact ⟨x, .remainder hpasses hstack hpos hne hb hmakes, henters⟩
        rw [hiff]
        exact ⟨n', (room_of_boxes (hlast.trans hboxes) r).trans hn', hyes, hno⟩

theorem dest_flags (hcylinder : ∀ pos, toCylinder ≠ .tile pos) :
    (a.dest env toCylinder).flags = a.flags := by
  cases toCylinder with
  | container self => exact (settled_queryDestination env a.world self a.index a.item none a.flags
      fun _ => rfl).flags
  | player p => exact (queryDestination_player env a.world p a.index a.item none a.flags).1
  | tile pos => exact absurd rfl (hcylinder pos)

/-- The calls that a call makes have its flags, and a tile only leads to tiles. -/
theorem limit_of_makes (hlimit : hasBitSet FLAG_NOLIMIT a.flags = false)
    (h : Makes env toCylinder a b) (hdest : (b.dest env toCylinder).cylinder = .container r) :
    hasBitSet FLAG_NOLIMIT (b.dest env toCylinder).flags = false := by
  have hcylinder : ∀ pos, toCylinder ≠ .tile pos := by
    rintro pos rfl
    obtain ⟨pos', hpos⟩ := @queryDestination_tile b.world pos b.index b.flags
    have : (b.dest env (.tile pos)).cylinder = .tile pos' := hpos
    rw [this] at hdest
    cases hdest
  have hflags : b.flags = a.flags := by
    clear hdest hlimit
    induction h with
    | self => rfl
    | remainder _ _ _ _ hrest _ ih =>
      obtain ⟨_, -, rfl⟩ := Option.map_eq_some_iff.mp hrest
      exact ih.trans (dest_flags hcylinder)
  rw [dest_flags hcylinder, hflags]
  exact hlimit

/-- The ways in which a call puts one child too many into a full container: at an index, for which
its size is not checked, or for a caller that poses as a child container. -/
def Overfills (env : Env) (toCylinder : Cylinder) (a : AddCall) (r : ItemRef) : Prop :=
  (a.world.container r).capacity ≤ (a.world.container r).size ∧
  ∃ b, Makes env toCylinder a b ∧ b.Passes env toCylinder ∧ b.PlacesWhole env toCylinder ∧
    (b.dest env toCylinder).cylinder = .container r ∧
    (b.dest env toCylinder).index < (b.world.container r).capacity ∧
    ((b.dest env toCylinder).index ≠ INDEX_WHEREEVER ∨
      hasBitSet FLAG_CHILDISOWNER (b.dest env toCylinder).flags = true)

theorem room_of_makes (hr : r < a.world.next) (hroom : a.world.room r = some (n, capacity))
    (h : Makes env toCylinder a b) : b.world.room r = some (n, capacity) := by
  induction h with
  | self => exact hroom
  | remainder _ _ _ _ hrest _ ih =>
    obtain ⟨hr', hroom'⟩ := room_remainder hr hroom hrest
    exact ih hr' hroom'

theorem overfills_iff (hlimit : hasBitSet FLAG_NOLIMIT a.flags = false) (hr : r < a.world.next)
    (hroom : a.world.room r = some (n, capacity)) :
    a.Overfills env toCylinder r ↔
      capacity ≤ n ∧ ∃ b, Makes env toCylinder a b ∧ b.Enters env toCylinder r := by
  obtain ⟨-, hsize, hcapacity⟩ := room_eq_some_iff.mp hroom
  unfold Overfills
  rw [hsize, hcapacity]
  refine and_congr_right fun hfull => exists_congr fun b => and_congr_right fun hmakes => ?_
  constructor
  · rintro ⟨hpasses, hplaces, hdest, hindex, -⟩
    exact ⟨hpasses, hplaces, hdest, hindex⟩
  · rintro ⟨hpasses, hplaces, hdest, hindex⟩
    refine ⟨hpasses, hplaces, hdest, hindex, ?_⟩
    obtain ⟨-, hsize', hcapacity'⟩ := room_eq_some_iff.mp (room_of_makes hr hroom hmakes)
    have hadd := hpasses.1
    rw [hdest] at hadd
    rcases queryAdd_wherever hadd (limit_of_makes hlimit hmakes hdest) with hchild | hne | hlt
    · exact .inr hchild
    · exact .inl hne
    · omega

theorem add_room_iff {test : Bool} {added : Added}
    (hlimit : hasBitSet FLAG_NOLIMIT a.flags = false) (hr : r < a.world.next)
    (hroom : a.world.room r = some (n, capacity)) (hle : n ≤ capacity)
    (h : internalAddItem env a.world toCylinder a.item a.index a.flags test = some added) :
    ∃ n', added.world.room r = some (n', capacity) ∧
      (n' ≤ capacity ↔ ¬(test = false ∧ a.Overfills env toCylinder r)) := by
  rw [overfills_iff hlimit hr hroom]
  cases test with
  | true =>
    have heq : added.world = a.world := by
      unfold internalAddItem internalAddItemAux at h
      dsimp only at h
      split_ifs at h with hadd hmax htest
      · rw [← Option.some.inj h]
      · rw [← Option.some.inj h]
      · rw [← Option.some.inj h]
      · exact absurd rfl htest
    rw [heq]
    exact ⟨n, hroom, iff_of_true hle fun hall => nomatch hall.1⟩
  | false =>
    obtain ⟨n', hroom', hyes, hno⟩ := add_room hr hroom h
    refine ⟨n', hroom', ?_⟩
    by_cases henters : ∃ b, Makes env toCylinder a b ∧ b.Enters env toCylinder r
    · rw [hyes henters]
      simp only [henters, and_true, true_and]
      omega
    · rw [hno henters]
      exact iff_of_true hle fun hall => henters hall.2.2

end AddCall

/-! ## Both calls -/

/-- A call that brings an item to a cylinder. -/
inductive ItemCall where
  | move (mv : Move)
  | add (toCylinder : Cylinder) (item : ItemRef) (index : Int) (flags : Nat) (test : Bool)

namespace ItemCall

def flags : ItemCall → Nat
  | .move mv => mv.flags
  | .add _ _ _ flags _ => flags

def run (env : Env) (w : World) : ItemCall → Option World
  | .move mv => (internalMoveItem env w mv).map (·.2)
  | .add toCylinder item index flags test =>
    (internalAddItem env w toCylinder item index flags test).map (·.world)

def Overfills (env : Env) (w : World) (r : ItemRef) : ItemCall → Prop
  | .move mv => mv.Overfills env w r
  | .add toCylinder item index flags test =>
    test = false ∧ AddCall.Overfills env toCylinder ⟨w, item, index, flags⟩ r

/-- A call without `FLAG_NOLIMIT` leaves a plain container that has room for its children so, exactly
when it does not go one of the ways around the check of the size. -/
theorem size_le_capacity_iff {env : Env} {w w' : World} {r : ItemRef} {call : ItemCall}
    (hlimit : hasBitSet FLAG_NOLIMIT call.flags = false) (hr : r < w.next)
    (hcontainer : w.isContainer r = true) (hplain : (w.container r).kind = .container)
    (hle : (w.container r).size ≤ (w.container r).capacity) (h : call.run env w = some w') :
    (w'.container r).size ≤ (w'.container r).capacity ↔ ¬ call.Overfills env w r := by
  have hroom : w.room r = some ((w.container r).size, (w.container r).capacity) :=
    room_eq_some_iff.mpr ⟨hcontainer, rfl, rfl⟩
  have hafter : ∃ n', w'.room r = some (n', (w.container r).capacity) ∧
      (n' ≤ (w.container r).capacity ↔ ¬ call.Overfills env w r) := by
    cases call with
    | move mv =>
      obtain ⟨⟨ret, w₁⟩, hmove, rfl⟩ := Option.map_eq_some_iff.mp h
      exact move_room hlimit hr hplain hroom hle hmove
    | add toCylinder item index flags test =>
      obtain ⟨added, hadd, rfl⟩ := Option.map_eq_some_iff.mp h
      exact @AddCall.add_room_iff env toCylinder ⟨w, item, index, flags⟩ r _ _ test added hlimit hr
        hroom hle hadd
  obtain ⟨n', hroom', hiff⟩ := hafter
  obtain ⟨-, hsize, hcapacity⟩ := room_eq_some_iff.mp hroom'
  rw [hsize, hcapacity]
  exact hiff

/-! A quiver with room for two, and ammunition that changes places with that in the slot. -/

def bolt : ItemType := { goldCoin with id := 2543, worth := 0, slotPosition := SLOTP_AMMO }
def arrow : ItemType := { bolt with id := 2544 }
def quiver : ItemType := { bag with id := 5943, maxItems := 2 }

def quiverEnv : Env := Env.quiet (Items.ofEntries [bolt, arrow, quiver])

def quiverItem (type : ItemType) (count : Nat) : Item :=
  (Item.CreateItem quiverEnv.items type.id count).getD (World.blank.item 0)

/-- The player has ten arrows at hand, and bolts and half a stack of arrows in the quiver. -/
def fullQuiver : World :=
  let w := World.ofItems
    [quiverItem quiver 1, quiverItem bolt 20, quiverItem arrow 50, quiverItem arrow 10]
  let w := Player.addThing (Player.addThing w 0 CONST_SLOT_BACKPACK 0) 0 CONST_SLOT_AMMO 3
  Container.addThing quiverEnv (Container.addThing quiverEnv w 0 0 2) 0 0 1

def swapAmmo (count : Nat) : ItemCall :=
  .move { fromCylinder := .container 0, toCylinder := .player 0, index := CONST_SLOT_AMMO,
          item := 1, count := count, flags := 0, actor := none, withEvents := false,
          tradeItem := none }

/-- When all bolts go, the arrows have their place. -/
theorem not_overfills_swapAmmo : ¬ (swapAmmo 20).Overfills quiverEnv fullQuiver 0 := by
  have hrun : ((swapAmmo 20).run quiverEnv fullQuiver).map (fun w => (w.container 0).size) =
      some 2 ∧ ((swapAmmo 20).run quiverEnv fullQuiver).map (fun w => (w.container 0).capacity) =
      some 2 := by decide
  obtain ⟨w', h, hsize⟩ := Option.map_eq_some_iff.mp hrun.1
  rw [h] at hrun
  have hcapacity : (w'.container 0).capacity = 2 := Option.some.inj hrun.2
  exact (size_le_capacity_iff (by decide) (by decide) (by decide) (by decide) (by decide) h).mp
    (by omega)

/-- When five of the bolts go, the arrows are the third child. -/
theorem exists_overfilled : ∃ w', (swapAmmo 5).run quiverEnv fullQuiver = some w' ∧
    hasBitSet FLAG_NOLIMIT (swapAmmo 5).flags = false ∧
    (fullQuiver.container 0).kind = .container ∧
    (fullQuiver.container 0).size ≤ (fullQuiver.container 0).capacity ∧
    (w'.container 0).capacity < (w'.container 0).size := by
  have hrun : ((swapAmmo 5).run quiverEnv fullQuiver).map (fun w => (w.container 0).size) =
      some 3 ∧ ((swapAmmo 5).run quiverEnv fullQuiver).map (fun w => (w.container 0).capacity) =
      some 2 := by decide
  obtain ⟨w', h, hsize⟩ := Option.map_eq_some_iff.mp hrun.1
  rw [h] at hrun
  have hcapacity : (w'.container 0).capacity = 2 := Option.some.inj hrun.2
  exact ⟨w', h, by decide, by decide, by decide, by omega⟩

end ItemCall

end Eloth.Game
