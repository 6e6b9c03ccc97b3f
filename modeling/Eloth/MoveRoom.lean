import Eloth.ContainerRoom

/-!
# Moves into full containers

When a call of `internalMoveItem` leaves a container with more children than it has room for. A
transfer adds a child only where no stack takes all units, and in a full container it finds such a
stack; an exchange is not checked in this way.
-/

namespace Eloth.Game

variable {env : Env} {w w' : World} {r item : ItemRef} {c : Cylinder} {n capacity : Nat}
  {mv : Move} {d : Destination} {toItem moved : Option ItemRef} {m : Nat}

theorem moveItem_spec {newCount : Nat} (h : moveItem env w item newCount = some (moved, w'))
    (hr : r < w.next) : w'.room r = w.room r ∧
      (moved.isSome = true ↔ ((w.item item).isStackable env.items = true → 0 < newCount)) := by
  unfold moveItem at h
  split_ifs at h with hstack hcount
  · obtain ⟨⟨copy, w₁⟩, hclone, hpair⟩ := Option.map_eq_some_iff.mp h
    obtain ⟨rfl, rfl⟩ := Prod.mk.inj hpair
    refine ⟨?_, by simp [hcount]⟩
    rw [room_of_boxes (box_modifyItem w₁ copy fun it => it.setItemCount_cls newCount),
      room_cloneItem hclone hr]
  · obtain ⟨rfl, rfl⟩ := Prod.mk.inj (Option.some.inj h)
    exact ⟨rfl, by simp [hstack, hcount]⟩
  · obtain ⟨rfl, rfl⟩ := Prod.mk.inj (Option.some.inj h)
    exact ⟨rfl, by simp [hstack]⟩

/-- The source of a move without the units that go. -/
def lifted (env : Env) (w : World) (mv : Move) (m : Nat) : World :=
  Cylinder.removeThing env w mv.fromCylinder mv.item m

/-- Whether the destination gets a new child: not if a stack there takes all units. -/
def NewChild (env : Env) (w : World) (mv : Move) (toItem : Option ItemRef) (m : Nat) : Prop :=
  (w.item mv.item).isStackable env.items = true →
    mergeCount (lifted env w mv m) mv.item toItem m < m

theorem id_mergeStack {merged : Option ItemRef} (x : ItemRef) :
    ((mergeStack env w c n merged).item x).id = (w.item x).id := by
  cases merged with
  | none => rfl
  | some t => exact id_updateThing x

theorem isStackable_lifted : ((lifted env w mv m).item mv.item).isStackable env.items =
    (w.item mv.item).isStackable env.items := by
  unfold Item.isStackable
  rw [lifted, (Recounted.removeThing m).id]

open scoped Classical in
theorem carry_room (hr : r < w.next) (hroom : w.room r = some (n, capacity))
    (hindex : Cylinder.getThingIndex env w mv.fromCylinder mv.item ≠ -1)
    (h : carry env w mv d toItem m = some (moved, w')) :
    w'.room r = some (
      (n - if mv.fromCylinder = .container r ∧ (w.item mv.item).LeavesWhole env m then 1 else 0) +
        if d.cylinder = .container r ∧ d.index < capacity ∧ NewChild env w mv toItem m
          then 1 else 0,
      capacity) := by
  unfold carry at h
  dsimp only at h
  obtain ⟨⟨moved', w₁⟩, hmove, hpair⟩ := Option.map_eq_some_iff.mp h
  obtain ⟨rfl, rfl⟩ := Prod.mk.inj hpair
  -- the source gives the units away and the stack at the destination takes some of them
  have hlifted : (lifted env w mv m).room r = some (
      n - (if mv.fromCylinder = .container r ∧ (w.item mv.item).LeavesWhole env m
        then 1 else 0), capacity) := by
    rw [lifted, room_removeThing hroom]
    simp only [hindex, ne_eq, not_false_eq_true, true_and]
    split_ifs <;> rfl
  have hnext : r < (lifted env w mv m).next := by
    rw [lifted, next_removeThing]
    exact hr
  rw [← next_of_boxes box_mergeStack] at hnext
  obtain ⟨hmoved, hsome⟩ := moveItem_spec hmove hnext
  replace hmoved := hmoved.trans ((room_of_boxes box_mergeStack r).trans hlifted)
  have hnew : moved'.isSome = true ↔ NewChild env w mv toItem m := by
    rw [hsome, Item.isStackable, id_mergeStack, ← Item.isStackable]
    have hstack := @isStackable_lifted env w mv m
    unfold lifted at hstack
    unfold NewChild lifted
    rw [hstack]
    refine ⟨fun hlt hs => ?_, fun hlt hs => ?_⟩
    · have := hlt hs
      rw [if_pos hs] at this
      omega
    · have := hlt hs
      rw [if_pos hs]
      omega
  rw [room_of_boxes box_notifyAdded, room_of_boxes box_notifyAdded,
    room_of_boxes box_notifyRemoved]
  rw [← room_of_boxes (@box_releaseRemoved env w₁ mv.item)] at hmoved
  cases moved' with
  | none =>
    have hno : ¬ NewChild env w mv toItem m := fun hchild => by simpa using hnew.mpr hchild
    rw [addMoved, hmoved]
    simp only [hno, and_false, if_false, Nat.add_zero]
  | some copy =>
    have hchild := hnew.mp rfl
    rw [addMoved, room_addThing hmoved]
    simp only [hchild, and_true]
    split_ifs <;> rfl

/-! ## The destination of a move -/

/-- A destination with a container: the flags do not lift the limit, and an index without an item
to stack with is the index of no item. -/
structure Resolved (w : World) (d : Destination) (dest : ItemRef) : Prop where
  limit : hasBitSet FLAG_NOLIMIT d.flags = false
  wherever : d.index = INDEX_WHEREEVER → d.destItem = none
  stands : d.index ≠ INDEX_WHEREEVER → ∀ x, Container.getItemByIndex w dest d.index = some x →
    d.destItem = some x

theorem limit_of_zero : hasBitSet FLAG_NOLIMIT 0 = false := by decide

theorem resolve_tile {fuel : Nat} {pos : Position} (hd : d.cylinder = .tile pos) :
    ∃ pos', (resolve env w item fuel d).cylinder = .tile pos' := by
  induction fuel generalizing d pos with
  | zero => exact ⟨pos, hd⟩
  | succ fuel ih =>
    have hsub := @queryDestination_tile w pos d.index d.flags
    unfold resolve
    dsimp only
    rw [hd]
    split_ifs
    · exact hsub
    · obtain ⟨pos', hpos⟩ := hsub
      exact ih hpos

theorem resolve_container {fuel : Nat} {self x : ItemRef} (hd : d.cylinder = .container self)
    (hlimit : hasBitSet FLAG_NOLIMIT d.flags = false)
    (hwherever : d.index = INDEX_WHEREEVER → d.destItem = none)
    (hfuel : fuel = 0 → d.index = INDEX_WHEREEVER)
    (hx : (resolve env w item fuel d).cylinder = .container x) :
    Resolved w (resolve env w item fuel d) x := by
  induction fuel generalizing d self with
  | zero => exact ⟨hlimit, hwherever, fun h => absurd (hfuel rfl) h⟩
  | succ fuel ih =>
    have hsub := settled_queryDestination env w self d.index item d.destItem d.flags hwherever
    unfold resolve at hx ⊢
    dsimp only at hx ⊢
    rw [hd] at hx ⊢
    change (if (Container.queryDestination env w self d.index item d.destItem d.flags).cylinder =
      .container self then _ else _ : Destination).cylinder = _ at hx
    change Resolved w (if (Container.queryDestination env w self d.index item d.destItem
      d.flags).cylinder = .container self then _ else _) x
    split_ifs at hx ⊢ with hsame
    · obtain rfl := Cylinder.container.inj (hsame.symm.trans hx)
      refine ⟨?_, hsub.wherever, hsub.stands hsame⟩
      change hasBitSet FLAG_NOLIMIT
        (Container.queryDestination env w self d.index item d.destItem d.flags).flags = false
      rw [hsub.flags]
      exact hlimit
    · obtain ⟨y, hy⟩ := hsub.cylinder
      have hindex := hsub.leads hsame
      exact ih hy limit_of_zero (fun _ => hsub.wherever hindex) (fun _ => hindex) hx

theorem destination_container {x : ItemRef} (hlimit : hasBitSet FLAG_NOLIMIT mv.flags = false)
    (hx : (destination env w mv).cylinder = .container x) :
    Resolved w (destination env w mv) x := by
  unfold destination at hx ⊢
  cases hto : mv.toCylinder with
  | container self =>
    rw [hto] at hx
    exact resolve_container rfl hlimit (fun _ => rfl) (fun h => absurd h (by decide)) hx
  | tile pos =>
    rw [hto] at hx
    obtain ⟨pos', hpos⟩ := resolve_tile (d := ⟨.tile pos, mv.index, none, mv.flags⟩) rfl
    rw [hpos] at hx
    cases hx
  | player p =>
    rw [hto] at hx
    unfold MAP_MAX_LAYERS at hx ⊢
    unfold resolve at hx ⊢
    dsimp only at hx ⊢
    split_ifs at hx ⊢ with hsame
    · rw [hx] at hsame
      cases hsame
    · obtain ⟨-, hplayer | ⟨⟨self, hself⟩, hwherever⟩⟩ :=
        queryDestination_player env w p mv.index mv.item none mv.flags
      · exact absurd hplayer hsame
      · exact resolve_container hself limit_of_zero hwherever (fun h => absurd h (by decide)) hx

/-! ## The checks -/

/-- The units that a move carries if nothing speaks against it. -/
def units (env : Env) (w : World) (mv : Move) (d : Destination) : Nat :=
  moveCount env w mv.item mv.count
    (Cylinder.queryMaxCount env w d.cylinder d.index mv.item mv.count d.flags).2

/-- The checks between the admission of the item and its removal from the source. -/
structure Carries (env : Env) (w : World) (mv : Move) (d : Destination) : Prop where
  room : ¬((Cylinder.queryMaxCount env w d.cylinder d.index mv.item mv.count d.flags).1 ≠ .noError ∧
    (Cylinder.queryMaxCount env w d.cylinder d.index mv.item mv.count d.flags).2 = 0)
  removable : Cylinder.queryRemove env w mv.fromCylinder mv.item (units env w mv d) d.flags
    mv.actor = .noError
  outside : insideTradeItem w mv.tradeItem d.cylinder = false

/-- The checks before an exchange of the item in the way. -/
structure Exchanges (env : Env) (w : World) (mv : Move) (d : Destination) (toItem : ItemRef) :
    Prop where
  asked : Cylinder.queryAdd env w d.cylinder d.index mv.item mv.count d.flags mv.actor =
    .needExchange
  found : d.destItem = some toItem
  accepted : Cylinder.queryAdd env w mv.fromCylinder
    (Cylinder.getThingIndex env w mv.fromCylinder mv.item) toItem (w.item toItem).getItemCount 0
    none = .noError
  allowed : eventAllows env w mv toItem d.cylinder mv.fromCylinder = true
  room : ¬((Cylinder.queryMaxCount env w mv.fromCylinder INDEX_WHEREEVER toItem
      (w.item toItem).getItemCount 0).1 ≠ .noError ∧
    (Cylinder.queryMaxCount env w mv.fromCylinder INDEX_WHEREEVER toItem
      (w.item toItem).getItemCount 0).2 = 0)
  removable : Cylinder.queryRemove env w d.cylinder toItem (w.item toItem).getItemCount d.flags
    mv.actor = .noError

theorem queryRemove_spec {count flags : Nat} {actor : Option PlayerId}
    (h : Cylinder.queryRemove env w c item count flags actor = .noError) :
    Cylinder.getThingIndex env w c item ≠ -1 ∧ count ≠ 0 := by
  cases c with
  | container self =>
    unfold Cylinder.queryRemove Container.queryRemove at h
    dsimp only at h
    split_ifs at h with hindex hcount
    exact ⟨hindex, fun h0 => hcount (.inl h0)⟩
  | player p =>
    unfold Cylinder.queryRemove Player.queryRemove at h
    dsimp only at h
    split_ifs at h with hindex hcount
    exact ⟨hindex, fun h0 => hcount (.inl h0)⟩
  | tile pos =>
    unfold Cylinder.queryRemove Tile.queryRemove at h
    dsimp only at h
    split_ifs at h with huninvited hindex hcount
    exact ⟨hindex, fun h0 => hcount (.inl h0)⟩

open scoped Classical in
theorem transfer_room {ret : ReturnValue} (hr : r < w.next) (hroom : w.room r = some (n, capacity))
    (h : transfer env w mv d toItem = some (ret, w')) :
    (¬ Carries env w mv d ∧ w' = w) ∨
    (Carries env w mv d ∧ w'.room r = some (
      (n - if mv.fromCylinder = .container r ∧
          (w.item mv.item).LeavesWhole env (units env w mv d) then 1 else 0) +
        if d.cylinder = .container r ∧ d.index < capacity ∧
          NewChild env w mv toItem (units env w mv d) then 1 else 0,
      capacity)) := by
  unfold transfer at h
  dsimp only at h
  split_ifs at h with hmax hremove hinside
  · exact .inl ⟨fun hc => hc.room hmax, (Prod.mk.inj (Option.some.inj h)).2.symm⟩
  · exact .inl ⟨fun hc => hremove hc.removable, (Prod.mk.inj (Option.some.inj h)).2.symm⟩
  · exact .inl ⟨fun hc => by simp [hc.outside] at hinside,
      (Prod.mk.inj (Option.some.inj h)).2.symm⟩
  · rw [not_not] at hremove
    obtain ⟨⟨moved, w₁⟩, hcarry, hend⟩ := Option.map_eq_some_iff.mp h
    have hroom₁ := carry_room hr hroom (queryRemove_spec hremove).1 hcarry
    refine .inr ⟨⟨hmax, hremove, by simpa using hinside⟩, ?_⟩
    have hlast : w'.boxes = w₁.boxes := by
      dsimp only at hend
      split_ifs at hend
      · rw [← (Prod.mk.inj hend).2]
      · cases moved with
        | none => rw [← (Prod.mk.inj hend).2]
        | some copy => rw [← (Prod.mk.inj hend).2, box_registerDecay]
    rw [room_of_boxes hlast]
    exact hroom₁

theorem queryAdd_container_ne {self : ItemRef} {index : Int} {count flags : Nat} :
    Container.queryAdd env w self index item count flags ≠ .needExchange := by
  unfold Container.queryAdd
  split_ifs
  all_goals try decide
  split
  · decide
  · split_ifs
    · unfold Container.queryAddOwner
      split
      all_goals try split_ifs
      all_goals decide
    · decide

theorem exchange_room {toItem : ItemRef} (hroom : w.room r = some (n, capacity))
    (hdest : ∀ self, c ≠ .container self) :
    (exchange env w mv toItem c).next = w.next ∧ (exchange env w mv toItem c).room r =
      some (if mv.fromCylinder = .container r ∧ (0 : Int) < capacity then n + 1 else n, capacity) := by
  have htaken : (Cylinder.removeThing env w c toItem (w.item toItem).getItemCount).room r =
      some (n, capacity) := by
    rw [room_removeThing hroom, if_neg fun h => hdest r h.1]
  have hadded : ∀ w₁ : World, w₁.next = w.next → w₁.room r = some (n, capacity) →
      (Cylinder.addThingAnywhere env w₁ mv.fromCylinder toItem).next = w.next ∧
      (Cylinder.addThingAnywhere env w₁ mv.fromCylinder toItem).room r =
        some (if mv.fromCylinder = .container r ∧ (0 : Int) < capacity then n + 1 else n, capacity) := by
    intro w₁ hnext hroom₁
    cases hsource : mv.fromCylinder with
    | container self =>
      have h := @room_addThing env w₁ r toItem (.container self) n capacity 0 hroom₁
      have h' := @next_addThing env w₁ toItem (.container self) 0
      simp only [Cylinder.addThing] at h h'
      exact ⟨h'.trans hnext, h⟩
    | player p => exact ⟨hnext, by simpa [Cylinder.addThingAnywhere] using hroom₁⟩
    | tile pos =>
      have h := @room_addThing env w₁ r toItem (.tile pos) n capacity 0 hroom₁
      have h' := @next_addThing env w₁ toItem (.tile pos) 0
      simp only [Cylinder.addThing] at h h'
      exact ⟨h'.trans hnext, by simpa [Cylinder.addThingAnywhere] using h⟩
  obtain ⟨hnext, hroom'⟩ := hadded _ next_removeThing htaken
  have hboxes : (exchange env w mv toItem c).boxes = (Cylinder.addThingAnywhere env
      (Cylinder.removeThing env w c toItem (w.item toItem).getItemCount) mv.fromCylinder
      toItem).boxes := by
    unfold exchange
    dsimp only
    split_ifs <;> simp [Cylinder.postAddNotification, Cylinder.postRemoveNotification]
  exact ⟨(next_of_boxes hboxes).trans hnext, (room_of_boxes hboxes r).trans hroom'⟩

theorem tryAdmit_cases {ret : ReturnValue} {admitted : Admission}
    (h : tryAdmit env w mv d = some (ret, admitted)) :
    (∃ toItem, Exchanges env w mv d toItem ∧
      admitted = ⟨exchange env w mv toItem d.cylinder, none⟩ ∧
      ret = Cylinder.queryAdd env (exchange env w mv toItem d.cylinder) d.cylinder d.index mv.item
        mv.count d.flags none) ∨
    ((∀ toItem, ¬ Exchanges env w mv d toItem) ∧ admitted = ⟨w, d.destItem⟩ ∧
      ∀ self, d.cylinder = .container self →
        ret = Container.queryAdd env w self d.index mv.item mv.count d.flags) := by
  unfold tryAdmit at h
  dsimp only at h
  split_ifs at h with hasked
  · obtain ⟨rfl, rfl⟩ := Prod.mk.inj (Option.some.inj h)
    refine .inr ⟨fun toItem he => hasked he.asked, rfl, fun self hself => ?_⟩
    rw [hself]
    rfl
  · rw [not_not] at hasked
    obtain ⟨toItem, hfound, hpair⟩ := Option.map_eq_some_iff.mp h
    have hdest : ∀ self, d.cylinder ≠ .container self := by
      intro self hself
      rw [hself] at hasked
      exact queryAdd_container_ne hasked
    -- only the item in the way can be exchanged
    have hno : ∀ x, Exchanges env w mv d x → x = toItem := fun x he =>
      Option.some.inj (he.found.symm.trans hfound)
    split_ifs at hpair with haccepted hallowed hmax hremove
    · obtain ⟨rfl, rfl⟩ := Prod.mk.inj hpair
      exact .inr ⟨fun x he => haccepted (hno x he ▸ he.accepted), by rw [hfound],
        fun self hself => absurd hself (hdest self)⟩
    · obtain ⟨rfl, rfl⟩ := Prod.mk.inj hpair
      refine .inr ⟨fun x he => ?_, by rw [hfound], fun self hself => absurd hself (hdest self)⟩
      have := he.allowed
      rw [hno x he] at this
      simp [this] at hallowed
    · obtain ⟨rfl, rfl⟩ := Prod.mk.inj hpair
      exact .inr ⟨fun x he => he.room (hno x he ▸ hmax), by rw [hfound],
        fun self hself => absurd hself (hdest self)⟩
    · obtain ⟨rfl, rfl⟩ := Prod.mk.inj hpair
      refine .inl ⟨toItem, ⟨hasked, hfound, not_not.mp haccepted, by simpa using hallowed, hmax,
        hremove⟩, rfl, rfl⟩
    · obtain ⟨rfl, rfl⟩ := Prod.mk.inj hpair
      exact .inr ⟨fun x he => hremove (hno x he ▸ he.removable), by rw [hfound],
        fun self hself => absurd hself (hdest self)⟩

/-! ## A full container -/

theorem equals_of_recounted (h : Recounted w w' item) (x y : ItemRef) :
    (w'.item x).equals (w'.item y) = (w.item x).equals (w.item y) := by
  unfold Item.equals Item.attr
  simp only [h.id, h.attributes]

/-- An item that may be carried to an index of a full container meets a stack there that takes all
units. -/
theorem not_newChild_of_index {self : ItemRef} (hd : d.cylinder = .container self)
    (hres : Resolved w d self) (hfull : (w.container self).capacity ≤ (w.container self).size)
    (hne : d.destItem ≠ some mv.item) (hcarries : Carries env w mv d)
    (hindex : d.index ≠ INDEX_WHEREEVER) :
    (w.item mv.item).isStackable env.items = true ∧
      ¬ NewChild env w mv d.destItem (units env w mv d) := by
  have hcount := (queryRemove_spec hcarries.removable).2
  have hmax := hcarries.room
  have hunits : units env w mv d = moveCount env w mv.item mv.count
    (Cylinder.queryMaxCount env w d.cylinder d.index mv.item mv.count d.flags).2 := rfl
  have hfree : (w.container self).capacity - (w.container self).size = 0 := by omega
  rw [hd, Cylinder.queryMaxCount, Container.queryMaxCount] at hmax hunits
  simp only [hres.limit, hfree, hindex, Bool.false_eq_true, if_false, Nat.zero_mul,
    Nat.zero_add] at hmax hunits
  cases hstack : (w.item mv.item).isStackable env.items with
  | false => simp [hstack] at hmax
  | true =>
    refine ⟨rfl, ?_⟩
    simp only [hstack, if_true, moveCount] at hunits
    cases hitem : Container.getItemByIndex w self d.index with
    | none =>
      simp only [hitem, Nat.zero_mod, Nat.min_zero] at hunits
      exact absurd hunits hcount
    | some x =>
      rw [hitem] at hunits
      dsimp only at hunits
      have hx := hres.stands hindex x hitem
      split_ifs at hunits with hfits
      · obtain ⟨hequals, hlt, -⟩ := hfits
        have hxne : x ≠ mv.item := fun h => hne (hx.trans (congrArg some h))
        have hrec : Recounted w (lifted env w mv (units env w mv d)) mv.item := .removeThing _
        have hxcount : ((lifted env w mv (units env w mv d)).item x).getItemCount =
            (w.item x).getItemCount := hrec.count x hxne
        intro hnew
        have hmerge := hnew hstack
        rw [hx, mergeCount, equals_of_recounted hrec, if_pos hequals, hxcount] at hmerge
        omega
      · rw [Nat.zero_mod, Nat.min_zero] at hunits
        exact absurd hunits hcount

/-- With `INDEX_WHEREEVER` the check of the size is made, unless a child container asks. -/
theorem queryAdd_wherever {self : ItemRef} {index : Int} {count flags : Nat}
    (h : Container.queryAdd env w self index item count flags = .noError)
    (hlimit : hasBitSet FLAG_NOLIMIT flags = false) :
    hasBitSet FLAG_CHILDISOWNER flags = true ∨ index ≠ INDEX_WHEREEVER ∨
      (w.container self).size < (w.container self).capacity := by
  unfold Container.queryAdd at h
  split_ifs at h with hdepot hchild hpickup hself habove hsize
  · exact .inl hchild
  all_goals
    refine .inr ?_
    simp only [hlimit, Bool.not_false, Bool.true_and, Bool.and_eq_true, decide_eq_true_eq,
      not_and, not_le] at hsize
    by_cases hindex : index = INDEX_WHEREEVER
    · exact .inr (hsize hindex)
    · exact .inl hindex

/-- Whether the whole item leaves its source in the world after an exchange. -/
def LeavesAfter (env : Env) (w : World) (mv : Move) (d : Destination) : Prop :=
  Cylinder.queryAdd env w d.cylinder d.index mv.item mv.count d.flags none = .noError ∧
    Carries env w mv d ∧ (w.item mv.item).LeavesWhole env (units env w mv d)

/-- The ways in which a move puts one child too many into a full container: as the source of an
exchange that gets the item in the way and does not lose the moved item, and as the destination of a
caller that poses as a child container. -/
def Move.Overfills (env : Env) (w : World) (mv : Move) (r : ItemRef) : Prop :=
  eventAllows env w mv mv.item mv.fromCylinder mv.toCylinder = true ∧
  (destination env w mv).destItem ≠ some mv.item ∧
  (w.container r).capacity ≤ (w.container r).size ∧
  ((mv.fromCylinder = .container r ∧ 0 < (w.container r).capacity ∧
      ∃ toItem, Exchanges env w mv (destination env w mv) toItem ∧
        ¬ LeavesAfter env (exchange env w mv toItem (destination env w mv).cylinder) mv
          (destination env w mv)) ∨
    ((destination env w mv).cylinder = .container r ∧
      hasBitSet FLAG_CHILDISOWNER (destination env w mv).flags = true ∧
      (destination env w mv).index = INDEX_WHEREEVER ∧ Carries env w mv (destination env w mv) ∧
      ¬(mv.fromCylinder = .container r ∧
        (w.item mv.item).LeavesWhole env (units env w mv (destination env w mv)))))

theorem internalMoveItem_cases {ret : ReturnValue}
    (h : internalMoveItem env w mv = some (ret, w')) :
    (¬(eventAllows env w mv mv.item mv.fromCylinder mv.toCylinder = true ∧
      (destination env w mv).destItem ≠ some mv.item) ∧ w' = w) ∨
    (eventAllows env w mv mv.item mv.fromCylinder mv.toCylinder = true ∧
      (destination env w mv).destItem ≠ some mv.item ∧ ∃ ret' admitted,
        tryAdmit env w mv (destination env w mv) = some (ret', admitted) ∧
        (ret' ≠ .noError → ret = ret') ∧
        (ret' ≠ .noError ∧ w' = admitted.world ∨ ret' = .noError ∧
          transfer env admitted.world mv (destination env w mv) admitted.toItem =
            some (ret, w'))) := by
  unfold internalMoveItem at h
  dsimp only at h
  split_ifs at h with hevent hitself
  · exact .inl ⟨fun hall => by simp [hall.1] at hevent, (Prod.mk.inj (Option.some.inj h)).2.symm⟩
  · exact .inl ⟨fun hall => hall.2 hitself, (Prod.mk.inj (Option.some.inj h)).2.symm⟩
  · refine .inr ⟨by simpa using hevent, hitself, ?_⟩
    cases hchecked : tryAdmit env w mv (destination env w mv) with
    | none =>
      rw [hchecked] at h
      cases h
    | some admission =>
      obtain ⟨ret', admitted⟩ := admission
      rw [hchecked] at h
      dsimp only at h
      refine ⟨ret', admitted, rfl, ?_⟩
      split_ifs at h with hret
      · obtain ⟨rfl, rfl⟩ := Prod.mk.inj (Option.some.inj h)
        exact ⟨fun _ => rfl, .inl ⟨hret, rfl⟩⟩
      · exact ⟨fun hrefused => absurd hrefused hret, .inr ⟨not_not.mp hret, h⟩⟩

/-- After an exchange the source has the item in the way, and the moved one unless it left whole. -/
theorem exchanged_room {toItem : ItemRef} {ret ret' : ReturnValue} (hr : r < w.next)
    (hroom : w.room r = some (n, capacity)) (he : Exchanges env w mv d toItem)
    (hret : ret' = Cylinder.queryAdd env (exchange env w mv toItem d.cylinder) d.cylinder d.index
      mv.item mv.count d.flags none)
    (h : ret' ≠ .noError ∧ w' = exchange env w mv toItem d.cylinder ∨ ret' = .noError ∧
      transfer env (exchange env w mv toItem d.cylinder) mv d none = some (ret, w')) :
    ∃ n', w'.room r = some (n', capacity) ∧
      (mv.fromCylinder ≠ .container r → n' = n) ∧
      (mv.fromCylinder = .container r →
        (LeavesAfter env (exchange env w mv toItem d.cylinder) mv d → n' ≤ n) ∧
        (¬ LeavesAfter env (exchange env w mv toItem d.cylinder) mv d →
          n' = if (0 : Int) < capacity then n + 1 else n)) := by
  have hdest : ∀ self, d.cylinder ≠ .container self := by
    intro self hself
    have := he.asked
    rw [hself] at this
    exact queryAdd_container_ne this
  obtain ⟨hnext, hroom₁⟩ := @exchange_room env w r d.cylinder n capacity mv toItem hroom hdest
  -- without a transfer the world is that after the exchange
  have hstays : w' = exchange env w mv toItem d.cylinder →
      ¬ LeavesAfter env (exchange env w mv toItem d.cylinder) mv d → _ := fun heq hno =>
    (⟨_, by rw [heq]; exact hroom₁, fun hsource => by rw [if_neg fun h => hsource h.1],
      fun hsource => ⟨fun hleaves => absurd hleaves hno, fun _ => by simp [hsource]⟩⟩ :
    ∃ n', w'.room r = some (n', capacity) ∧
      (mv.fromCylinder ≠ .container r → n' = n) ∧
      (mv.fromCylinder = .container r →
        (LeavesAfter env (exchange env w mv toItem d.cylinder) mv d → n' ≤ n) ∧
        (¬ LeavesAfter env (exchange env w mv toItem d.cylinder) mv d →
          n' = if (0 : Int) < capacity then n + 1 else n)))
  rcases h with ⟨hno, heq⟩ | ⟨hyes, htransfer⟩
  · exact hstays heq fun hleaves => hno (hret.trans hleaves.1)
  · rcases transfer_room (hnext ▸ hr) hroom₁ htransfer with ⟨hno, heq⟩ | ⟨hcarries, hroom₂⟩
    · exact hstays heq fun hleaves => hno hleaves.2.1
    · simp only [hdest r, false_and, if_false, Nat.add_zero] at hroom₂
      refine ⟨_, hroom₂, fun hsource => by simp [hsource], fun hsource => ?_⟩
      simp only [hsource, true_and]
      refine ⟨fun hleaves => ?_, fun hno => ?_⟩
      · rw [if_pos hleaves.2.2]
        split_ifs <;> omega
      · rw [if_neg fun hwhole => hno ⟨hret.symm.trans hyes, hcarries, hwhole⟩]
        rfl

theorem pos_of_source (hroom : w.room r = some (n, capacity)) (hcarries : Carries env w mv d)
    (hsource : mv.fromCylinder = .container r) : 0 < n := by
  have hindex := (queryRemove_spec hcarries.removable).1
  rw [hsource] at hindex
  have hmem : mv.item ∈ w.itemlist r := Container.mem_iff_getThingIndex.mpr hindex
  rw [← (room_eq_some_iff.mp hroom).2.1]
  exact List.length_pos_of_mem hmem

theorem queryAdd_child {self : ItemRef} {index : Int} {count flags : Nat}
    (hplain : (w.container self).kind = .container)
    (hchild : hasBitSet FLAG_CHILDISOWNER flags = true) :
    Container.queryAdd env w self index item count flags = .noError := by
  unfold Container.queryAdd Container.depotIsFull
  simp [hplain, hchild]

/-- What a transfer without an exchange leaves in a container. -/
theorem transferred_room {ret : ReturnValue} (hlimit : hasBitSet FLAG_NOLIMIT mv.flags = false)
    (hr : r < w.next) (hroom : w.room r = some (n, capacity)) (hle : n ≤ capacity)
    (hne : (destination env w mv).destItem ≠ some mv.item)
    (hadd : ∀ self, (destination env w mv).cylinder = .container self →
      Container.queryAdd env w self (destination env w mv).index mv.item mv.count
        (destination env w mv).flags = .noError)
    (hcarries : Carries env w mv (destination env w mv))
    (h : transfer env w mv (destination env w mv) (destination env w mv).destItem =
      some (ret, w')) :
    ∃ n', w'.room r = some (n', capacity) ∧ (capacity < n' ↔ capacity ≤ n ∧
      (destination env w mv).cylinder = .container r ∧
      hasBitSet FLAG_CHILDISOWNER (destination env w mv).flags = true ∧
      (destination env w mv).index = INDEX_WHEREEVER ∧
      ¬(mv.fromCylinder = .container r ∧
        (w.item mv.item).LeavesWhole env (units env w mv (destination env w mv)))) := by
  obtain ⟨-, hsize, hcapacity⟩ := room_eq_some_iff.mp hroom
  rcases transfer_room hr hroom h with ⟨hno, -⟩ | ⟨-, hroom'⟩
  · exact absurd hcarries hno
  refine ⟨_, hroom', ?_⟩
  by_cases hdest : (destination env w mv).cylinder = .container r
  · have hres := destination_container hlimit hdest
    have hwhere := queryAdd_wherever (hadd r hdest) hres.limit
    by_cases hindex : (destination env w mv).index = INDEX_WHEREEVER
    · have hlt : (destination env w mv).index < capacity := by
        rw [hindex]
        unfold INDEX_WHEREEVER
        omega
      have hnew : NewChild env w mv (destination env w mv).destItem
          (units env w mv (destination env w mv)) := by
        intro _
        rw [hres.wherever hindex]
        exact Nat.pos_of_ne_zero (queryRemove_spec hcarries.removable).2
      split_ifs with hleft hchild hchild
      · have hpos := pos_of_source hroom hcarries hleft.1
        exact iff_of_false (by omega) fun hall => hall.2.2.2.2 hleft
      · exact absurd ⟨hdest, hlt, hnew⟩ hchild
      · constructor
        · intro hlt'
          refine ⟨by omega, hdest, ?_, hindex, hleft⟩
          rcases hwhere with hchild | hne' | hroomy
          · exact hchild
          · exact absurd hindex hne'
          · omega
        · intro hall
          omega
      · exact absurd ⟨hdest, hlt, hnew⟩ hchild
    · refine iff_of_false ?_ fun hall => hindex hall.2.2.2.1
      by_cases hfull : capacity ≤ n
      · have hno := (not_newChild_of_index hdest hres (by omega) hne hcarries hindex).2
        split_ifs with hleft hchild hchild
        · exact absurd hchild.2.2 hno
        · omega
        · exact absurd hchild.2.2 hno
        · omega
      · split_ifs <;> omega
  · refine iff_of_false ?_ fun hall => hdest hall.2.1
    split_ifs with hleft hchild hchild
    · exact absurd hchild.1 hdest
    · omega
    · exact absurd hchild.1 hdest
    · omega

theorem move_room {ret : ReturnValue} (hlimit : hasBitSet FLAG_NOLIMIT mv.flags = false)
    (hr : r < w.next) (hplain : (w.container r).kind = .container)
    (hroom : w.room r = some (n, capacity)) (hle : n ≤ capacity)
    (h : internalMoveItem env w mv = some (ret, w')) :
    ∃ n', w'.room r = some (n', capacity) ∧ (n' ≤ capacity ↔ ¬ mv.Overfills env w r) := by
  obtain ⟨-, hsize, hcapacity⟩ := room_eq_some_iff.mp hroom
  rcases internalMoveItem_cases h with ⟨hno, rfl⟩ | ⟨hevent, hne, ret', admitted, hchecked, -, hend⟩
  · exact ⟨n, hroom, iff_of_true hle fun hover => hno ⟨hover.1, hover.2.1⟩⟩
  rcases tryAdmit_cases hchecked with ⟨toItem, he, rfl, hret⟩ | ⟨hno, rfl, hself⟩
  · obtain ⟨n', hroom', hother, hsource⟩ := exchanged_room hr hroom he hret hend
    have hdest : (destination env w mv).cylinder ≠ .container r := by
      intro hself
      have := he.asked
      rw [hself] at this
      exact queryAdd_container_ne this
    refine ⟨n', hroom', ?_⟩
    by_cases hfrom : mv.fromCylinder = .container r
    · obtain ⟨hleft, hstayed⟩ := hsource hfrom
      by_cases hleaves : LeavesAfter env (exchange env w mv toItem
          (destination env w mv).cylinder) mv (destination env w mv)
      · refine iff_of_true ((hleft hleaves).trans hle) ?_
        rintro ⟨-, -, -, ⟨-, -, x, hx, hstays⟩ | ⟨hd, -⟩⟩
        · obtain rfl : x = toItem := Option.some.inj (hx.found.symm.trans he.found)
          exact hstays hleaves
        · exact hdest hd
      · have hn' := hstayed hleaves
        constructor
        · rintro hfits ⟨-, -, hfull, ⟨-, hpos, -⟩ | ⟨hd, -⟩⟩
          · rw [if_pos (by omega)] at hn'
            omega
          · exact hdest hd
        · intro hnot
          by_contra hover
          split_ifs at hn' with hpos
          · exact hnot ⟨hevent, hne, by omega, .inl ⟨hfrom, by omega, toItem, he, hleaves⟩⟩
          · omega
    · rw [hother hfrom]
      refine iff_of_true hle ?_
      rintro ⟨-, -, -, ⟨hfrom', -⟩ | ⟨hd, -⟩⟩
      · exact hfrom hfrom'
      · exact hdest hd
  · have hnot : mv.Overfills env w r → _ := fun hover => hover.2.2.2.resolve_left
      fun hexchange => by
        obtain ⟨-, -, x, hx, -⟩ := hexchange
        exact hno x hx
    rcases hend with ⟨hrefused, rfl⟩ | ⟨hadmitted, htransfer⟩
    · refine ⟨n, hroom, iff_of_true hle fun hover => ?_⟩
      obtain ⟨hd, hchild, -⟩ := hnot hover
      exact hrefused ((hself r hd).trans (queryAdd_child hplain hchild))
    · by_cases hcarries : Carries env w mv (destination env w mv)
      · obtain ⟨n', hroom', hiff⟩ := transferred_room hlimit hr hroom hle hne
          (fun self hd => (hself self hd).symm.trans hadmitted) hcarries htransfer
        refine ⟨n', hroom', not_lt.symm.trans (not_congr (hiff.trans ?_))⟩
        constructor
        · rintro ⟨hfull, hd, hchild, hindex, hleft⟩
          exact ⟨hevent, hne, by omega, .inr ⟨hd, hchild, hindex, hcarries, hleft⟩⟩
        · intro hover
          obtain ⟨hd, hchild, hindex, -, hleft⟩ := hnot hover
          have := hover.2.2.1
          exact ⟨by omega, hd, hchild, hindex, hleft⟩
      · rcases transfer_room hr hroom htransfer with ⟨-, rfl⟩ | ⟨hyes, -⟩
        · exact ⟨n, hroom, iff_of_true hle fun hover => hcarries (hnot hover).2.2.2.1⟩
        · exact absurd hyes hcarries

end Eloth.Game
