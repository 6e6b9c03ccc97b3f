import Eloth.DecayEntries
import Eloth.Sample
import Eloth.TwoHandedRun

/-!
# Moves that fail

When a call of `internalMoveItem` with an error leaves everything as it was. The checks come before
the changes, but for an exchange, after which the item is checked again, and for a stack that finds
room for a part only.
-/

namespace Eloth.Game

variable {env : Env} {w w' : World} {mv : Move} {d : Destination} {toItem moved : Option ItemRef}
  {m : Nat} {ret : ReturnValue}

/-! ## The checks -/

/-- The checks pass, and a part of a stack goes while the rest is refused. -/
structure CarriesPart (env : Env) (w : World) (mv : Move) (d : Destination) : Prop
    extends Carries env w mv d where
  stackable : (w.item mv.item).isStackable env.items = true
  refused : (Cylinder.queryMaxCount env w d.cylinder d.index mv.item mv.count d.flags).1 ≠ .noError
  part : (Cylinder.queryMaxCount env w d.cylinder d.index mv.item mv.count d.flags).2 < mv.count

/-- The call goes on without an exchange: the destination takes the item, or asks for an exchange
with an item that the source would take and the destination does not let go. -/
inductive Admitted (env : Env) (w : World) (mv : Move) (d : Destination) : Prop
  | taken (h : Cylinder.queryAdd env w d.cylinder d.index mv.item mv.count d.flags mv.actor =
      .noError)
  | stuck (toItem : ItemRef)
      (asked : Cylinder.queryAdd env w d.cylinder d.index mv.item mv.count d.flags mv.actor =
        .needExchange)
      (found : d.destItem = some toItem)
      (accepted : Cylinder.queryAdd env w mv.fromCylinder
        (Cylinder.getThingIndex env w mv.fromCylinder mv.item) toItem
        (w.item toItem).getItemCount 0 none = .noError)
      (allowed : eventAllows env w mv toItem d.cylinder mv.fromCylinder = true)
      (room : ¬((Cylinder.queryMaxCount env w mv.fromCylinder INDEX_WHEREEVER toItem
          (w.item toItem).getItemCount 0).1 ≠ .noError ∧
        (Cylinder.queryMaxCount env w mv.fromCylinder INDEX_WHEREEVER toItem
          (w.item toItem).getItemCount 0).2 = 0))
      (kept : Cylinder.queryRemove env w d.cylinder toItem (w.item toItem).getItemCount d.flags
        mv.actor ≠ .noError)

/-- Once an exchange has taken place the item passes all checks that are left, and goes whole. -/
def Completes (env : Env) (w : World) (mv : Move) (d : Destination) : Prop :=
  Cylinder.queryAdd env w d.cylinder d.index mv.item mv.count d.flags none = .noError ∧
    Carries env w mv d ∧ ¬ CarriesPart env w mv d

/-- No check fails after a change. -/
def Move.FailsFirst (env : Env) (w : World) (mv : Move) : Prop :=
  eventAllows env w mv mv.item mv.fromCylinder mv.toCylinder = true →
  (destination env w mv).destItem ≠ some mv.item →
  (∀ toItem, Exchanges env w mv (destination env w mv) toItem →
    Completes env (exchange env w mv toItem (destination env w mv).cylinder) mv
      (destination env w mv)) ∧
  ((∀ toItem, ¬ Exchanges env w mv (destination env w mv) toItem) →
    Admitted env w mv (destination env w mv) →
    ¬ CarriesPart env w mv (destination env w mv))

theorem tryAdmit_iff {admitted : Admission} (h : tryAdmit env w mv d = some (ret, admitted))
    (hno : ∀ toItem, ¬ Exchanges env w mv d toItem) : ret = .noError ↔ Admitted env w mv d := by
  unfold tryAdmit at h
  dsimp only at h
  split_ifs at h with hasked
  · obtain ⟨rfl, -⟩ := Prod.mk.inj (Option.some.inj h)
    refine ⟨.taken, fun hadmitted => ?_⟩
    cases hadmitted with
    | taken h => exact h
    | stuck _ asked => exact absurd asked hasked
  · rw [not_not] at hasked
    obtain ⟨toItem, hfound, hpair⟩ := Option.map_eq_some_iff.mp h
    -- The item in the way is the one of the destination.
    have hstuck {P : Prop} (hP : ∀ x, x = toItem → d.destItem = some x →
        Cylinder.queryAdd env w mv.fromCylinder
          (Cylinder.getThingIndex env w mv.fromCylinder mv.item) x (w.item x).getItemCount 0
          none = .noError →
        eventAllows env w mv x d.cylinder mv.fromCylinder = true →
        ¬((Cylinder.queryMaxCount env w mv.fromCylinder INDEX_WHEREEVER x
            (w.item x).getItemCount 0).1 ≠ .noError ∧
          (Cylinder.queryMaxCount env w mv.fromCylinder INDEX_WHEREEVER x
            (w.item x).getItemCount 0).2 = 0) → P) (hadmitted : Admitted env w mv d) : P := by
      cases hadmitted with
      | taken h => exact absurd (h.symm.trans hasked) (by decide)
      | stuck x _ found accepted allowed room =>
        exact hP x (Option.some.inj (found.symm.trans hfound)) found accepted allowed room
    split_ifs at hpair with haccepted hallowed hmax hremove
    · obtain ⟨rfl, -⟩ := Prod.mk.inj hpair
      refine ⟨fun h => absurd h haccepted, hstuck fun x hx _ accepted _ _ => ?_⟩
      exact absurd (hx ▸ accepted) haccepted
    · obtain ⟨rfl, -⟩ := Prod.mk.inj hpair
      refine ⟨nofun, hstuck fun x hx _ _ allowed _ => ?_⟩
      rw [hx] at allowed
      simp [allowed] at hallowed
    · obtain ⟨rfl, -⟩ := Prod.mk.inj hpair
      refine ⟨fun h => absurd h hmax.1, hstuck fun x hx _ _ _ room => ?_⟩
      exact absurd (hx ▸ hmax) room
    · exact absurd ⟨hasked, hfound, not_not.mp haccepted, by simpa using hallowed, hmax, hremove⟩
        (hno toItem)
    · obtain ⟨rfl, -⟩ := Prod.mk.inj hpair
      exact iff_of_true (not_not.mp haccepted)
        (.stuck toItem hasked hfound (not_not.mp haccepted) (by simpa using hallowed) hmax hremove)

/-! ## The carriage -/

theorem id_carriage (env : Env) (x : ItemRef) :
    Carriage env fun w w' => (w'.item x).id = (w.item x).id where
  refl _ := rfl
  trans h h' := h'.trans h
  refreshWeight _ _ := id_of_attire attire_refreshWeight x
  recount _ _ _ _ := id_updateThing x
  releaseItem _ _ := rfl
  removeThing _ _ _ count := (Recounted.removeThing count).id x
  addThing w c index item := by
    cases c with
    | container self => exact id_of_attire attire_addThing_container x
    | tile pos => exact id_of_attire attire_addThing_tile x
    | player p =>
      unfold Cylinder.addThing Player.addThing
      split_ifs
      · rfl
      · exact World.setParent_id
  addThingAnywhere w c item := by
    cases c with
    | container self => exact id_of_attire attire_addThing_container x
    | tile pos => exact id_of_attire attire_addThing_tile x
    | player p => rfl

/-- The moved item keeps its type: a part of it goes as a copy. -/
theorem id_carry (hitem : mv.item < w.next) (h : carry env w mv d toItem m = some (moved, w')) :
    (w'.item mv.item).id = (w.item mv.item).id := by
  unfold carry at h
  dsimp only at h
  obtain ⟨⟨made, w₁⟩, hmade, hpair⟩ := Option.map_eq_some_iff.mp h
  obtain ⟨-, rfl⟩ := Prod.mk.inj hpair
  obtain ⟨hmoved, -⟩ := @moveItem_sheds env _ w₁ 0 mv.item made _ hmade
  have hnext := (quiet_carriage env).merged w mv d.cylinder m
  have hbefore := (id_carriage env mv.item).merged w mv d.cylinder m
  have hafter := (id_carriage env mv.item).delivered w₁ mv d
  exact ((hafter _ _ _).trans (hmoved.id _ ((hnext _ _).next ▸ hitem))).trans (hbefore _ _)

theorem transfer_spec (hitem : mv.item < w.next)
    (h : transfer env w mv d toItem = some (ret, w')) :
    (¬ Carries env w mv d ∧ ret ≠ .noError ∧ w' = w) ∨
      (Carries env w mv d ∧ (ret = .noError ↔ ¬ CarriesPart env w mv d)) := by
  unfold transfer at h
  dsimp only at h
  split_ifs at h with hmax hremove hinside
  · obtain ⟨rfl, rfl⟩ := Prod.mk.inj (Option.some.inj h)
    exact .inl ⟨fun hc => hc.room hmax, hmax.1, rfl⟩
  · obtain ⟨rfl, rfl⟩ := Prod.mk.inj (Option.some.inj h)
    exact .inl ⟨fun hc => hremove hc.removable, hremove, rfl⟩
  · obtain ⟨rfl, rfl⟩ := Prod.mk.inj (Option.some.inj h)
    exact .inl ⟨fun hc => by simp [hc.outside] at hinside, by decide, rfl⟩
  · rw [not_not] at hremove
    have hcarries : Carries env w mv d := ⟨hmax, hremove, by simpa using hinside⟩
    obtain ⟨⟨moved, w₁⟩, hcarry, hend⟩ := Option.map_eq_some_iff.mp h
    have hstackable : (w₁.item mv.item).isStackable env.items =
        (w.item mv.item).isStackable env.items := by
      unfold Item.isStackable
      rw [id_carry hitem hcarry]
    refine .inr ⟨hcarries, ?_⟩
    dsimp only at hend
    rw [hstackable] at hend
    split_ifs at hend with hpart
    · obtain ⟨rfl, rfl⟩ := Prod.mk.inj hend
      exact ⟨fun hret hsome => hsome.refused hret,
        fun hnot => not_not.mp fun hret => hnot ⟨hcarries, hpart.1, hret, hpart.2⟩⟩
    · have hret : ret = .noError := by
        cases moved with
        | none => exact (Prod.mk.inj hend).1.symm.trans hremove
        | some r => exact (Prod.mk.inj hend).1.symm.trans hremove
      exact iff_of_true hret fun hsome => hpart ⟨hsome.stackable, hsome.part⟩

/-! ## Whole calls -/

/-- Where no check fails after a change, a call that fails has changed nothing; else it fails after
an exchange, or after a part has been moved. -/
theorem internalMoveItem_failed (hitem : mv.item < w.next)
    (h : internalMoveItem env w mv = some (ret, w')) :
    (mv.FailsFirst env w → ret ≠ .noError → w' = w) ∧
      (¬ mv.FailsFirst env w → ret ≠ .noError ∧
        ((∃ toItem, Exchanges env w mv (destination env w mv) toItem) ∨
          CarriesPart env w mv (destination env w mv))) := by
  rcases internalMoveItem_cases h with
    ⟨hno, rfl⟩ | ⟨hevent, hne, ret', admitted, hchecked, hsame, hend⟩
  · exact ⟨fun _ _ => rfl, fun hfails => absurd (fun hevent hne => absurd ⟨hevent, hne⟩ hno) hfails⟩
  rcases tryAdmit_cases hchecked with ⟨toItem, he, rfl, hret⟩ | ⟨hno, rfl, -⟩
  · have honly : mv.FailsFirst env w ↔ Completes env
        (exchange env w mv toItem (destination env w mv).cylinder) mv (destination env w mv) := by
      refine ⟨fun hfirst => (hfirst hevent hne).1 toItem he, fun hcompletes _ _ => ⟨?_, ?_⟩⟩
      · intro x hx
        obtain rfl : x = toItem := Option.some.inj (hx.found.symm.trans he.found)
        exact hcompletes
      · exact fun hno _ => absurd he (hno toItem)
    have hcompletes : ret = .noError ↔ Completes env
        (exchange env w mv toItem (destination env w mv).cylinder) mv (destination env w mv) := by
      rcases hend with ⟨hrefused, rfl⟩ | ⟨hadmitted, htransfer⟩
      · rw [hsame hrefused, hret]
        exact iff_of_false (hret ▸ hrefused) fun hcompletes => hrefused (hret.trans hcompletes.1)
      · have hnext := ((quiet_carriage env).exchange w mv toItem
          (destination env w mv).cylinder).next
        rcases transfer_spec (hnext ▸ hitem) htransfer with ⟨hnot, hfailed, -⟩ | ⟨hcarries, hiff⟩
        · exact iff_of_false hfailed fun hcompletes => hnot hcompletes.2.1
        · exact hiff.trans ⟨fun hpart => ⟨hret.symm.trans hadmitted, hcarries, hpart⟩,
            fun hcompletes => hcompletes.2.2⟩
    rw [honly, ← hcompletes]
    exact ⟨fun hret hfailed => absurd hret hfailed, fun hfailed => ⟨hfailed, .inl ⟨toItem, he⟩⟩⟩
  · have hadmits := tryAdmit_iff hchecked hno
    have hfirst : mv.FailsFirst env w ↔ (Admitted env w mv (destination env w mv) →
        ¬ CarriesPart env w mv (destination env w mv)) :=
      ⟨fun hfirst => (hfirst hevent hne).2 hno,
        fun hpart _ _ => ⟨fun x hx => absurd hx (hno x), fun _ => hpart⟩⟩
    rw [hfirst]
    rcases hend with ⟨hrefused, rfl⟩ | ⟨hadmitted, htransfer⟩
    · exact ⟨fun _ _ => rfl, fun hfails => absurd (fun h => absurd (hadmits.mpr h) hrefused) hfails⟩
    · rcases transfer_spec hitem htransfer with ⟨hnot, -, rfl⟩ | ⟨-, hiff⟩
      · exact ⟨fun _ _ => rfl, fun hfails => absurd (fun _ hpart => hnot hpart.toCarries) hfails⟩
      · refine ⟨fun hpart hfailed => absurd (hiff.mpr (hpart (hadmits.mp hadmitted))) hfailed, ?_⟩
        intro hfails
        have hpart : CarriesPart env w mv (destination env w mv) := by
          by_contra hpart
          exact hfails fun _ => hpart
        exact ⟨fun hret => hiff.mp hret hpart, .inr hpart⟩

/-! A wall with a tapestry, and a coin in front of it. -/

def tapestry : ItemType := { bread with id := 1857, isHangable := true }

def wallEnv : Env := Env.quiet (Items.ofEntries [goldCoin, bag, tapestry])

def wallItem (type : ItemType) (count : Nat) : Item :=
  (Item.CreateItem wallEnv.items type.id count).getD (World.blank.item 0)

def wallPosition : Position := ⟨100, 101, 7⟩

/-- Another tapestry is in a bag. -/
def wall : World :=
  let w := World.ofItems
    [wallItem bag 1, wallItem tapestry 1, wallItem tapestry 1, wallItem goldCoin 1]
  let w := w.setTile wallPosition { Tile.empty with flags := fun f => f = .supportsHangable }
  Tile.addThing wallEnv (Tile.addThing wallEnv (Container.addThing wallEnv w 0 0 1) wallPosition 2)
    wallPosition 3

def fromBag (item : ItemRef) (toCylinder : Cylinder) : Move :=
  { fromCylinder := .container 0, toCylinder := toCylinder, index := 0, item := item, count := 1,
    flags := 0, actor := none, withEvents := false, tradeItem := none }

/-- The bag does not go into itself. -/
theorem internalMoveItem_failed_bag :
    ∃ w', internalMoveItem wallEnv wall (fromBag 0 (.container 0)) =
      some (.thisIsImpossible, w') ∧ w' = wall := by
  have hrun : (internalMoveItem wallEnv wall (fromBag 0 (.container 0))).map Prod.fst =
      some .thisIsImpossible := by decide
  obtain ⟨⟨ret, w'⟩, h, rfl⟩ := Option.map_eq_some_iff.mp hrun
  have hfirst : (fromBag 0 (.container 0)).FailsFirst wallEnv wall := by
    refine fun _ _ => ⟨fun x hx => absurd hx.asked (by decide), fun _ hadmitted => ?_⟩
    cases hadmitted with
    | taken h => exact absurd h (by decide)
    | stuck _ asked => exact absurd asked (by decide)
  exact ⟨w', h, (internalMoveItem_failed (by decide) h).1 hfirst (by decide)⟩

/-- The coin is exchanged and the other tapestry is still in the way: the call fails, and the coin
stays in the bag. -/
theorem internalMoveItem_failed_coin :
    wall.itemlist 0 = [1] ∧ (wall.tile wallPosition).downItems = [3, 2] ∧
      ∃ w', internalMoveItem wallEnv wall (fromBag 1 (.tile wallPosition)) =
          some (.needExchange, w') ∧
        w'.itemlist 0 = [3, 1] ∧ (w'.tile wallPosition).downItems = [2] := by
  have hrun : (internalMoveItem wallEnv wall (fromBag 1 (.tile wallPosition))).map
      (fun result => (result.1, result.2.itemlist 0, (result.2.tile wallPosition).downItems)) =
        some (.needExchange, [3, 1], [2]) := by decide
  obtain ⟨⟨ret, w'⟩, h, hresult⟩ := Option.map_eq_some_iff.mp hrun
  obtain ⟨rfl, hresult⟩ := Prod.mk.inj hresult
  obtain ⟨hbag, htile⟩ := Prod.mk.inj hresult
  exact ⟨by decide, by decide, w', h, hbag, htile⟩

end Eloth.Game
