import Eloth.TradeInvariant
import Eloth.Lib.Run
import Eloth.Sample

/-!
# Runs of trades

Any number of players request, accept and close trades, come and go, and move items about.
-/

namespace Eloth

namespace Game

variable {env : Env} {w w' : World} {p q : PlayerId}

def Offered (w : World) : Prop := ∀ p i, (w.trade p).tradeItem = some i → i < w.next

theorem offered_of_closes (h : Closes w w') (hw : Offered w) : Offered w' := fun r i hi =>
  lt_of_lt_of_le
    (h.forall_trade (P := fun t => ∀ i, t.tradeItem = some i → i < w.next)
      (fun _ hi => by cases hi) hw r i hi)
    h.next_le

theorem unlocked_of_mayRequestTrade {item : ItemRef} {spriteMatches : Bool}
    (hw : w.trades.Consistent) (hoffered : Offered w)
    (h : mayRequestTrade env w p q item spriteMatches = true) :
    q ≠ p ∧ w.tradeItems item = none := by
  simp only [mayRequestTrade, Bool.and_eq_true, bne_iff_ne, Bool.not_eq_true'] at h
  obtain ⟨⟨⟨⟨⟨⟨⟨⟨⟨⟨⟨⟨⟨-, -⟩, hne⟩, -⟩, -⟩, -⟩, -⟩, -⟩, -⟩, -⟩, -⟩, htraded⟩, -⟩, -⟩ := h
  refine ⟨hne, ?_⟩
  by_contra hlocked
  obtain ⟨r, hr⟩ := Option.ne_none_iff_exists'.mp hlocked
  have hnext : item < w.next := hoffered r item ((hw.locked item r).mp hr)
  have hmem : item ∈ lockedItems w := by
    simp [lockedItems, hnext, hr]
  have hany : isAlreadyTraded w item = true :=
    List.any_eq_true.mpr ⟨item, hmem, by simp⟩
  rw [hany] at htraded
  cases htraded

theorem playerRequestTrade_cases (env : Env) (p q : PlayerId) (thing : Option ItemRef)
    (spriteMatches : Bool) (hw : w.trades.Consistent) (hoffered : Offered w) :
    playerRequestTrade env w p q thing spriteMatches = w ∨
      ∃ item, thing = some item ∧ p ≠ q ∧ w.tradeItems item = none ∧
        playerRequestTrade env w p q thing spriteMatches = internalStartTrade w p q item := by
  unfold playerRequestTrade
  cases thing with
  | none => exact .inl rfl
  | some item =>
    dsimp only
    split_ifs with hmay
    · obtain ⟨hne, hfree⟩ := unlocked_of_mayRequestTrade hw hoffered hmay
      exact .inr ⟨item, rfl, hne.symm, hfree, rfl⟩
    · exact .inl rfl

theorem internalStartTrade_forall_trade {P : Trade → Prop} {item : ItemRef}
    (hinitiated : P { tradeState := .initiated, tradePartner := some q, tradeItem := some item })
    (hacknowledge : P (w.trade q) →
      P { w.trade q with tradeState := .acknowledge, tradePartner := some p })
    (hne : p ≠ q) (hw : ∀ r, P (w.trade r)) (r : PlayerId) :
    P ((internalStartTrade w p q item).trade r) := by
  unfold internalStartTrade
  dsimp only
  split_ifs
  · exact hw r
  · exact hw r
  · by_cases hq : r = q
    · subst hq
      simpa [World.setTrade, hne.symm] using hacknowledge (hw r)
    · by_cases hp : r = p
      · subst hp
        simpa [World.setTrade, hne] using hinitiated
      · simpa [World.setTrade, hq, hp] using hw r
  · by_cases hp : r = p
    · subst hp
      simpa [World.setTrade] using hinitiated
    · simpa [World.setTrade, hp] using hw r

theorem next_internalStartTrade (w : World) (p q : PlayerId) (item : ItemRef) :
    (internalStartTrade w p q item).next = w.next := by
  unfold internalStartTrade
  dsimp only
  split_ifs <;> rfl

theorem onRemoveCreature_closes (w : World) (p : PlayerId) : Closes w (onRemoveCreature w p) := by
  unfold onRemoveCreature
  dsimp only
  split_ifs
  · exact (Closes.close w p).same rfl rfl
  · exact .other rfl le_rfl

theorem onCreatureMove_closes (w : World) (p : PlayerId) : Closes w (onCreatureMove w p) := by
  have hitem : ∀ item, Closes w (if areInRange 1 1 0 (w.getPosition item) (playerPosition w p) then w
      else internalCloseTrade w p) := by
    intro item
    split_ifs
    · exact .refl w
    · exact .close w p
  have hpartner : ∀ w₁ q pos, Closes w w₁ →
      Closes w (if areInRange 2 2 0 (playerPosition w₁ q) pos then w₁
        else internalCloseTrade w₁ p) := by
    intro w₁ q pos hclose
    split_ifs
    · exact hclose
    · exact hclose.trans (.close w₁ p)
  unfold onCreatureMove
  split_ifs
  · exact .refl w
  · cases hitem' : (w.trade p).tradeItem with
    | none =>
      dsimp only
      split
      · exact .refl w
      · exact hpartner _ _ _ (.refl w)
    | some item =>
      dsimp only
      split
      · exact hitem item
      · exact hpartner _ _ _ (hitem item)

theorem moveCreature_closes (w : World) (p : PlayerId) (pos : Position) :
    Closes w (moveCreature w p pos) := by
  have hmove : Closes w (w.setPlayer p { w.player p with tile := pos }) := .other rfl le_rfl
  exact hmove.trans (onCreatureMove_closes _ p)

end Game

namespace Trading

open Game

/-! ## Operations -/

inductive Op where
  | playerRequestTrade (player tradePartner : PlayerId) (tradeThing : Option ItemRef)
      (spriteMatches : Bool)
  | houseStartTrade (player tradePartner : PlayerId) (transferItem : ItemRef)
  | playerAcceptTrade (player : PlayerId)
  | playerCloseTrade (player : PlayerId)
  | internalCloseTrade (player : PlayerId)
  | placeCreature (player : PlayerId)
  | onRemoveCreature (player : PlayerId)
  | moveCreature (player : PlayerId) (pos : Position)
  | internalMoveItem (mv : Move)
  | internalAddItem (toCylinder : Cylinder) (item : ItemRef) (index : Int) (flags : Nat)
  | internalRemoveItem (item : ItemRef) (count : Option Nat) (flags : Nat)
  | transformItem (item : ItemRef) (newId : Nat) (newCount : Int)

def Op.apply (env : Env) (w : World) : Op → Option World
  | .playerRequestTrade player tradePartner tradeThing spriteMatches =>
    some (Game.playerRequestTrade env w player tradePartner tradeThing spriteMatches)
  | .houseStartTrade player tradePartner transferItem =>
    some (internalStartTrade w player tradePartner transferItem)
  | .playerAcceptTrade player => Game.playerAcceptTrade env w player
  | .playerCloseTrade player => some (Game.playerCloseTrade w player)
  | .internalCloseTrade player => some (Game.internalCloseTrade w player)
  | .placeCreature player => some { w with isOnline := Function.update w.isOnline player true }
  | .onRemoveCreature player => some (Game.onRemoveCreature w player)
  | .moveCreature player pos => some (Game.moveCreature w player pos)
  | .internalMoveItem mv => (Game.internalMoveItem env w mv).map Prod.snd
  | .internalAddItem toCylinder item index flags =>
    (Game.internalAddItem env w toCylinder item index flags false).map Added.world
  | .internalRemoveItem item count flags =>
    some (Game.internalRemoveItem env w item count false flags).2
  | .transformItem item newId newCount => some (Game.transformItem env w item newId newCount).2

/-- The items that start a trade exist. A house deed is new, and it goes to another player. -/
def Op.Valid (w : World) : Op → Prop
  | .playerRequestTrade _ _ tradeThing _ => ∀ item, tradeThing = some item → item < w.next
  | .houseStartTrade player tradePartner transferItem =>
    player ≠ tradePartner ∧ transferItem < w.next ∧ w.tradeItems transferItem = none
  | _ => True

def operations (env : Env) : Run.System World Op where
  init w := (∀ p, w.trade p = Trade.none) ∧ ∀ i, w.tradeItems i = none
  step w op w' := op.Valid w ∧ op.apply env w = some w'

variable {env : Env} {w w' : World} {p q : PlayerId}

theorem Op.apply_cases (hw : w.trades.Consistent) (hoffered : Offered w) {op : Op}
    (hop : op.Valid w) (h : op.apply env w = some w') :
    Closes w w' ∨
      (∃ p q item, p ≠ q ∧ w.tradeItems item = none ∧ item < w.next ∧
        w' = internalStartTrade w p q item) ∨
      ∃ p, op = .playerAcceptTrade p ∧ Game.playerAcceptTrade env w p = some w' := by
  cases op with
  | playerRequestTrade player tradePartner tradeThing spriteMatches =>
    cases h
    rcases playerRequestTrade_cases env player tradePartner tradeThing spriteMatches hw hoffered with
      hsame | ⟨item, hthing, hne, hfree, hstart⟩
    · rw [hsame]
      exact .inl (.refl w)
    · exact .inr (.inl ⟨player, tradePartner, item, hne, hfree, hop item hthing, hstart⟩)
  | houseStartTrade player tradePartner transferItem =>
    cases h
    exact .inr (.inl ⟨player, tradePartner, transferItem, hop.1, hop.2.2, hop.2.1, rfl⟩)
  | playerAcceptTrade player => exact .inr (.inr ⟨player, rfl, h⟩)
  | playerCloseTrade player =>
    cases h
    unfold Game.playerCloseTrade
    split_ifs
    · exact .inl (.close w player)
    · exact .inl (.refl w)
  | internalCloseTrade player =>
    cases h
    exact .inl (.close w player)
  | placeCreature player =>
    cases h
    exact .inl (.other rfl le_rfl)
  | onRemoveCreature player =>
    cases h
    exact .inl (onRemoveCreature_closes w player)
  | moveCreature player pos =>
    cases h
    exact .inl (moveCreature_closes w player pos)
  | internalMoveItem mv =>
    obtain ⟨⟨ret, w₁⟩, hmove, rfl⟩ := Option.map_eq_some_iff.mp h
    exact .inl (internalMoveItem_closes env w hmove)
  | internalAddItem toCylinder item index flags =>
    obtain ⟨added, hadd, rfl⟩ := Option.map_eq_some_iff.mp h
    exact .inl (internalAddItem_closes env w hadd)
  | internalRemoveItem item count flags =>
    cases h
    exact .inl (internalRemoveItem_closes env w item count false flags)
  | transformItem item newId newCount =>
    cases h
    exact .inl (transformItem_closes env w item newId newCount)

/-! ## What every run keeps -/

structure Sound (w : World) : Prop where
  consistent : w.trades.Consistent
  offered : Offered w

theorem sound_init (hw : (operations env).init w) : Sound w := by
  obtain ⟨htrade, hitems⟩ := hw
  have hnone : ∀ r, w.trades.trade r = Trade.none := htrade
  refine ⟨⟨fun r s hrs => ?_, fun r hr => ?_, fun r => ?_, fun r _ => ?_, fun i r => ?_⟩,
    fun r i hi => ?_⟩
  · rw [hnone] at hrs
    cases hrs
  · rw [hnone] at hr
    cases hr
  · rw [hnone]
    simp [Trade.none]
  · rw [hnone]
    rfl
  · rw [hnone, show w.trades.tradeItems i = none from hitems i]
    simp [Trade.none]
  · rw [htrade] at hi
    cases hi

theorem Sound.step (hw : Sound w) {op : Op} (hop : op.Valid w)
    (h : op.apply env w = some w') : Sound w' := by
  rcases Op.apply_cases hw.consistent hw.offered hop h with
    hclose | ⟨p, q, item, hne, hfree, hnext, rfl⟩ | ⟨p, -, haccept⟩
  · exact ⟨hclose.consistent hw.consistent, offered_of_closes hclose hw.offered⟩
  · refine ⟨internalStartTrade_consistent hw.consistent hne hfree, fun r => ?_⟩
    rw [next_internalStartTrade]
    refine internalStartTrade_forall_trade
      (P := fun t => ∀ i, t.tradeItem = some i → i < w.next) ?_ ?_ hne hw.offered r
    · intro i hi
      cases hi
      exact hnext
    · exact fun hq => hq
  · refine ⟨playerAcceptTrade_consistent hw.consistent haccept, fun r i hi => ?_⟩
    refine lt_of_lt_of_le ?_ (playerAcceptTrade_next_le haccept)
    refine playerAcceptTrade_forall_trade (P := fun t => ∀ i, t.tradeItem = some i → i < w.next)
      hw.consistent ?_ ?_ ?_ hw.offered haccept r i hi
    · intro i hi
      cases hi
    · exact fun _ ht => ht
    · exact fun _ => hw.offered p

theorem sound_of_reachable (h : Run.Reachable (operations env) w) : Sound w :=
  h.invariant (fun _ => sound_init) fun _ _ _ hw ⟨hop, hstep⟩ => hw.step hop hstep

/-- Partners point at each other, exactly the idle players have none, and the lock table holds
exactly the offered items. -/
theorem paired_and_locked_of_reachable (h : Run.Reachable (operations env) w) (p q : PlayerId)
    (i : ItemRef) :
    ((w.trade p).tradePartner = some q ↔ (w.trade q).tradePartner = some p) ∧
      ((w.trade p).tradeState = .none ↔ (w.trade p).tradePartner = none) ∧
      (w.tradeItems i = some p ↔ (w.trade p).tradeItem = some i) ∧
      ((w.trade p).tradeState = .none → (w.trade p).tradeItem = none ∧ w.tradeItems i ≠ some p) := by
  have hw := (sound_of_reachable h).consistent
  refine ⟨⟨hw.symm p q, hw.symm q p⟩, hw.none_iff p, hw.locked i p, fun hnone => ?_⟩
  have hitem : (w.trade p).tradeItem = none := hw.noOffer p (.inl hnone)
  refine ⟨hitem, fun hlocked => ?_⟩
  rw [show (w.trade p).tradeItem = some i from (hw.locked i p).mp hlocked] at hitem
  cases hitem

/-! ### A bag that is offered -/

def wornBag : World :=
  let w := World.ofItems [sampleItem bag 1, sampleItem bread 1]
  let w := (w.setSlot 0 CONST_SLOT_BACKPACK (some 0)).setParent 0 (some (.player 0))
  (w.setSlot 1 CONST_SLOT_LEFT (some 1)).setParent 1 (some (.player 1))

theorem wornBag_init : (operations (Env.quiet sampleItems)).init wornBag :=
  ⟨fun _ => rfl, fun _ => rfl⟩

def bagOffered : World := playerRequestTrade (Env.quiet sampleItems) wornBag 0 1 (some 0) true

theorem bagOffered_step : (operations (Env.quiet sampleItems)).step wornBag
    (.playerRequestTrade 0 1 (some 0) true) bagOffered :=
  ⟨fun item h => by cases h; decide, rfl⟩

theorem paired_and_locked_of_bagOffered :
    (bagOffered.tradeItems 0 = some 0 ↔ (bagOffered.trade 0).tradeItem = some 0) ∧
      (bagOffered.trade 0).tradeItem = some 0 :=
  ⟨(paired_and_locked_of_reachable
    (Run.Reachable.step' (.init wornBag_init) bagOffered_step) 0 1 0).2.2.1, by decide⟩

/-! ## Accepting without an offer -/

/-- A player who has been asked for a trade does not accept before offering an item. -/
def Op.Countered (w : World) : Op → Prop
  | .playerAcceptTrade player => (w.trade player).tradeState ≠ .acknowledge
  | _ => True

/-- A trade that its player has started or accepted has an item. -/
def Backed (t : Trade) : Prop :=
  t.tradeState = .initiated ∨ t.tradeState = .accept → t.tradeItem.isSome = true

theorem backed_step (hw : Sound w) (hbacked : ∀ r, Backed (w.trade r)) {op : Op}
    (hop : op.Valid w) (hcountered : op.Countered w) (h : op.apply env w = some w')
    (r : PlayerId) : Backed (w'.trade r) := by
  have hnone : Backed Trade.none := fun h => by
    rcases h with h | h <;> cases h
  rcases Op.apply_cases hw.consistent hw.offered hop h with
    hclose | ⟨p, q, item, hne, -, -, rfl⟩ | ⟨p, rfl, haccept⟩
  · exact hclose.forall_trade hnone hbacked r
  · refine internalStartTrade_forall_trade (fun _ => rfl) (fun _ h => ?_) hne hbacked r
    rcases h with h | h <;> cases h
  · refine playerAcceptTrade_forall_trade hw.consistent hnone (fun t _ h => ?_)
      (fun hstate _ => ?_) hbacked haccept r
    · rcases h with h | h <;> cases h
    · exact hbacked p (.inl (hstate.resolve_left hcountered))

theorem backed_of_reachable
    (h : Run.ReachableBy (operations env) (fun w op => op.Countered w) w) :
    Sound w ∧ ∀ r, Backed (w.trade r) := by
  refine h.invariant (I := fun w => Sound w ∧ ∀ r, Backed (w.trade r)) (fun w hw => ?_) ?_
  · refine ⟨sound_init hw, fun r => ?_⟩
    rw [hw.1 r]
    rintro (hstate | hstate) <;> cases hstate
  · rintro w op w' ⟨hw, hbacked⟩ hcountered ⟨hop, hstep⟩
    exact ⟨hw.step hop hstep, backed_step hw hbacked hop hcountered hstep⟩

def breadOffered : World := playerRequestTrade (Env.quiet sampleItems) bagOffered 1 0 (some 1) true

end Trading

end Eloth
