import Eloth.TradeNotices
import Eloth.Trading

/-!
# Consistent trades

Partners point at each other, and the lock table lists exactly the offered items. Starting and
closing a trade keep this, and a transfer keeps it for everybody else until it is over.
-/

namespace Eloth

namespace Trades

/-- The lock table lists the offered items, each for the player who offers it. -/
def Locked (T : Trades) : Prop :=
  ∀ i p, T.tradeItems i = some p ↔ (T.trade p).tradeItem = some i

structure Consistent (T : Trades) : Prop where
  symm : ∀ p q, (T.trade p).tradePartner = some q → (T.trade q).tradePartner = some p
  irrefl : ∀ p, (T.trade p).tradePartner ≠ some p
  none_iff : ∀ p, (T.trade p).tradeState = .none ↔ (T.trade p).tradePartner = none
  noOffer : ∀ p, (T.trade p).tradeState = .none ∨ (T.trade p).tradeState = .acknowledge →
    (T.trade p).tradeItem = none
  locked : T.Locked

/-- The player's trade ends, and the offered item is no longer locked. -/
def drop (T : Trades) (p : PlayerId) : Trades where
  trade := Function.update T.trade p Trade.none
  tradeItems i := if (T.trade p).tradeItem = some i then none else T.tradeItems i

@[simp] theorem drop_trade (T : Trades) (p r : PlayerId) :
    (T.drop p).trade r = if r = p then Trade.none else T.trade r := by
  by_cases h : r = p
  · simp [drop, h]
  · simp [drop, h]

variable {T T' : Trades}

theorem Consistent.remove {S : PlayerId → Prop} [DecidablePred S] (hT : T.Consistent)
    (hS : ∀ p q, (T.trade p).tradePartner = some q → S p → S q)
    (htrade : ∀ p, T'.trade p = if S p then Trade.none else T.trade p)
    (hitems : ∀ i, T'.tradeItems i = (T.tradeItems i).filter fun p => ¬ S p) :
    T'.Consistent := by
  refine ⟨fun p q hpq => ?_, fun p hp => ?_, fun p => ?_, fun p hp => ?_, fun i p => ?_⟩
  · rw [htrade] at hpq ⊢
    split_ifs at hpq with hp
    · cases hpq
    · have hqp := hT.symm p q hpq
      rw [if_neg fun hq => hp (hS q p hqp hq)]
      exact hqp
  · rw [htrade] at hp
    split_ifs at hp
    · cases hp
    · exact hT.irrefl p hp
  · rw [htrade]
    split_ifs
    · exact ⟨fun _ => rfl, fun _ => rfl⟩
    · exact hT.none_iff p
  · rw [htrade] at hp ⊢
    split_ifs at hp ⊢
    · rfl
    · exact hT.noOffer p hp
  · rw [hitems, htrade, Option.filter_eq_some_iff, hT.locked i p]
    split_ifs with hp <;> simp [hp, Trade.none]

theorem Locked.drop_tradeItems (hT : T.Locked) (p : PlayerId) (i : ItemRef) :
    (T.drop p).tradeItems i = (T.tradeItems i).filter fun q => q ≠ p := by
  unfold Trades.drop
  dsimp only
  cases hi : T.tradeItems i with
  | none =>
    rw [if_neg fun h => ?_]
    · rfl
    · rw [(hT i p).mpr h] at hi
      cases hi
  | some q =>
    have hiff := hT i p
    rw [hi] at hiff
    by_cases hq : q = p
    · subst hq
      rw [if_pos (hiff.mp rfl)]
      simp [Option.filter_some]
    · rw [if_neg fun h => hq (Option.some.inj (hiff.mpr h))]
      simp [Option.filter_some, hq]

theorem Locked.drop (hT : T.Locked) (p : PlayerId) : (T.drop p).Locked := by
  intro i q
  rw [hT.drop_tradeItems, drop_trade, Option.filter_eq_some_iff, hT i q]
  split_ifs with hq <;> simp [hq, Trade.none]

theorem Consistent.drop (hT : T.Consistent) {p : PlayerId}
    (hp : (T.trade p).tradePartner = none) : (T.drop p).Consistent := by
  refine hT.remove (S := fun r => r = p) (fun r s hrs hr => ?_) (drop_trade T p)
    (hT.locked.drop_tradeItems p)
  rw [hr, hp] at hrs
  cases hrs

theorem drop_drop_trade (T : Trades) (p q r : PlayerId) :
    ((T.drop p).drop q).trade r = if r = p ∨ r = q then Trade.none else T.trade r := by
  rw [drop_trade, drop_trade]
  split_ifs <;> simp_all

theorem Locked.drop_drop_tradeItems (hT : T.Locked) (p q : PlayerId) (i : ItemRef) :
    ((T.drop p).drop q).tradeItems i = (T.tradeItems i).filter fun r => ¬(r = p ∨ r = q) := by
  rw [(hT.drop p).drop_tradeItems, hT.drop_tradeItems, Option.filter_filter]
  congr 1
  funext r
  simp [not_or]

theorem Consistent.pair_closed (hT : T.Consistent) {p q : PlayerId}
    (hpq : (T.trade p).tradePartner = some q) (r s : PlayerId)
    (hrs : (T.trade r).tradePartner = some s) (hr : r = p ∨ r = q) : s = p ∨ s = q := by
  rcases hr with rfl | rfl
  · rw [hpq] at hrs
    exact .inr (Option.some.inj hrs).symm
  · rw [hT.symm p r hpq] at hrs
    exact .inl (Option.some.inj hrs).symm

theorem Consistent.drop_drop (hT : T.Consistent) {p q : PlayerId}
    (hpq : (T.trade p).tradePartner = some q) : ((T.drop p).drop q).Consistent :=
  hT.remove (S := fun r => r = p ∨ r = q) (hT.pair_closed hpq) (drop_drop_trade T p q)
    (hT.locked.drop_drop_tradeItems p q)

/-- The trades as `Game::internalCloseTrade` leaves them. -/
def close (T : Trades) (p : PlayerId) : Trades :=
  match (T.trade p).tradePartner with
  | none => if (T.trade p).tradeState = .transfer then T else T.drop p
  | some q =>
    if (T.trade q).tradeState = .transfer ∨ (T.trade p).tradeState = .transfer then T
    else (T.drop p).drop q

theorem Consistent.close (hT : T.Consistent) (p : PlayerId) : (T.close p).Consistent := by
  unfold Trades.close
  split
  · rename_i hp
    split_ifs
    · exact hT
    · exact hT.drop hp
  · rename_i q hp
    split_ifs
    · exact hT
    · exact hT.drop_drop hp

theorem Consistent.start (hT : T.Consistent) {p q : PlayerId} {i : ItemRef} (hne : p ≠ q)
    (hfree : T.tradeItems i = none)
    (hfrom : ((T.trade p).tradePartner = none ∨ (T.trade p).tradePartner = some q) ∧
      ((T.trade q).tradePartner = none ∨ (T.trade q).tradePartner = some p))
    (hitem : (T.trade p).tradeItem = none)
    (hp : T'.trade p =
      { tradeState := .initiated, tradePartner := some q, tradeItem := some i })
    (hq : (T'.trade q).tradePartner = some p)
    (hqitem : (T'.trade q).tradeState ≠ .none ∧ (T'.trade q).tradeItem = (T.trade q).tradeItem ∧
      ((T'.trade q).tradeState = .acknowledge → (T.trade q).tradeItem = none))
    (hothers : ∀ r, r ≠ p → r ≠ q → T'.trade r = T.trade r)
    (hlock : T'.tradeItems = Function.update T.tradeItems i (some p)) : T'.Consistent := by
  -- Nobody else points at one of the two.
  have hapart : ∀ r s, r ≠ p → r ≠ q → (T.trade r).tradePartner = some s → s ≠ p ∧ s ≠ q := by
    intro r s hrp hrq hrs
    have hback := hT.symm r s hrs
    constructor
    · rintro rfl
      rcases hfrom.1 with h | h
      · rw [h] at hback
        cases hback
      · rw [h] at hback
        exact hrq (Option.some.inj hback).symm
    · rintro rfl
      rcases hfrom.2 with h | h
      · rw [h] at hback
        cases hback
      · rw [h] at hback
        exact hrp (Option.some.inj hback).symm
  refine ⟨fun r s hrs => ?_, fun r hr => ?_, fun r => ?_, fun r hr => ?_, fun j r => ?_⟩
  · by_cases hrp : r = p
    · subst hrp
      rw [hp] at hrs
      cases hrs
      exact hq
    · by_cases hrq : r = q
      · subst hrq
        rw [hq] at hrs
        cases hrs
        rw [hp]
      · rw [hothers r hrp hrq] at hrs
        obtain ⟨hsp, hsq⟩ := hapart r s hrp hrq hrs
        rw [hothers s hsp hsq]
        exact hT.symm r s hrs
  · by_cases hrp : r = p
    · subst hrp
      rw [hp] at hr
      exact hne (Option.some.inj hr).symm
    · by_cases hrq : r = q
      · subst hrq
        rw [hq] at hr
        exact hne (Option.some.inj hr)
      · rw [hothers r hrp hrq] at hr
        exact hT.irrefl r hr
  · by_cases hrp : r = p
    · subst hrp
      simp [hp]
    · by_cases hrq : r = q
      · subst hrq
        simp [hq, hqitem.1]
      · rw [hothers r hrp hrq]
        exact hT.none_iff r
  · by_cases hrp : r = p
    · subst hrp
      simp [hp] at hr
    · by_cases hrq : r = q
      · subst hrq
        rw [hqitem.2.1]
        exact hqitem.2.2 (hr.resolve_left hqitem.1)
      · rw [hothers r hrp hrq] at hr ⊢
        exact hT.noOffer r hr
  · have hold := hT.locked j r
    have hnew := hT.locked i r
    rw [hfree] at hnew
    rw [hlock]
    by_cases hj : j = i
    · subst hj
      rw [Function.update_self]
      by_cases hrp : r = p
      · subst hrp
        simp [hp]
      · by_cases hrq : r = q
        · subst hrq
          rw [hqitem.2.1, ← hnew]
          simp [Ne.symm hrp]
        · rw [hothers r hrp hrq, ← hnew]
          simp [Ne.symm hrp]
    · rw [Function.update_of_ne hj, hold]
      by_cases hrp : r = p
      · subst hrp
        simp [hp, hitem, Ne.symm hj]
      · by_cases hrq : r = q
        · subst hrq
          rw [hqitem.2.1]
        · rw [hothers r hrp hrq]

/-! ## A transfer that is running -/

/-- The trades of everybody but the two players. -/
def others (T : Trades) (p q : PlayerId) : Trades where
  trade r := if r = p ∨ r = q then Trade.none else T.trade r
  tradeItems := T.tradeItems

/-- The two players hand over their items, and nothing is locked for them. -/
structure Transferring (T : Trades) (p q : PlayerId) : Prop where
  left : (T.trade p).tradeState = .transfer ∧ (T.trade p).tradePartner = some q
  right : (T.trade q).tradeState = .transfer ∧ (T.trade q).tradePartner = some p
  others : (T.others p q).Consistent

theorem others_drop {p q r : PlayerId} (hp : r ≠ p) (hq : r ≠ q) :
    (T.drop r).others p q = (T.others p q).drop r := by
  unfold Trades.others Trades.drop
  congr 1
  · funext s
    by_cases hs : s = r
    · simp [hs, hp, hq]
    · simp [hs]
  · simp [hp, hq]

theorem others_close {p q r : PlayerId} (hp : r ≠ p) (hq : r ≠ q)
    (hpartner : ∀ s, (T.trade r).tradePartner = some s → s ≠ p ∧ s ≠ q) :
    (T.close r).others p q = (T.others p q).close r := by
  have hother : ∀ s, s ≠ p → s ≠ q → (T.others p q).trade s = T.trade s := fun s h h' =>
    if_neg (not_or.mpr ⟨h, h'⟩)
  unfold Trades.close
  rw [hother r hp hq]
  cases hs : (T.trade r).tradePartner with
  | none =>
    dsimp only
    split_ifs
    · rfl
    · exact others_drop hp hq
  | some s =>
    obtain ⟨hsp, hsq⟩ := hpartner s hs
    dsimp only
    rw [hother s hsp hsq]
    split_ifs
    · rfl
    · rw [others_drop hsp hsq, others_drop hp hq]

theorem close_trade_of_ne {p r : PlayerId} (hp : p ≠ r) (h : (T.trade r).tradePartner ≠ some p) :
    (T.close r).trade p = T.trade p := by
  unfold Trades.close
  cases hs : (T.trade r).tradePartner with
  | none =>
    dsimp only
    split_ifs
    · rfl
    · rw [drop_trade, if_neg hp]
  | some s =>
    have hps : p ≠ s := fun he => h (by rw [hs, he])
    dsimp only
    split_ifs
    · rfl
    · rw [drop_drop_trade, if_neg (not_or.mpr ⟨hp, hps⟩)]

theorem close_trade_cases (p r : PlayerId) :
    (T.close p).trade r = Trade.none ∨ (T.close p).trade r = T.trade r := by
  unfold Trades.close
  split <;> split_ifs
  · exact .inr rfl
  · rw [drop_trade]
    split_ifs <;> simp
  · exact .inr rfl
  · rw [drop_drop_trade]
    split_ifs <;> simp

theorem Transferring.close {p q : PlayerId} (hT : T.Transferring p q) (r : PlayerId) :
    (T.close r).Transferring p q := by
  by_cases hr : r = p ∨ r = q
  · have hstay : T.close r = T := by
      unfold Trades.close
      rcases hr with rfl | rfl
      · rw [hT.left.2]
        simp [hT.left.1]
      · rw [hT.right.2]
        simp [hT.right.1]
    rwa [hstay]
  · obtain ⟨hp, hq⟩ := not_or.mp hr
    have hother : (T.others p q).trade r = T.trade r := if_neg hr
    have hpartner : ∀ s, (T.trade r).tradePartner = some s → s ≠ p ∧ s ≠ q := by
      intro s hs
      have hback := hT.others.symm r s (by rw [hother, hs])
      by_contra hnot
      have hsp : s = p ∨ s = q := by tauto
      rw [show (T.others p q).trade s = Trade.none from if_pos hsp] at hback
      cases hback
    refine ⟨?_, ?_, ?_⟩
    · rw [close_trade_of_ne (Ne.symm hp) fun h => (hpartner p h).1 rfl]
      exact hT.left
    · rw [close_trade_of_ne (Ne.symm hq) fun h => (hpartner q h).2 rfl]
      exact hT.right
    · rw [others_close hp hq hpartner]
      exact hT.others.close r

end Trades

open Trades

namespace Game

/-! ## Closing -/

variable {w : World} {p q : PlayerId}

theorem trade_unlockTradeItem (w : World) (item : Option ItemRef) :
    (unlockTradeItem w item).trade = w.trade := by
  unfold unlockTradeItem
  split
  · rfl
  · split_ifs <;> rfl

theorem next_unlockTradeItem (w : World) (item : Option ItemRef) :
    (unlockTradeItem w item).next = w.next := by
  unfold unlockTradeItem
  split
  · rfl
  · split_ifs <;> rfl

theorem tradeItems_unlockTradeItem (w : World) (item : Option ItemRef) (i : ItemRef) :
    (unlockTradeItem w item).tradeItems i = if item = some i then none else w.tradeItems i := by
  unfold unlockTradeItem
  cases item with
  | none => rfl
  | some r =>
    dsimp only
    by_cases hi : r = i
    · subst hi
      cases hr : w.tradeItems r <;> simp [hr]
    · split_ifs <;> simp_all [Ne.symm hi]

theorem trades_closeHalf (w : World) (p : PlayerId) : (closeHalf w p).trades = w.trades.drop p := by
  unfold closeHalf World.trades Trades.drop World.setTrade
  congr 1
  · rw [trade_unlockTradeItem]
  · funext i
    exact tradeItems_unlockTradeItem w _ i

theorem trades_internalCloseTrade (w : World) (p : PlayerId) :
    (internalCloseTrade w p).trades = w.trades.close p := by
  have htrade : ∀ r, w.trades.trade r = w.trade r := fun _ => rfl
  unfold internalCloseTrade Trades.close isTransferring
  rw [htrade]
  cases hs : (w.trade p).tradePartner with
  | none =>
    dsimp only
    by_cases hp : (w.trade p).tradeState = .transfer
    · simp [hp]
    · simp [hp, trades_closeHalf]
  | some q =>
    dsimp only
    rw [htrade]
    by_cases h : (w.trade q).tradeState = .transfer ∨ (w.trade p).tradeState = .transfer
    · rw [if_pos h, if_pos (by simpa using h)]
    · rw [if_neg h, if_neg (by simpa using h), trades_closeHalf, trades_closeHalf]

end Game

namespace Closes

variable {w w' : World} {p q : PlayerId}

theorem consistent (h : Closes w w') (hw : w.trades.Consistent) :
    w'.trades.Consistent := by
  refine h.induction (I := fun w => w.trades.Consistent) hw ?_ ?_
  · intro w w' htrades _ hw
    rw [htrades]
    exact hw
  · intro w p hw
    rw [Game.trades_internalCloseTrade]
    exact hw.close p

theorem transferring (h : Closes w w') (hw : w.trades.Transferring p q) :
    w'.trades.Transferring p q := by
  refine h.induction (I := fun w => w.trades.Transferring p q) hw ?_ ?_
  · intro w w' htrades _ hw
    rw [htrades]
    exact hw
  · intro w r hw
    rw [Game.trades_internalCloseTrade]
    exact hw.close r

theorem forall_trade {P : Trade → Prop} (h : Closes w w')
    (hnone : P Trade.none) (hw : ∀ r, P (w.trade r)) (r : PlayerId) : P (w'.trade r) := by
  refine h.induction (I := fun w => ∀ r, P (w.trade r)) hw ?_ ?_ r
  · intro w w' htrades _ hw r
    rw [show w'.trade = w.trade from congrArg Trades.trade htrades]
    exact hw r
  · intro w p hw r
    have htrade : (Game.internalCloseTrade w p).trade r = (w.trades.close p).trade r :=
      congrFun (congrArg Trades.trade (Game.trades_internalCloseTrade w p)) r
    rw [htrade]
    rcases close_trade_cases (T := w.trades) p r with hidle | hsame
    · rwa [hidle]
    · rw [hsame]
      exact hw r

theorem next_le (h : Closes w w') : w.next ≤ w'.next := by
  refine h.induction (I := fun w' => w.next ≤ w'.next) le_rfl ?_ ?_
  · intro w₁ w₂ _ hnext hw
    exact hw.trans hnext
  · intro w₁ p hw
    rw [next_of_untraded (untraded_internalCloseTrade w₁ p)]
    exact hw

end Closes

namespace Game

variable {w : World} {p q : PlayerId}

/-! ## Starting -/

theorem internalStartTrade_consistent {i : ItemRef} (hw : w.trades.Consistent) (hne : p ≠ q)
    (hfree : w.tradeItems i = none) : (internalStartTrade w p q i).trades.Consistent := by
  unfold internalStartTrade
  dsimp only
  split_ifs with hown hother hnone
  · exact hw
  · exact hw
  · -- The partner was idle, so the player cannot have been waiting for an answer of theirs.
    have hidle : (w.trade q).tradeState = .none := by
      simpa [World.setTrade, Ne.symm hne] using hnone
    have hq : (w.trade q).tradePartner = none := (hw.none_iff q).mp hidle
    have hp : (w.trade p).tradePartner = none := by
      by_contra hsome
      have hbusy : (w.trade p).tradeState ≠ .none := fun h => hsome ((hw.none_iff p).mp h)
      have hback := hw.symm p q (by tauto)
      rw [show (w.trades.trade q).tradePartner = none from hq] at hback
      cases hback
    refine hw.start hne hfree (i := i) ⟨.inl hp, .inl hq⟩ ?_ ?_ ?_ ?_ ?_ rfl
    · exact hw.noOffer p (.inl ((hw.none_iff p).mpr hp))
    · simp [World.trades, World.setTrade, hne]
    · simp [World.trades, World.setTrade]
    · have hitem : (w.trade q).tradeItem = none := hw.noOffer q (.inl hidle)
      simp [World.trades, World.setTrade, Ne.symm hne, hitem]
    · intro r hrp hrq
      simp [World.trades, World.setTrade, hrp, hrq]
  · have hbusy : (w.trade q).tradeState ≠ .none := by
      simpa [World.setTrade, Ne.symm hne] using hnone
    have hq : (w.trade q).tradePartner = some p := by tauto
    have hp : (w.trade p).tradePartner = some q := hw.symm q p hq
    have hitem : (w.trade p).tradeItem = none := by
      have hstate : (w.trade p).tradeState ≠ .none := fun h => by
        have hnone := (hw.none_iff p).mp h
        rw [show (w.trades.trade p).tradePartner = some q from hp] at hnone
        cases hnone
      exact hw.noOffer p (.inr (by tauto))
    refine hw.start hne hfree (i := i) ⟨.inr hp, .inr hq⟩ hitem ?_ ?_ ?_ ?_ rfl
    · simp [World.trades, World.setTrade]
    · simpa [World.trades, World.setTrade, Ne.symm hne] using hq
    · have hsame := hw.noOffer q
      have hkeep : ¬(w.trade q).tradeState = .none := hbusy
      simp [World.trades, World.setTrade, Ne.symm hne, hkeep] at hsame ⊢
      exact hsame
    · intro r hrp hrq
      simp [World.trades, World.setTrade, hrp]

/-! ## Transferring -/

variable {env : Env} {w' : World}

theorem tradeMove_closes {item : ItemRef} {receiver : PlayerId} {tradeItem : Option ItemRef}
    {ret : ReturnValue} (h : tradeMove env w item receiver tradeItem = some (ret, w')) :
    Closes w w' := by
  obtain ⟨source, -, hmove⟩ := Option.bind_eq_some_iff.mp h
  exact internalMoveItem_closes env w hmove

theorem onTradeTransfer_closes (item : ItemRef) : Closes w (onTradeTransfer env w item) := by
  unfold onTradeTransfer
  split
  · exact internalRemoveItem_closes env w item (some 1) false 0
  · exact .refl w

theorem exchangeGoods_closes {playerItem partnerItem : ItemRef}
    (h : exchangeGoods env w p q playerItem partnerItem = some w') : Closes w w' := by
  obtain ⟨⟨ret, w₁⟩, hfirst, hrest⟩ := Option.bind_eq_some_iff.mp h
  have hclose := tradeMove_closes hfirst
  dsimp only at hrest
  split_ifs at hrest
  · cases hrest
    exact hclose
  · obtain ⟨⟨ret₂, w₂⟩, hsecond, rfl⟩ := Option.map_eq_some_iff.mp hrest
    exact ((hclose.trans (tradeMove_closes hsecond)).trans (onTradeTransfer_closes playerItem)).trans
      (onTradeTransfer_closes partnerItem)

theorem tryExchange_closes {playerItem partnerItem : Option ItemRef}
    (h : tryExchange env w p q playerItem partnerItem = some w') : Closes w w' := by
  obtain ⟨may, -, hrest⟩ := Option.bind_eq_some_iff.mp h
  split at hrest
  · split_ifs at hrest
    · exact exchangeGoods_closes hrest
    · cases hrest
      exact .refl w
  · cases hrest
    exact .refl w

def beginTransfer (w : World) (p q : PlayerId) : World :=
  let playerItem := (w.trade p).tradeItem
  let partnerItem := (w.trade q).tradeItem
  let w := w.setTrade p { w.trade p with tradeState := .transfer }
  let w := w.setTrade q { w.trade q with tradeState := .transfer }
  unlockTradeItem (unlockTradeItem w playerItem) partnerItem

theorem beginTransfer_trade (hne : p ≠ q) (r : PlayerId) :
    (beginTransfer w p q).trade r =
      if r = p ∨ r = q then { w.trade r with tradeState := .transfer } else w.trade r := by
  unfold beginTransfer
  rw [trade_unlockTradeItem, trade_unlockTradeItem]
  by_cases hp : r = p
  · subst hp
    simp [World.setTrade, hne]
  · by_cases hq : r = q
    · subst hq
      simp [World.setTrade, hp]
    · simp [World.setTrade, hp, hq]

theorem others_beginTransfer (hne : p ≠ q) :
    (beginTransfer w p q).trades.others p q = (w.trades.drop p).drop q := by
  have htrade : ∀ r, ((beginTransfer w p q).trades.others p q).trade r =
      ((w.trades.drop p).drop q).trade r := by
    intro r
    rw [drop_drop_trade]
    change (if r = p ∨ r = q then Trade.none else (beginTransfer w p q).trade r) = _
    rw [beginTransfer_trade hne]
    split_ifs <;> rfl
  have hitems : ∀ i, ((beginTransfer w p q).trades.others p q).tradeItems i =
      ((w.trades.drop p).drop q).tradeItems i := by
    intro i
    have hkeep : (w.trades.drop p).trade q = w.trade q := by
      rw [drop_trade, if_neg (Ne.symm hne)]
      rfl
    change (unlockTradeItem _ (w.trade q).tradeItem).tradeItems i =
      if ((w.trades.drop p).trade q).tradeItem = some i then none else
        if (w.trade p).tradeItem = some i then none else w.tradeItems i
    rw [tradeItems_unlockTradeItem, tradeItems_unlockTradeItem, hkeep]
    rfl
  have hext : ∀ T T' : Trades, (∀ r, T.trade r = T'.trade r) →
      (∀ i, T.tradeItems i = T'.tradeItems i) → T = T' := by
    rintro ⟨_, _⟩ ⟨_, _⟩ h h'
    congr 1
    · exact funext h
    · exact funext h'
  exact hext _ _ htrade hitems

theorem beginTransfer_transferring (hw : w.trades.Consistent)
    (hpq : (w.trade p).tradePartner = some q) :
    (beginTransfer w p q).trades.Transferring p q := by
  have hne : p ≠ q := fun h => hw.irrefl p (by rw [← h] at hpq; exact hpq)
  have hqp : (w.trade q).tradePartner = some p := hw.symm p q hpq
  refine ⟨?_, ?_, ?_⟩
  · have htrade := beginTransfer_trade (w := w) hne p
    rw [if_pos (.inl rfl)] at htrade
    change ((beginTransfer w p q).trade p).tradeState = _ ∧
      ((beginTransfer w p q).trade p).tradePartner = _
    rw [htrade]
    exact ⟨rfl, hpq⟩
  · have htrade := beginTransfer_trade (w := w) hne q
    rw [if_pos (.inr rfl)] at htrade
    change ((beginTransfer w p q).trade q).tradeState = _ ∧
      ((beginTransfer w p q).trade q).tradePartner = _
    rw [htrade]
    exact ⟨rfl, hqp⟩
  · rw [others_beginTransfer hne]
    exact hw.drop_drop hpq

theorem transferGoods_cases (h : transferGoods env w p q = some w') :
    ∃ w₁, Closes (beginTransfer w p q) w₁ ∧
      w' = (w₁.setTrade p Trade.none).setTrade q Trade.none := by
  obtain ⟨w₁, hexchange, rfl⟩ := Option.map_eq_some_iff.mp h
  exact ⟨w₁, tryExchange_closes hexchange, rfl⟩

theorem trades_endTransfer (w : World) (p q : PlayerId) :
    ((w.setTrade p Trade.none).setTrade q Trade.none).trades = w.trades.others p q := by
  unfold World.trades World.setTrade Trades.others
  congr 1
  funext r
  by_cases hr : r = q
  · simp [hr]
  · by_cases hr' : r = p
    · subst hr'
      simp [hr]
    · simp [hr, hr']

theorem transferGoods_consistent (hw : w.trades.Consistent)
    (hpq : (w.trade p).tradePartner = some q) (h : transferGoods env w p q = some w') :
    w'.trades.Consistent := by
  obtain ⟨w₁, hclose, rfl⟩ := transferGoods_cases h
  rw [trades_endTransfer]
  exact (hclose.transferring (beginTransfer_transferring hw hpq)).others

theorem next_beginTransfer (w : World) (p q : PlayerId) : (beginTransfer w p q).next = w.next := by
  unfold beginTransfer
  rw [next_unlockTradeItem, next_unlockTradeItem]
  rfl

theorem transferGoods_next_le (h : transferGoods env w p q = some w') : w.next ≤ w'.next := by
  obtain ⟨w₁, hclose, rfl⟩ := transferGoods_cases h
  exact (next_beginTransfer w p q).ge.trans hclose.next_le

theorem transferGoods_forall_trade {P : Trade → Prop} (hne : p ≠ q) (hnone : P Trade.none)
    (htransfer : ∀ t : Trade, P t → P { t with tradeState := .transfer })
    (hw : ∀ r, P (w.trade r)) (h : transferGoods env w p q = some w') (r : PlayerId) :
    P (w'.trade r) := by
  obtain ⟨w₁, hclose, rfl⟩ := transferGoods_cases h
  have hbegin : ∀ r, P ((beginTransfer w p q).trade r) := by
    intro r
    rw [beginTransfer_trade hne]
    split_ifs
    · exact htransfer _ (hw r)
    · exact hw r
  have htrade : ((w₁.setTrade p Trade.none).setTrade q Trade.none).trade r =
      (w₁.trades.others p q).trade r := congrFun (congrArg Trades.trade (trades_endTransfer w₁ p q)) r
  rw [htrade]
  change P (if r = p ∨ r = q then Trade.none else w₁.trade r)
  split_ifs
  · exact hnone
  · exact hclose.forall_trade hnone hbegin r

/-! ## Accepting -/

def accepted (w : World) (p : PlayerId) : World :=
  w.setTrade p { w.trade p with tradeState := .accept }

/-- An accept of the player is the one that both partners wait for. -/
def BothAccept (w : World) (p q : PlayerId) : Prop :=
  w.isOnline p = true ∧
    ((w.trade p).tradeState = .acknowledge ∨ (w.trade p).tradeState = .initiated) ∧
    (w.trade p).tradePartner = some q ∧ ((accepted w p).trade q).tradeState = .accept

theorem accepted_trade (w : World) (p r : PlayerId) :
    (accepted w p).trade r =
      if r = p then { w.trade r with tradeState := .accept } else w.trade r := by
  unfold accepted World.setTrade
  by_cases hr : r = p
  · subst hr
    simp
  · simp [hr]

theorem accepted_tradePartner (w : World) (p r : PlayerId) :
    ((accepted w p).trade r).tradePartner = (w.trade r).tradePartner := by
  rw [accepted_trade]
  split_ifs <;> rfl

theorem accepted_tradeItem (w : World) (p r : PlayerId) :
    ((accepted w p).trade r).tradeItem = (w.trade r).tradeItem := by
  rw [accepted_trade]
  split_ifs <;> rfl

theorem accepted_consistent (hw : w.trades.Consistent)
    (hpq : (w.trade p).tradePartner = some q) : (accepted w p).trades.Consistent := by
  refine ⟨fun r s hrs => ?_, fun r hr => ?_, fun r => ?_, fun r hr => ?_, fun i r => ?_⟩
  · exact (accepted_tradePartner w p s).trans
      (hw.symm r s ((accepted_tradePartner w p r).symm.trans hrs))
  · exact hw.irrefl r ((accepted_tradePartner w p r).symm.trans hr)
  · change ((accepted w p).trade r).tradeState = _ ↔ ((accepted w p).trade r).tradePartner = _
    rw [accepted_tradePartner, accepted_trade]
    split_ifs with h
    · subst h
      simp [hpq]
    · exact hw.none_iff r
  · change ((accepted w p).trade r).tradeItem = none
    change ((accepted w p).trade r).tradeState = _ ∨ ((accepted w p).trade r).tradeState = _ at hr
    rw [accepted_tradeItem]
    rw [accepted_trade] at hr
    split_ifs at hr with h
    · simp at hr
    · exact hw.noOffer r hr
  · change w.tradeItems i = some r ↔ ((accepted w p).trade r).tradeItem = some i
    rw [accepted_tradeItem]
    exact hw.locked i r

theorem playerAcceptTrade_cases (h : playerAcceptTrade env w p = some w') :
    w' = w ∨ ∃ q, ((w.trade p).tradeState = .acknowledge ∨ (w.trade p).tradeState = .initiated) ∧
      (w.trade p).tradePartner = some q ∧
      (w' = accepted w p ∨ w' = internalCloseTrade (accepted w p) p ∨
        BothAccept w p q ∧ transferGoods env (accepted w p) p q = some w') := by
  unfold playerAcceptTrade at h
  dsimp only at h
  split_ifs at h with honline hstate
  · cases h
    exact .inl rfl
  · cases h
    exact .inl rfl
  · have hstate' : (w.trade p).tradeState = .acknowledge ∨ (w.trade p).tradeState = .initiated := by
      tauto
    split at h
    · cases h
      exact .inl rfl
    · rename_i q hpq
      refine .inr ⟨q, hstate', hpq, ?_⟩
      split_ifs at h with haccept
      · cases h
        exact .inl rfl
      · cases h
        exact .inr (.inl rfl)
      · cases h
        exact .inr (.inl rfl)
      · exact .inr (.inr ⟨⟨by simpa using honline, hstate', hpq, not_not.mp haccept⟩, h⟩)

theorem playerAcceptTrade_consistent (hw : w.trades.Consistent)
    (h : playerAcceptTrade env w p = some w') : w'.trades.Consistent := by
  rcases playerAcceptTrade_cases h with rfl | ⟨q, -, hpq, rfl | rfl | ⟨-, htransfer⟩⟩
  · exact hw
  · exact accepted_consistent hw hpq
  · rw [trades_internalCloseTrade]
    exact (accepted_consistent hw hpq).close p
  · exact transferGoods_consistent (accepted_consistent hw hpq)
      ((accepted_tradePartner w p p).trans hpq) htransfer

theorem playerAcceptTrade_next_le (h : playerAcceptTrade env w p = some w') :
    w.next ≤ w'.next := by
  rcases playerAcceptTrade_cases h with rfl | ⟨q, -, -, rfl | rfl | ⟨-, htransfer⟩⟩
  · exact le_rfl
  · exact le_rfl
  · exact (Closes.close (accepted w p) p).next_le
  · exact transferGoods_next_le (w := accepted w p) htransfer

theorem playerAcceptTrade_forall_trade {P : Trade → Prop} (hw : w.trades.Consistent)
    (hnone : P Trade.none) (htransfer : ∀ t : Trade, P t → P { t with tradeState := .transfer })
    (haccept : (w.trade p).tradeState = .acknowledge ∨ (w.trade p).tradeState = .initiated →
      P { w.trade p with tradeState := .accept })
    (hall : ∀ r, P (w.trade r)) (h : playerAcceptTrade env w p = some w') (r : PlayerId) :
    P (w'.trade r) := by
  rcases playerAcceptTrade_cases h with rfl | ⟨q, hstate, hpq, hrest⟩
  · exact hall r
  have haccepted : ∀ r, P ((accepted w p).trade r) := by
    intro r
    rw [accepted_trade]
    split_ifs with hr
    · subst hr
      exact haccept hstate
    · exact hall r
  rcases hrest with rfl | rfl | ⟨-, hgoods⟩
  · exact haccepted r
  · exact (Closes.close (accepted w p) p).forall_trade hnone haccepted r
  · have hne : p ≠ q := fun he => hw.irrefl p (by rw [← he] at hpq; exact hpq)
    exact transferGoods_forall_trade hne hnone htransfer haccepted hgoods r

end Game

end Eloth
