import Eloth.Player
import Eloth.Sample

/-!
# What an npc would buy

`ProtocolGame::sendSaleItemList` counts what the player could sell. For up to five entries it goes
through the inventory once for each of them, for more it counts all items at once. Counts wrap as
unsigned numbers of 32 bits.
-/

namespace Eloth

structure ShopInfo where
  itemId : Nat
  subType : Int
  sellPrice : Nat

def Item.countByType (items : Items) (i : Item) (subType : Int) : UInt32 :=
  if subType = -1 ∨ subType = i.getSubType items then .ofNat i.getItemCount else 0

namespace Player

variable (env : Env) (w : World) (p : PlayerId)

/-- The loop over the inventory and all that its containers hold. -/
def foldItems {β : Type} (f : β → ItemRef → β) (init : β) : β :=
  inventorySlots.foldl (fun acc i =>
    match (w.player p).inventory i with
    | none => acc
    | some item =>
      if w.isContainer item then (w.holdingItems item).foldl f (f acc item) else f acc item) init

def getItemTypeCount (itemId : Nat) (subType : Int) : UInt32 :=
  foldItems w p (fun count item =>
    if (w.item item).id = itemId then count + (w.item item).countByType env.items subType
    else count) 0

/-- An id without an entry counts nothing. -/
def getAllItemTypeCount (countMap : Nat → UInt32) : Nat → UInt32 :=
  foldItems w p (fun countMap item =>
    Function.update countMap (w.item item).id
      (countMap (w.item item).id + (w.item item).countByType env.items (-1))) countMap

end Player

namespace ProtocolGame

variable (env : Env) (w : World) (p : PlayerId)

/-- The subtype that an entry asks for, cut to eight bits; -1 stands for any. -/
def subtype (shopInfo : ShopInfo) : Int :=
  let itemType := env.items.get shopInfo.itemId
  if itemType.hasSubType && !itemType.stackable then
    (if shopInfo.subType = 0 then -1 else shopInfo.subType).bmod 256
  else -1

def directCount (shopInfo : ShopInfo) : UInt32 :=
  Player.getItemTypeCount env w p shopInfo.itemId (subtype env shopInfo)

def cachedCount (tempSaleMap : Nat → UInt32) (shopInfo : ShopInfo) : UInt32 :=
  let itemType := env.items.get shopInfo.itemId
  if subtype env shopInfo ≠ -1 then
    if itemType.isFluidContainer || itemType.isSplash then
      Player.getItemTypeCount env w p shopInfo.itemId (subtype env shopInfo)
    else .ofInt (subtype env shopInfo)
  else tempSaleMap shopInfo.itemId

/-- One entry of the shop; an id that is not offered has no count. -/
def sell (count : ShopInfo → UInt32) (saleMap : Nat → UInt32) (shopInfo : ShopInfo) :
    Nat → UInt32 :=
  if shopInfo.sellPrice = 0 then saleMap
  else if 0 < count shopInfo then
    Function.update saleMap shopInfo.itemId (count shopInfo)
  else saleMap

def smallSaleMap (shop : List ShopInfo) : Nat → UInt32 :=
  shop.foldl (sell (directCount env w p)) fun _ => 0

def largeSaleMap (shop : List ShopInfo) : Nat → UInt32 :=
  let tempSaleMap := Player.getAllItemTypeCount env w p fun _ => 0
  shop.foldl (sell (cachedCount env w p tempSaleMap)) fun _ => 0

/-- The map that `sendSaleItemList` writes. -/
def saleMap (shop : List ShopInfo) : Nat → UInt32 :=
  if shop.length ≤ 5 then smallSaleMap env w p shop else largeSaleMap env w p shop

/-! ### The counts -/

section Counts

variable {env w p} {shop extra : List ShopInfo} {e : ShopInfo}

theorem foldItems_hom {β γ : Type} {f : β → ItemRef → β} {g : γ → ItemRef → γ} (φ : β → γ)
    (h : ∀ acc item, g (φ acc) item = φ (f acc item)) (init : β) :
    Player.foldItems w p g (φ init) = φ (Player.foldItems w p f init) := by
  refine List.foldl_hom φ fun acc i => ?_
  cases (w.player p).inventory i with
  | none => rfl
  | some item =>
    dsimp only
    split_ifs
    · rw [h]
      exact List.foldl_hom φ h
    · exact h acc item

/-- The count of all items at once holds the count of each id. -/
theorem getAllItemTypeCount_eq (itemId : Nat) :
    Player.getAllItemTypeCount env w p (fun _ => 0) itemId =
      Player.getItemTypeCount env w p itemId (-1) := by
  refine (foldItems_hom (fun countMap : Nat → UInt32 => countMap itemId)
    (fun countMap item => ?_) fun _ => 0).symm
  rw [Function.update_apply]
  split_ifs with h h' h'
  · rw [h]
  · exact absurd h.symm h'
  · exact absurd h'.symm h
  · rfl

/-- The type of the entry has charges, which the cached count does not look for. -/
def hasCharges (env : Env) (e : ShopInfo) : Prop :=
  subtype env e ≠ -1 ∧ (env.items.get e.itemId).isFluidContainer = false ∧
    (env.items.get e.itemId).isSplash = false

theorem cachedCount_eq :
    cachedCount env w p (Player.getAllItemTypeCount env w p fun _ => 0) e = directCount env w p e ↔
      (hasCharges env e → UInt32.ofInt (subtype env e) = directCount env w p e) := by
  rw [cachedCount, hasCharges]
  by_cases hsub : subtype env e = -1
  · rw [if_neg (not_not.mpr hsub), getAllItemTypeCount_eq, directCount, hsub]
    exact ⟨fun _ h => absurd rfl h.1, fun _ => rfl⟩
  · rw [if_pos hsub]
    by_cases hfluid : ((env.items.get e.itemId).isFluidContainer ||
        (env.items.get e.itemId).isSplash) = true
    · rw [if_pos hfluid]
      refine ⟨fun _ h => ?_, fun _ => rfl⟩
      rw [h.2.1, h.2.2] at hfluid
      cases hfluid
    · rw [if_neg hfluid]
      rw [Bool.not_eq_true, Bool.or_eq_false_iff] at hfluid
      exact ⟨fun h _ => h, fun h => h ⟨hsub, hfluid⟩⟩

/-! ### The map -/

theorem sell_of_ne (count : ShopInfo → UInt32) (saleMap : Nat → UInt32) {itemId : Nat}
    (h : e.itemId ≠ itemId) : sell count saleMap e itemId = saleMap itemId := by
  rw [sell]
  split_ifs
  · rfl
  · exact Function.update_of_ne h.symm _ _
  · rfl

theorem foldl_sell_of_ne (count : ShopInfo → UInt32) (saleMap : Nat → UInt32) {itemId : Nat}
    (h : ∀ x ∈ extra, x.itemId ≠ itemId) :
    extra.foldl (sell count) saleMap itemId = saleMap itemId := by
  induction extra generalizing saleMap with
  | nil => rfl
  | cons x extra ih =>
    rw [List.foldl_cons, ih _ fun y hy => h y (List.mem_cons_of_mem x hy)]
    exact sell_of_ne count saleMap (h x List.mem_cons_self)

/-- Entries of an id that count alike offer this count. -/
theorem foldl_sell_eq {count : ShopInfo → UInt32} {saleMap : Nat → UInt32} {itemId : Nat}
    {n : UInt32} (hcount : ∀ e ∈ shop, e.sellPrice ≠ 0 → e.itemId = itemId → count e = n)
    (hoffered : saleMap itemId = n ∨
      saleMap itemId = 0 ∧ ∃ e ∈ shop, e.sellPrice ≠ 0 ∧ e.itemId = itemId) :
    shop.foldl (sell count) saleMap itemId = n := by
  induction shop generalizing saleMap with
  | nil =>
    rcases hoffered with h | ⟨-, e, he, -⟩
    · exact h
    · cases he
  | cons x shop ih =>
    refine ih (fun e he => hcount e (List.mem_cons_of_mem x he)) ?_
    by_cases hx : x.sellPrice ≠ 0 ∧ x.itemId = itemId
    · have hn := hcount x List.mem_cons_self hx.1 hx.2
      rw [sell, if_neg hx.1, hn, hx.2]
      split_ifs with hpos
      · exact .inl (Function.update_self _ _ _)
      · have hzero : n = 0 := by
          rw [UInt32.lt_iff_toNat_lt, UInt32.toNat_zero, not_lt, Nat.le_zero] at hpos
          exact UInt32.toNat_inj.mp hpos
        rcases hoffered with h | ⟨h, -⟩
        · exact .inl h
        · exact .inl (h.trans hzero.symm)
    · have hsame : sell count saleMap x itemId = saleMap itemId := by
        by_cases hid : x.itemId = itemId
        · rw [sell, if_pos (by_contra fun hprice => hx ⟨hprice, hid⟩)]
        · exact sell_of_ne count saleMap hid
      rw [hsame]
      refine hoffered.imp_right fun ⟨hzero, e, he, hsold⟩ => ⟨hzero, e, ?_, hsold⟩
      rcases List.mem_cons.mp he with rfl | he
      · exact absurd hsold hx
      · exact he

/-- Both strategies count what the player has of each entry that the npc buys, and offer it,
whatever unrelated entries the shop has besides. -/
def OffersCounts (env : Env) (w : World) (p : PlayerId) (shop : List ShopInfo) : Prop :=
  ∀ e ∈ shop, e.sellPrice ≠ 0 →
    cachedCount env w p (Player.getAllItemTypeCount env w p fun _ => 0) e =
      directCount env w p e ∧
    ∀ extra : List ShopInfo, (∀ x ∈ extra, x.itemId ≠ e.itemId) →
      smallSaleMap env w p (shop ++ extra) e.itemId = directCount env w p e ∧
      largeSaleMap env w p (shop ++ extra) e.itemId = directCount env w p e ∧
      saleMap env w p (shop ++ extra) e.itemId = directCount env w p e

/-- The strategies offer the counts exactly if entries with charges ask for as many charges as the
player has such items, and entries of one id count alike. -/
theorem offersCounts_iff (env : Env) (w : World) (p : PlayerId) (shop : List ShopInfo) :
    OffersCounts env w p shop ↔
      (∀ e ∈ shop, e.sellPrice ≠ 0 → hasCharges env e →
        UInt32.ofInt (subtype env e) = directCount env w p e) ∧
      ∀ e ∈ shop, ∀ e' ∈ shop, e.sellPrice ≠ 0 → e'.sellPrice ≠ 0 → e.itemId = e'.itemId →
        directCount env w p e = directCount env w p e' := by
  constructor
  · intro h
    refine ⟨fun e he hsold => cachedCount_eq.mp (h e he hsold).1,
      fun e he e' he' hsold hsold' hid => ?_⟩
    have hoffer := ((h e he hsold).2 [] fun x hx => nomatch hx).1
    have hoffer' := ((h e' he' hsold').2 [] fun x hx => nomatch hx).1
    rw [← hid] at hoffer'
    exact hoffer.symm.trans hoffer'
  · rintro ⟨hcharges, halike⟩ e he hsold
    have hcached (x : ShopInfo) (hx : x ∈ shop) (hxsold : x.sellPrice ≠ 0) :=
      cachedCount_eq.mpr (hcharges x hx hxsold)
    refine ⟨hcached e he hsold, fun extra hextra => ?_⟩
    have hsmall : smallSaleMap env w p (shop ++ extra) e.itemId = directCount env w p e := by
      rw [smallSaleMap, List.foldl_append, foldl_sell_of_ne _ _ hextra]
      exact foldl_sell_eq (fun x hx hxsold hid => halike x hx e he hxsold hsold hid)
        (.inr ⟨rfl, e, he, hsold, rfl⟩)
    have hlarge : largeSaleMap env w p (shop ++ extra) e.itemId = directCount env w p e := by
      simp only [largeSaleMap, List.foldl_append]
      rw [foldl_sell_of_ne _ _ hextra]
      exact foldl_sell_eq
        (fun x hx hxsold hid => (hcached x hx hxsold).trans (halike x hx e he hxsold hsold hid))
        (.inr ⟨rfl, e, he, hsold, rfl⟩)
    refine ⟨hsmall, hlarge, ?_⟩
    rw [saleMap]
    split_ifs
    · exact hsmall
    · exact hlarge

end Counts

/-- An amulet with five charges. -/
def amulet : ItemType := { ItemType.default with id := 2197, charges := 5, pickupable := true }

/-- A player without any items is offered to sell five amulets, if the shop is large. -/
theorem not_offersCounts_amulet :
    ¬OffersCounts (Env.quiet (Items.ofEntries [amulet])) World.blank 0 [⟨2197, 5, 100⟩] := by
  intro h
  have hoffer := ((h ⟨2197, 5, 100⟩ List.mem_cons_self (by decide)).2
    [⟨1, 0, 10⟩, ⟨2, 0, 10⟩, ⟨3, 0, 10⟩, ⟨4, 0, 10⟩, ⟨5, 0, 10⟩] (by decide)).2.2
  exact absurd hoffer (by decide)

end ProtocolGame

end Eloth
