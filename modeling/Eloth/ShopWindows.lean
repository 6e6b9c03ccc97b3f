import Mathlib.Logic.Function.Basic
import Eloth.Lib.ListSet
import Eloth.Lib.Run
import Eloth.LuaRegistry
import Eloth.SaleList

/-!
# Shop windows of npcs

A window is known to the player, as its shop owner, and to the npc, which keeps the set of its
players. It holds two references to functions of the script that opened it, which the npc calls
when the player trades and which are given back when the window closes.
-/

namespace Eloth

/-- An entry of a shop with what a purchase looks at. -/
structure ShopItem extends ShopInfo where
  buyPrice : Nat
  realName : String

def clientToServerFluidMap : List Nat :=
  [0, 1, 7, 3, 19, 2, 4, 27, 5, 6, 15, 10, 13, 11, 21, 14, 35, 43]

def clientFluidToServer (clientFluid : Nat) : Nat := clientToServerFluidMap.getD clientFluid 0

/-- The fields of a player, with the list that its client shows; a reference of -1 is `none`. -/
structure ShopPlayer where
  shopOwner : Option Nat := none
  purchaseCallback : LuaRef := none
  saleCallback : LuaRef := none
  shopItemList : List ShopItem := []
  shown : Option (List ShopItem) := none

/-- What a script asked for when it opened a window. -/
structure OpenedShop (V : Type) where
  npc : Nat
  items : List ShopItem
  onBuy : LuaValue V
  onSell : LuaValue V

structure TradeRequest where
  spriteId : Nat
  count : Nat
  amount : Nat
  ignore : Bool
  inBackpacks : Bool

/-- A call of a function of the script, with the window that was open. -/
structure ShopTrade (V : Type) where
  player : Nat
  npc : Nat
  purchase : Bool
  function : LuaValue V
  itemId : Nat
  subType : Nat
  amount : Nat
  ignore : Bool
  inBackpacks : Bool
  opened : Option (OpenedShop V)

/-- The windows with the registry in which the references stand. It holds also references that a
failed call has left behind, and those of other code. -/
structure ShopWindows (V : Type) where
  registry : LuaRegistry V := []
  npcs : List Nat := []
  players : Nat → ShopPlayer := fun _ => {}
  shopPlayerSet : Nat → List Nat := fun _ => []
  opened : Nat → Option (OpenedShop V) := fun _ => none
  leaked : List Nat := []
  others : List Nat := []
  trades : List (ShopTrade V) := []

namespace ShopWindows

variable {V : Type} (w : ShopWindows V)

/-! ## Closing -/

def setPlayer (player : Nat) (p : ShopPlayer) : ShopWindows V :=
  { w with players := Function.update w.players player p }

def addShopPlayer (npc player : Nat) : ShopWindows V :=
  { w with shopPlayerSet :=
      Function.update w.shopPlayerSet npc ((w.shopPlayerSet npc).insert player) }

def removeShopPlayer (npc player : Nat) : ShopWindows V :=
  { w with shopPlayerSet :=
      Function.update w.shopPlayerSet npc ((w.shopPlayerSet npc).filter (· ≠ player)) }

/-- The references of the window are given back, and both sides forget it; the second part of
`onPlayerEndTrade`, a call of the script, opens and closes no window. -/
def endTrade (player npc : Nat) : ShopWindows V :=
  let p := w.players player
  { w with
    registry := [p.purchaseCallback, p.saleCallback].foldl LuaRegistry.luaL_unref w.registry
    opened := Function.update w.opened player none }
  |>.setPlayer player
    { p with shopOwner := none, purchaseCallback := none, saleCallback := none }
  |>.removeShopPlayer npc player

/-- `Player::closeShopWindow`, with the value that it returns. -/
def closeShopWindow (player : Nat) (sendCloseShopWindow : Bool) : Bool × ShopWindows V :=
  match (w.players player).shopOwner with
  | none => (false, w.setPlayer player { w.players player with shopItemList := [] })
  | some npc =>
    let w' := w.endTrade player npc
    (true, w'.setPlayer player
      { w'.players player with
        shown := if sendCloseShopWindow then none else (w'.players player).shown
        shopItemList := [] })

/-- The loop goes on while a player is left. A pass takes a player out of the set, or its owner
from it. -/
def closeWindowsOf (npc : Nat) : Nat → ShopWindows V → ShopWindows V
  | 0, w => w
  | fuel + 1, w =>
    match w.shopPlayerSet npc with
    | [] => w
    | player :: _ =>
      let closed := w.closeShopWindow player true
      closeWindowsOf npc fuel
        (if closed.1 then closed.2 else closed.2.removeShopPlayer npc player)

def closeAllShopWindows (npc : Nat) : ShopWindows V :=
  closeWindowsOf npc (2 * (w.shopPlayerSet npc).length) w

/-! ## Scripts -/

/-- The stack of a call to `openShopWindow` from the npc interface, whose two functions are at its
top. Values other than functions are passed over. -/
structure OpenCall (V : Type) where
  player : Option Nat
  npc : Option Nat
  items : Option (List ShopItem)
  onBuy : LuaValue V
  onSell : LuaValue V

/-- `addShopPlayer`, `setShopOwner` and `Player::openShopWindow`. -/
def openWindow (player npc : Nat) (items : List ShopItem) (buyCallback saleCallback : LuaRef)
    (opened : OpenedShop V) : ShopWindows V :=
  ({ w with opened := Function.update w.opened player (some opened) }
    |>.addShopPlayer npc player).setPlayer player
    { shopOwner := some npc
      purchaseCallback := buyCallback
      saleCallback := saleCallback
      shopItemList := items
      shown := some items }

def leak (refs : List LuaRef) : ShopWindows V := { w with leaked := refs.reduceOption ++ w.leaked }

variable (isFunction : V → Bool)

/-- A function, or nothing. -/
def functionOf (value : LuaValue V) : LuaValue V := value.filter isFunction

def luaOpenShopWindow (picker : LuaRefPicker) (call : OpenCall V) : ShopWindows V :=
  let sell := LuaRegistry.luaL_ref picker w.registry (functionOf isFunction call.onSell)
  let buy := LuaRegistry.luaL_ref picker sell.1 (functionOf isFunction call.onBuy)
  let w' := { w with registry := buy.1 }
  match call.items, call.player with
  | some items, some player =>
    let w' := (w'.closeShopWindow player false).2
    match call.npc with
    | some npc =>
      w'.openWindow player npc items buy.2 sell.2
        ⟨npc, items, functionOf isFunction call.onBuy, functionOf isFunction call.onSell⟩
    | none => w'.leak [sell.2, buy.2]
  | _, _ => w'.leak [sell.2, buy.2]

/-- The stack of a call of the method of an npc; a fifth value can be missing. -/
structure MethodCall (V : Type) where
  npc : Option Nat
  player : Option Nat
  items : Option (List ShopItem)
  fourth : LuaValue V
  fifth : Option (LuaValue V)

/-- What `luaL_ref` takes for the second function is the value at the top, which is the fifth when
that was no function. -/
def MethodCall.functions (call : MethodCall V) : LuaValue V × LuaValue V :=
  let sell := functionOf isFunction (call.fifth.getD none)
  let buy :=
    if (functionOf isFunction call.fourth).isSome then
      if sell.isSome then call.fourth else call.fifth.getD call.fourth
    else none
  (buy, sell)

def luaNpcOpenShopWindow (picker : LuaRefPicker) (call : MethodCall V) : ShopWindows V :=
  match call.items, call.player, call.npc with
  | some items, some player, some npc =>
    let (onBuy, onSell) := call.functions isFunction
    let sell := LuaRegistry.luaL_ref picker w.registry onSell
    let buy := LuaRegistry.luaL_ref picker sell.1 onBuy
    let w' := ({ w with registry := buy.1 }.closeShopWindow player false).2
    w'.openWindow player npc items buy.2 sell.2 ⟨npc, items, onBuy, onSell⟩
  | _, _, _ => w

/-- `luaCloseShopWindow` and `luaNpcCloseShopWindow`. -/
def luaCloseShopWindow (npc player : Option Nat) : ShopWindows V :=
  match npc, player with
  | some npc, some player =>
    if (w.players player).shopOwner = some npc then
      let w' := w.setPlayer player { w.players player with shown := none }
      w'.endTrade player npc
    else w
  | _, _ => w

/-! ## Trades -/

def hasShopItemForSale (items : Items) (shopItemList : List ShopItem) (itemId subType : Nat) :
    Bool :=
  shopItemList.any fun shopInfo =>
    shopInfo.itemId = itemId ∧ shopInfo.buyPrice ≠ 0 ∧
      ((items.get itemId).isFluidContainer = false ∨ shopInfo.subType = subType)

/-- The npc calls the function behind the reference, if it has a script and the script can be
entered. -/
def onPlayerTrade (npc player : Nat) (purchase : Bool) (callback : LuaRef) (itemId subType : Nat)
    (request : TradeRequest) (entered : Bool) : ShopWindows V :=
  if callback = none ∨ entered = false then w
  else
    { w with
      trades := w.trades ++
        [{ player := player
           npc := npc
           purchase := purchase
           function := w.registry.lua_rawgeti callback
           itemId := itemId
           subType := subType
           amount := request.amount
           ignore := request.ignore
           inBackpacks := request.inBackpacks
           opened := w.opened player }] }

/-- The tables of the items, by their ids and by those of the client. -/
structure ShopTables where
  items : Items
  getItemIdByClientId : Nat → ItemType

variable (tables : ShopTables)

def requestSubType (it : ItemType) (count : Nat) : Nat :=
  if it.isSplash || it.isFluidContainer then clientFluidToServer count else count

def playerPurchaseItem (player : Nat) (request : TradeRequest) (entered : Bool) : ShopWindows V :=
  if request.amount = 0 ∨ 100 < request.amount then w
  else
    match (w.players player).shopOwner with
    | none => w
    | some merchant =>
      let it := tables.getItemIdByClientId request.spriteId
      if it.id = 0 then w
      else
        let subType := requestSubType it request.count
        if hasShopItemForSale tables.items (w.players player).shopItemList it.id subType then
          w.onPlayerTrade merchant player true (w.players player).purchaseCallback it.id subType
            request entered
        else w

def playerSellItem (player : Nat) (request : TradeRequest) (entered : Bool) : ShopWindows V :=
  if request.amount = 0 ∨ 100 < request.amount then w
  else
    match (w.players player).shopOwner with
    | none => w
    | some merchant =>
      let it := tables.getItemIdByClientId request.spriteId
      if it.id = 0 then w
      else
        w.onPlayerTrade merchant player false (w.players player).saleCallback it.id
          (requestSubType it request.count) { request with inBackpacks := false } entered

/-! ## Npcs -/

/-- `Npc::onRemoveCreature` of the npc itself, which is then gone. -/
def removeNpc (npc : Nat) : ShopWindows V :=
  let w' := w.closeAllShopWindows npc
  { w' with
    npcs := w'.npcs.filter (· ≠ npc)
    shopPlayerSet := Function.update w'.shopPlayerSet npc [] }

/-- `Npcs::reload`: every npc closes its windows, and then each is reset. -/
def reload : ShopWindows V :=
  let w' := w.npcs.foldl closeAllShopWindows w
  { w' with shopPlayerSet := fun npc => if npc ∈ w.npcs then [] else w'.shopPlayerSet npc }

end ShopWindows

inductive ShopOp (V : Type) where
  | luaOpenShopWindow (call : ShopWindows.OpenCall V)
  | luaNpcOpenShopWindow (call : ShopWindows.MethodCall V)
  | luaCloseShopWindow (npc player : Option Nat)
  | playerCloseShop (player : Nat)
  | onRemovePlayer (player : Nat)
  | playerPurchaseItem (player : Nat) (request : TradeRequest) (entered : Bool)
  | playerSellItem (player : Nat) (request : TradeRequest) (entered : Bool)
  | createNpc (npc : Nat)
  | removeNpc (npc : Nat)
  | reload
  | luaL_ref (value : V)
  | luaL_unref (ref : Nat)

namespace ShopWindows

variable {V : Type}

/-- The parts of the server and of Lua that the windows rest on. -/
structure ShopSetting (V : Type) where
  tables : ShopTables
  isFunction : V → Bool
  picker : LuaRefPicker

variable (setting : ShopSetting V)

def apply (w : ShopWindows V) : ShopOp V → ShopWindows V
  | .luaOpenShopWindow call => w.luaOpenShopWindow setting.isFunction setting.picker call
  | .luaNpcOpenShopWindow call => w.luaNpcOpenShopWindow setting.isFunction setting.picker call
  | .luaCloseShopWindow npc player => w.luaCloseShopWindow npc player
  | .playerCloseShop player | .onRemovePlayer player => (w.closeShopWindow player true).2
  | .playerPurchaseItem player request entered =>
    w.playerPurchaseItem setting.tables player request entered
  | .playerSellItem player request entered =>
    w.playerSellItem setting.tables player request entered
  | .createNpc npc => { w with npcs := npc :: w.npcs }
  | .removeNpc npc => w.removeNpc npc
  | .reload => w.reload
  | .luaL_ref value =>
    let taken := LuaRegistry.luaL_ref setting.picker w.registry (some value)
    { w with registry := taken.1, others := [taken.2].reduceOption ++ w.others }
  | .luaL_unref ref =>
    { w with registry := w.registry.luaL_unref (some ref), others := w.others.erase ref }

/-- Windows are opened by npcs that are there. Other code gives back what it has taken. -/
def Valid (w : ShopWindows V) : ShopOp V → Prop
  | .luaOpenShopWindow call => ∀ npc, call.npc = some npc → npc ∈ w.npcs
  | .luaNpcOpenShopWindow call => ∀ npc, call.npc = some npc → npc ∈ w.npcs
  | .createNpc npc => npc ∉ w.npcs
  | .luaL_unref ref => ref ∈ w.others
  | _ => True

def system : Run.System (ShopWindows V) (ShopOp V) where
  init w := w = {}
  step w op w' := w.Valid op ∧ w' = w.apply setting op

/-! ## What the windows keep -/

variable {w : ShopWindows V} {extra : List Nat} {player npc : Nat} {setting}

def callbacks (p : ShopPlayer) : List LuaRef := [p.purchaseCallback, p.saleCallback]

def refs (p : ShopPlayer) : List Nat := (callbacks p).reduceOption

theorem mem_refs {p : ShopPlayer} {r : Nat} : r ∈ refs p ↔ some r ∈ callbacks p :=
  List.reduceOption_mem_iff

/-- The window is the one that was asked for. -/
structure Shows (w : ShopWindows V) (player npc : Nat) (o : OpenedShop V) : Prop where
  opened : w.opened player = some o
  npc : o.npc = npc
  items : (w.players player).shopItemList = o.items
  shown : (w.players player).shown = some o.items
  onBuy : w.registry.lua_rawgeti (w.players player).purchaseCallback = o.onBuy
  onSell : w.registry.lua_rawgeti (w.players player).saleCallback = o.onSell

/-- A trade goes to the npc of the window, to the function that was given for it, and a purchase is
of an item that was offered. -/
structure Fits (tables : ShopTables) (t : ShopTrade V) (o : OpenedShop V) : Prop where
  opened : t.opened = some o
  npc : t.npc = o.npc
  function : t.function = if t.purchase then o.onBuy else o.onSell
  amount : 0 < t.amount ∧ t.amount ≤ 100
  offered : t.purchase = true →
    hasShopItemForSale tables.items o.items t.itemId t.subType = true

/-- The two sides of every window agree. The registry holds the references of the windows, those
at hand, those left behind and those of other code, each of them once. -/
structure SoundWith (tables : ShopTables) (extra : List Nat) (w : ShopWindows V) : Prop where
  owner_iff : ∀ npc player,
    player ∈ w.shopPlayerSet npc ↔ (w.players player).shopOwner = some npc
  sets : ∀ npc, (w.shopPlayerSet npc).Nodup
  present : ∀ player npc, (w.players player).shopOwner = some npc → npc ∈ w.npcs
  idle : ∀ player, (w.players player).shopOwner = none →
    w.opened player = none ∧ callbacks (w.players player) = [none, none]
  window : ∀ player npc, (w.players player).shopOwner = some npc → ∃ o, w.Shows player npc o
  keys : w.registry.keys.Nodup
  owned : ∃ windows, ListSet.Lists windows (fun player => (w.players player).shopOwner ≠ none) ∧
    w.registry.keys.Perm
      (windows.flatMap (fun player => refs (w.players player)) ++
        (extra ++ (w.leaked ++ w.others)))
  traded : ∀ t ∈ w.trades, ∃ o, Fits tables t o

abbrev Sound (tables : ShopTables) (w : ShopWindows V) : Prop := SoundWith tables [] w

variable {tables : ShopTables}

/-- The references of one window apart from all others. -/
theorem SoundWith.split (h : w.SoundWith tables extra)
    (howner : (w.players player).shopOwner = some npc) :
    ∃ rest, ListSet.Lists rest
        (fun other => other ≠ player ∧ (w.players other).shopOwner ≠ none) ∧
      w.registry.keys.Perm
        (refs (w.players player) ++ (rest.flatMap (fun player => refs (w.players player)) ++
          (extra ++ (w.leaked ++ w.others)))) := by
  obtain ⟨windows, hwindows, hperm⟩ := h.owned
  have hmem : player ∈ windows := (hwindows.2 player).mpr fun hnone =>
    absurd (howner.symm.trans hnone) (Option.some_ne_none _)
  refine ⟨windows.erase player, hwindows.erase, hperm.trans ?_⟩
  have hfirst := List.Perm.flatMap_right (fun player => refs (w.players player))
    (List.perm_cons_erase hmem)
  rw [List.flatMap_cons] at hfirst
  exact (hfirst.append_right _).trans (List.Perm.of_eq (List.append_assoc ..))

theorem lua_rawgeti_unref {registry : LuaRegistry V} {p : ShopPlayer} {ref : LuaRef}
    (h : ∀ r, ref = some r → r ∉ refs p) :
    ((callbacks p).foldl LuaRegistry.luaL_unref registry).lua_rawgeti ref =
      registry.lua_rawgeti ref := by
  cases ref with
  | none => rfl
  | some r => exact LuaRegistry.lua_rawgeti_unrefs registry fun hmem => h r rfl (mem_refs.mpr hmem)

@[simp] theorem setPlayer_players_self (p : ShopPlayer) :
    (w.setPlayer player p).players player = p := Function.update_self ..

theorem setPlayer_players_of_ne {other : Nat} (h : other ≠ player) (p : ShopPlayer) :
    (w.setPlayer player p).players other = w.players other := Function.update_of_ne h ..

@[simp] theorem endTrade_players_self : (w.endTrade player npc).players player =
    { w.players player with
      shopOwner := none, purchaseCallback := none, saleCallback := none } :=
  Function.update_self ..

theorem endTrade_players_of_ne {other : Nat} (h : other ≠ player) :
    (w.endTrade player npc).players other = w.players other :=
  Function.update_of_ne h ..

theorem mem_endTrade_set {npc' other : Nat} : other ∈ (w.endTrade player npc).shopPlayerSet npc' ↔
    other ∈ w.shopPlayerSet npc' ∧ (npc' = npc → other ≠ player) := by
  change other ∈ Function.update w.shopPlayerSet npc
    ((w.shopPlayerSet npc).filter (· ≠ player)) npc' ↔ _
  by_cases hnpc : npc' = npc
  · subst hnpc
    rw [Function.update_self, List.mem_filter]
    simp
  · rw [Function.update_of_ne hnpc]
    exact (and_iff_left fun h => absurd h hnpc).symm

theorem SoundWith.endTrade (h : w.SoundWith tables extra)
    (howner : (w.players player).shopOwner = some npc) :
    (w.endTrade player npc).SoundWith tables extra ∧
      ∀ r ∈ extra, (w.endTrade player npc).registry.lua_rawgeti (some r) =
        w.registry.lua_rawgeti (some r) := by
  obtain ⟨rest, hrest, hperm⟩ := h.split howner
  have hnodup := hperm.nodup_iff.mp h.keys
  obtain ⟨-, hnodupRest, hapart⟩ := List.nodup_append.mp hnodup
  have hkeys : (w.endTrade player npc).registry.keys.Perm
      (rest.flatMap (fun player => refs (w.players player)) ++ (extra ++ (w.leaked ++ w.others))) :=
    LuaRegistry.unrefs_perm h.keys hperm
  -- a reference that is not of the window leads to the same value
  have hsame : ∀ r ∈ rest.flatMap (fun player => refs (w.players player)) ++
      (extra ++ (w.leaked ++ w.others)),
      (w.endTrade player npc).registry.lua_rawgeti (some r) =
        w.registry.lua_rawgeti (some r) := by
    intro r hr
    refine lua_rawgeti_unref fun r' hr' hmem => ?_
    obtain rfl := Option.some.inj hr'
    exact hapart r hmem r hr rfl
  refine ⟨?_, fun r hr => hsame r (List.mem_append_right _ (List.mem_append_left _ hr))⟩
  have hother : ∀ other ∈ rest, (w.endTrade player npc).players other = w.players other :=
    fun other hmem => endTrade_players_of_ne ((hrest.2 other).mp hmem).1
  constructor
  · intro npc' other
    rw [mem_endTrade_set, h.owner_iff]
    by_cases hp : other = player
    · subst hp
      rw [endTrade_players_self, howner]
      simp [eq_comm]
    · rw [endTrade_players_of_ne hp]
      exact and_iff_left fun _ => hp
  · intro npc'
    change (Function.update w.shopPlayerSet npc
      ((w.shopPlayerSet npc).filter (· ≠ player)) npc').Nodup
    by_cases hnpc : npc' = npc
    · rw [hnpc, Function.update_self]
      exact (h.sets npc).filter _
    · rw [Function.update_of_ne hnpc]
      exact h.sets npc'
  · intro other npc' hown
    by_cases hp : other = player
    · subst hp
      rw [endTrade_players_self] at hown
      cases hown
    · rw [endTrade_players_of_ne hp] at hown
      exact h.present other npc' hown
  · intro other hnone
    by_cases hp : other = player
    · subst hp
      rw [endTrade_players_self]
      exact ⟨Function.update_self .., rfl⟩
    · rw [endTrade_players_of_ne hp] at hnone ⊢
      refine ⟨?_, (h.idle other hnone).2⟩
      exact (Function.update_of_ne hp ..).trans (h.idle other hnone).1
  · intro other npc' hown
    by_cases hp : other = player
    · subst hp
      rw [endTrade_players_self] at hown
      cases hown
    · have hplayer : (w.endTrade player npc).players other = w.players other :=
        endTrade_players_of_ne hp
      rw [hplayer] at hown
      obtain ⟨o, ho⟩ := h.window other npc' hown
      have hlisted : other ∈ rest := (hrest.2 other).mpr
        ⟨hp, fun hnone => absurd (hown.symm.trans hnone) (Option.some_ne_none _)⟩
      have hlook : ∀ ref ∈ callbacks (w.players other),
          (w.endTrade player npc).registry.lua_rawgeti ref = w.registry.lua_rawgeti ref := by
        intro ref href
        cases ref with
        | none => rfl
        | some r =>
          refine hsame r (List.mem_append_left _ (List.mem_flatMap.mpr ⟨other, hlisted, ?_⟩))
          exact mem_refs.mpr href
      refine ⟨o, (Function.update_of_ne hp ..).trans ho.opened, ho.npc, ?_, ?_, ?_, ?_⟩
      · rw [hplayer]
        exact ho.items
      · rw [hplayer]
        exact ho.shown
      · rw [hplayer, hlook _ (List.mem_cons_self ..)]
        exact ho.onBuy
      · rw [hplayer, hlook _ (List.mem_cons_of_mem _ (List.mem_singleton_self _))]
        exact ho.onSell
  · exact hkeys.nodup_iff.mpr hnodupRest
  · refine ⟨rest, hrest.congr fun other => ?_, hkeys.trans (List.Perm.of_eq ?_)⟩
    · by_cases hp : other = player
      · subst hp
        rw [endTrade_players_self]
        simp
      · rw [endTrade_players_of_ne hp]
        exact and_iff_right hp
    · have hrefs : rest.flatMap (fun player => refs (w.players player)) =
          rest.flatMap fun other => refs ((w.endTrade player npc).players other) :=
        List.flatMap_congr fun other hmem => by rw [hother other hmem]
      rw [hrefs]
      rfl
  · exact h.traded

/-- What a player without a window is left with does not matter. -/
theorem SoundWith.setPlayer (h : w.SoundWith tables extra)
    (howner : (w.players player).shopOwner = none) {p : ShopPlayer} (hp : p.shopOwner = none)
    (hcallbacks : callbacks p = [none, none]) : (w.setPlayer player p).SoundWith tables extra := by
  have hplayers : ∀ other, ((w.setPlayer player p).players other).shopOwner =
      (w.players other).shopOwner ∧
      callbacks ((w.setPlayer player p).players other) = callbacks (w.players other) := by
    intro other
    by_cases hother : other = player
    · subst hother
      rw [setPlayer_players_self, hp, howner, hcallbacks, (h.idle other howner).2]
      exact ⟨rfl, rfl⟩
    · rw [setPlayer_players_of_ne hother]
      exact ⟨rfl, rfl⟩
  constructor
  · intro npc other
    rw [(hplayers other).1]
    exact h.owner_iff npc other
  · exact h.sets
  · intro other npc hown
    exact h.present other npc ((hplayers other).1.symm.trans hown)
  · intro other hnone
    rw [(hplayers other).2]
    exact h.idle other ((hplayers other).1.symm.trans hnone)
  · intro other npc hown
    have hother : other ≠ player := by
      rintro rfl
      rw [(hplayers other).1, howner] at hown
      cases hown
    have hsame := setPlayer_players_of_ne (w := w) hother p
    rw [hsame] at hown
    obtain ⟨o, ho⟩ := h.window other npc hown
    refine ⟨o, ho.opened, ho.npc, ?_, ?_, ?_, ?_⟩
    all_goals rw [hsame]
    exacts [ho.items, ho.shown, ho.onBuy, ho.onSell]
  · exact h.keys
  · obtain ⟨windows, hwindows, hperm⟩ := h.owned
    refine ⟨windows, hwindows.congr fun other => by rw [(hplayers other).1], ?_⟩
    have hrefs : windows.flatMap (fun player => refs (w.players player)) =
        windows.flatMap fun other => refs ((w.setPlayer player p).players other) :=
      List.flatMap_congr fun other _ => congrArg List.reduceOption (hplayers other).2.symm
    rw [← hrefs]
    exact hperm
  · exact h.traded

/-! ## Closing -/

/-- What closing a window leaves as it is. -/
structure Closes (w w' : ShopWindows V) (player : Nat) (extra : List Nat) : Prop where
  owner : (w'.players player).shopOwner = none
  npcs : w'.npcs = w.npcs
  leaked : w'.leaked = w.leaked
  set : ∀ npc, (w.players player).shopOwner = some npc →
    w'.shopPlayerSet npc = (w.shopPlayerSet npc).filter (· ≠ player)
  same : ∀ r ∈ extra, w'.registry.lua_rawgeti (some r) = w.registry.lua_rawgeti (some r)

theorem SoundWith.closeShopWindow (h : w.SoundWith tables extra) (player : Nat)
    (sendCloseShopWindow : Bool) :
    (w.closeShopWindow player sendCloseShopWindow).2.SoundWith tables extra ∧
      Closes w (w.closeShopWindow player sendCloseShopWindow).2 player extra := by
  unfold ShopWindows.closeShopWindow
  split
  · next howner =>
    refine ⟨h.setPlayer howner howner (h.idle player howner).2, ?_, rfl, rfl, ?_, fun _ _ => rfl⟩
    · rw [setPlayer_players_self]
      exact howner
    · intro npc hown
      rw [howner] at hown
      cases hown
  · next npc howner =>
    obtain ⟨hsound, hsame⟩ := h.endTrade howner
    have hplayer : (w.endTrade player npc).players player = _ := endTrade_players_self
    refine ⟨hsound.setPlayer (by rw [hplayer]) ?_ ?_, ?_, rfl, rfl, ?_, hsame⟩
    · dsimp only
      rw [hplayer]
    · dsimp only [callbacks]
      rw [hplayer]
    · rw [setPlayer_players_self]
      dsimp only
      rw [hplayer]
    · intro npc' hown
      obtain rfl : npc = npc' := Option.some.inj (howner.symm.trans hown)
      exact Function.update_self ..

/-- The script may close the window: the client is told before. -/
theorem SoundWith.luaCloseShopWindow (h : w.SoundWith tables extra) (npc player : Option Nat) :
    (w.luaCloseShopWindow npc player).SoundWith tables extra := by
  unfold ShopWindows.luaCloseShopWindow
  split
  · next npc player =>
    split_ifs with howner
    · have hcomm :
          (w.setPlayer player { w.players player with shown := none }).endTrade player npc =
          (w.endTrade player npc).setPlayer player
            { (w.endTrade player npc).players player with shown := none } := by
        rw [endTrade_players_self]
        unfold ShopWindows.endTrade ShopWindows.setPlayer ShopWindows.removeShopPlayer
        simp only [Function.update_self, Function.update_idem]
      rw [hcomm]
      refine (h.endTrade howner).1.setPlayer ?_ ?_ ?_
      all_goals
        rw [endTrade_players_self]
      rfl
    · exact h
  · exact h

theorem SoundWith.closeWindowsOf (fuel : Nat) (h : w.SoundWith tables extra)
    (hfuel : (w.shopPlayerSet npc).length ≤ fuel) :
    (closeWindowsOf npc fuel w).SoundWith tables extra ∧
      (closeWindowsOf npc fuel w).shopPlayerSet npc = [] ∧
      (closeWindowsOf npc fuel w).npcs = w.npcs := by
  induction fuel generalizing w with
  | zero => exact ⟨h, List.length_eq_zero_iff.mp (Nat.le_zero.mp hfuel), rfl⟩
  | succ fuel ih =>
    unfold ShopWindows.closeWindowsOf
    split
    · next hset => exact ⟨h, hset, rfl⟩
    · next player rest hset =>
      have howner : (w.players player).shopOwner = some npc :=
        (h.owner_iff npc player).mp (hset ▸ List.mem_cons_self)
      have hclosed : (w.closeShopWindow player true).1 = true := by
        unfold ShopWindows.closeShopWindow
        rw [howner]
      obtain ⟨hsound, hcloses⟩ := h.closeShopWindow player true
      have hsets := h.sets npc
      rw [hset] at hsets
      have hrest : (w.closeShopWindow player true).2.shopPlayerSet npc = rest := by
        rw [hcloses.set npc howner, hset, List.filter_cons_of_neg (by simp), List.filter_eq_self]
        intro other hother
        refine decide_eq_true ?_
        rintro rfl
        exact (List.nodup_cons.mp hsets).1 hother
      dsimp only
      rw [if_pos hclosed]
      obtain ⟨hsound', hempty, hnpcs⟩ := ih hsound (by
        rw [hrest]
        rw [hset] at hfuel
        exact Nat.le_of_succ_le_succ hfuel)
      exact ⟨hsound', hempty, hnpcs.trans hcloses.npcs⟩

theorem SoundWith.closeAllShopWindows (h : w.SoundWith tables extra) (npc : Nat) :
    (w.closeAllShopWindows npc).SoundWith tables extra ∧
      (w.closeAllShopWindows npc).shopPlayerSet npc = [] ∧
      (w.closeAllShopWindows npc).npcs = w.npcs :=
  h.closeWindowsOf _ (Nat.le_mul_of_pos_left _ Nat.two_pos)

/-! ## Opening -/

theorem SoundWith.mem_keys (h : w.SoundWith tables extra)
    (howner : (w.players player).shopOwner = some npc) {r : Nat}
    (hr : some r ∈ callbacks (w.players player)) : r ∈ w.registry.keys := by
  obtain ⟨rest, -, hperm⟩ := h.split howner
  exact hperm.mem_iff.mpr (List.mem_append_left _ (mem_refs.mpr hr))

/-- References that have just been taken are at hand. -/
theorem SoundWith.grows (h : w.SoundWith tables extra) {registry : LuaRegistry V}
    {taken : List LuaRef} (hgrows : LuaRegistry.Grows w.registry registry taken) :
    SoundWith tables (taken.reduceOption ++ extra) { w with registry := registry } where
  owner_iff := h.owner_iff
  sets := h.sets
  present := h.present
  idle := h.idle
  window player npc howner := by
    obtain ⟨o, ho⟩ := h.window player npc howner
    have hlook : ∀ ref ∈ callbacks (w.players player),
        registry.lua_rawgeti ref = w.registry.lua_rawgeti ref := fun ref href =>
      hgrows.lua_rawgeti fun r hr => h.mem_keys howner (hr ▸ href)
    refine ⟨o, ho.opened, ho.npc, ho.items, ho.shown, ?_, ?_⟩
    · exact (hlook _ List.mem_cons_self).trans ho.onBuy
    · exact (hlook _ (List.mem_cons_of_mem _ (List.mem_singleton_self _))).trans ho.onSell
  keys := hgrows.nodup h.keys
  owned := by
    obtain ⟨windows, hwindows, hperm⟩ := h.owned
    refine ⟨windows, hwindows, ?_⟩
    change registry.keys.Perm _
    rw [hgrows.keys]
    refine (hperm.append_right _).trans (List.perm_iff_count.mpr fun r => ?_)
    simp only [List.count_append]
    omega
  traded := h.traded

/-- The references at hand become those of the window. -/
theorem SoundWith.openWindow {buy sell : LuaRef} {o : OpenedShop V}
    (h : w.SoundWith tables [sell, buy].reduceOption)
    (howner : (w.players player).shopOwner = none) (hnpc : npc ∈ w.npcs) (ho : o.npc = npc)
    (hbuy : w.registry.lua_rawgeti buy = o.onBuy)
    (hsell : w.registry.lua_rawgeti sell = o.onSell) :
    (w.openWindow player npc o.items buy sell o).Sound tables := by
  have hself : (w.openWindow player npc o.items buy sell o).players player =
      ⟨some npc, buy, sell, o.items, some o.items⟩ := setPlayer_players_self _
  have hother : ∀ other, other ≠ player →
      (w.openWindow player npc o.items buy sell o).players other = w.players other :=
    fun other hne => setPlayer_players_of_ne hne _
  have hset : ∀ npc', (w.openWindow player npc o.items buy sell o).shopPlayerSet npc' =
      if npc' = npc then (w.shopPlayerSet npc).insert player else w.shopPlayerSet npc' := by
    intro npc'
    split_ifs with heq
    · subst heq
      exact Function.update_self ..
    · exact Function.update_of_ne heq ..
  constructor
  · intro npc' other
    rw [hset]
    by_cases hp : other = player
    · subst hp
      rw [hself]
      split_ifs with heq
      · exact iff_of_true (List.mem_insert_iff.mpr (.inl rfl)) (congrArg some heq.symm)
      · rw [h.owner_iff, howner]
        exact iff_of_false (Option.some_ne_none _).symm fun hn => heq (Option.some.inj hn).symm
    · rw [hother other hp]
      split_ifs with heq
      · rw [List.mem_insert_iff, heq, h.owner_iff]
        exact or_iff_right hp
      · exact h.owner_iff npc' other
  · intro npc'
    rw [hset]
    split_ifs
    · exact (h.sets npc).insert
    · exact h.sets npc'
  · intro other npc' hown
    by_cases hp : other = player
    · subst hp
      rw [hself] at hown
      obtain rfl := Option.some.inj hown
      exact hnpc
    · rw [hother other hp] at hown
      exact h.present other npc' hown
  · intro other hnone
    by_cases hp : other = player
    · subst hp
      rw [hself] at hnone
      cases hnone
    · rw [hother other hp] at hnone ⊢
      exact ⟨(Function.update_of_ne hp ..).trans (h.idle other hnone).1, (h.idle other hnone).2⟩
  · intro other npc' hown
    by_cases hp : other = player
    · subst hp
      rw [hself] at hown
      obtain rfl := Option.some.inj hown
      refine ⟨o, Function.update_self .., ho, ?_, ?_, ?_, ?_⟩
      all_goals rw [hself]
      exacts [hbuy, hsell]
    · have hplayer := hother other hp
      rw [hplayer] at hown
      obtain ⟨o', ho'⟩ := h.window other npc' hown
      refine ⟨o', (Function.update_of_ne hp ..).trans ho'.opened, ho'.npc, ?_, ?_, ?_, ?_⟩
      all_goals rw [hplayer]
      exacts [ho'.items, ho'.shown, ho'.onBuy, ho'.onSell]
  · exact h.keys
  · obtain ⟨windows, hwindows, hperm⟩ := h.owned
    have hnew : ¬(w.players player).shopOwner ≠ none := fun hne => hne howner
    refine ⟨player :: windows, (hwindows.cons hnew).congr fun other => ?_, ?_⟩
    · by_cases hp : other = player
      · subst hp
        rw [hself]
        simp
      · rw [hother other hp]
        exact or_iff_right hp
    · have hrefs : windows.flatMap (fun player => refs (w.players player)) =
          windows.flatMap fun other =>
            refs ((w.openWindow player npc o.items buy sell o).players other) :=
        List.flatMap_congr fun other hmem => by
          rw [hother other]
          rintro rfl
          exact hnew ((hwindows.2 other).mp hmem)
      have hswap : [sell, buy].reduceOption.Perm [buy, sell].reduceOption :=
        (List.Perm.swap ..).filterMap id
      refine hperm.trans (List.perm_iff_count.mpr fun r => ?_)
      have hcount := hswap.count_eq r
      rw [List.flatMap_cons, hself, ← hrefs]
      simp only [refs, callbacks, List.count_append, List.nil_append]
      rw [hcount]
      change _ + (_ + (w.leaked.count r + w.others.count r)) =
        _ + _ + (w.leaked.count r + w.others.count r)
      omega
  · exact h.traded

/-- The references at hand are left behind. -/
theorem SoundWith.leak {taken : List LuaRef} (h : w.SoundWith tables taken.reduceOption) :
    (w.leak taken).Sound tables where
  owner_iff := h.owner_iff
  sets := h.sets
  present := h.present
  idle := h.idle
  window player npc howner := by
    obtain ⟨o, ho⟩ := h.window player npc howner
    exact ⟨o, ho.opened, ho.npc, ho.items, ho.shown, ho.onBuy, ho.onSell⟩
  keys := h.keys
  owned := by
    obtain ⟨windows, hwindows, hperm⟩ := h.owned
    refine ⟨windows, hwindows, hperm.trans (List.Perm.of_eq ?_)⟩
    simp only [ShopWindows.leak, List.nil_append, List.append_assoc]
  traded := h.traded

/-- Two references are taken, and each leads to its value. -/
theorem luaL_ref_two (picker : LuaRefPicker) (registry : LuaRegistry V)
    (onSell onBuy : LuaValue V) :
    let sell := LuaRegistry.luaL_ref picker registry onSell
    let buy := LuaRegistry.luaL_ref picker sell.1 onBuy
    LuaRegistry.Grows registry buy.1 [sell.2, buy.2] ∧
      buy.1.lua_rawgeti sell.2 = onSell ∧ buy.1.lua_rawgeti buy.2 = onBuy := by
  intro sell buy
  have hsell := LuaRegistry.luaL_ref_grows picker registry onSell
  have hbuy := LuaRegistry.luaL_ref_grows picker sell.1 onBuy
  refine ⟨hsell.trans hbuy, ?_, LuaRegistry.lua_rawgeti_luaL_ref picker sell.1 onBuy⟩
  rw [hbuy.lua_rawgeti fun r hr => hsell.mem_keys (hr ▸ List.mem_singleton_self _)]
  exact LuaRegistry.lua_rawgeti_luaL_ref picker registry onSell

/-- What was taken is at hand while another window of the player is closed, and then becomes the
new one. -/
theorem SoundWith.reopen {buy sell : LuaRef} {o : OpenedShop V}
    (h : w.SoundWith tables [sell, buy].reduceOption) (hnpc : npc ∈ w.npcs) (ho : o.npc = npc)
    (hbuy : w.registry.lua_rawgeti buy = o.onBuy)
    (hsell : w.registry.lua_rawgeti sell = o.onSell) :
    ((w.closeShopWindow player false).2.openWindow player npc o.items buy sell o).Sound tables := by
  obtain ⟨hsound, hcloses⟩ := h.closeShopWindow player false
  have hlook : ∀ ref ∈ [sell, buy], (w.closeShopWindow player false).2.registry.lua_rawgeti ref =
      w.registry.lua_rawgeti ref := by
    intro ref href
    cases ref with
    | none => rfl
    | some r => exact hcloses.same r (List.reduceOption_mem_iff.mpr href)
  refine hsound.openWindow hcloses.owner (hcloses.npcs ▸ hnpc) ho ?_ ?_
  · rw [hlook buy (List.mem_cons_of_mem _ (List.mem_singleton_self _)), hbuy]
  · rw [hlook sell List.mem_cons_self, hsell]

theorem SoundWith.luaOpenShopWindow (h : w.Sound tables) {isFunction : V → Bool}
    {picker : LuaRefPicker} {call : OpenCall V} (hnpc : ∀ npc, call.npc = some npc → npc ∈ w.npcs) :
    (w.luaOpenShopWindow isFunction picker call).Sound tables := by
  obtain ⟨hgrows, hsell, hbuy⟩ := luaL_ref_two picker w.registry
    (functionOf isFunction call.onSell) (functionOf isFunction call.onBuy)
  have htaken := h.grows hgrows
  rw [List.append_nil] at htaken
  unfold ShopWindows.luaOpenShopWindow
  dsimp only
  split
  · next items player _ _ =>
    split
    · next npc heq =>
      exact htaken.reopen (hnpc npc heq) rfl hbuy hsell
    · exact (htaken.closeShopWindow player false).1.leak
  · exact htaken.leak

theorem SoundWith.luaNpcOpenShopWindow (h : w.Sound tables) {isFunction : V → Bool}
    {picker : LuaRefPicker} {call : MethodCall V}
    (hnpc : ∀ npc, call.npc = some npc → npc ∈ w.npcs) :
    (w.luaNpcOpenShopWindow isFunction picker call).Sound tables := by
  obtain ⟨hgrows, hsell, hbuy⟩ := luaL_ref_two picker w.registry
    (call.functions isFunction).2 (call.functions isFunction).1
  have htaken := h.grows hgrows
  rw [List.append_nil] at htaken
  unfold ShopWindows.luaNpcOpenShopWindow
  split
  · next items player npc _ _ heq =>
    exact htaken.reopen (hnpc npc heq) rfl hbuy hsell
  · exact h

/-! ## Trades -/

theorem SoundWith.onPlayerTrade (h : w.Sound tables) (purchase : Bool) {itemId subType : Nat}
    {request : TradeRequest} {entered : Bool}
    (howner : (w.players player).shopOwner = some npc)
    (hamount : ¬(request.amount = 0 ∨ 100 < request.amount))
    (hoffered : purchase = true →
      hasShopItemForSale tables.items (w.players player).shopItemList itemId subType = true) :
    (w.onPlayerTrade npc player purchase
      (if purchase then (w.players player).purchaseCallback else (w.players player).saleCallback)
      itemId subType request entered).Sound tables := by
  obtain ⟨o, ho⟩ := h.window player npc howner
  have hfunction : w.registry.lua_rawgeti
      (if purchase then (w.players player).purchaseCallback
        else (w.players player).saleCallback) = if purchase then o.onBuy else o.onSell := by
    cases purchase with
    | true => exact ho.onBuy
    | false => exact ho.onSell
  generalize (if purchase then (w.players player).purchaseCallback
    else (w.players player).saleCallback) = callback at hfunction ⊢
  unfold ShopWindows.onPlayerTrade
  split_ifs with hcalled
  · exact h
  refine ⟨h.owner_iff, h.sets, h.present, h.idle, fun player npc howner => ?_, h.keys, h.owned,
    fun t ht => ?_⟩
  · obtain ⟨o, ho⟩ := h.window player npc howner
    exact ⟨o, ho.opened, ho.npc, ho.items, ho.shown, ho.onBuy, ho.onSell⟩
  rcases List.mem_append.mp ht with ht | ht
  · exact h.traded t ht
  obtain rfl := List.mem_singleton.mp ht
  refine ⟨o, ho.opened, ho.npc.symm, hfunction, ?_, fun hpurchase => ?_⟩
  · dsimp only
    omega
  · rw [← ho.items]
    exact hoffered hpurchase

theorem SoundWith.playerPurchaseItem (h : w.Sound tables) (player : Nat) (request : TradeRequest)
    (entered : Bool) : (w.playerPurchaseItem tables player request entered).Sound tables := by
  unfold ShopWindows.playerPurchaseItem
  split_ifs with hamount
  · exact h
  split
  · exact h
  · next merchant howner =>
    dsimp only
    split_ifs with hid hoffered
    · exact h
    · exact h.onPlayerTrade true howner hamount fun _ => hoffered
    · exact h

theorem SoundWith.playerSellItem (h : w.Sound tables) (player : Nat) (request : TradeRequest)
    (entered : Bool) : (w.playerSellItem tables player request entered).Sound tables := by
  unfold ShopWindows.playerSellItem
  split_ifs with hamount
  · exact h
  split
  · exact h
  · next merchant howner =>
    dsimp only
    split_ifs with hid
    · exact h
    · exact h.onPlayerTrade false howner hamount fun hfalse =>
        absurd hfalse Bool.false_ne_true

/-! ## Runs -/

theorem SoundWith.removeNpc (h : w.Sound tables) (npc : Nat) : (w.removeNpc npc).Sound tables := by
  obtain ⟨hsound, hempty, -⟩ := h.closeAllShopWindows npc
  have hset : ∀ npc', Function.update (w.closeAllShopWindows npc).shopPlayerSet npc [] npc' =
      (w.closeAllShopWindows npc).shopPlayerSet npc' := by
    intro npc'
    by_cases heq : npc' = npc
    · rw [heq, Function.update_self, hempty]
    · exact Function.update_of_ne heq ..
  refine ⟨fun npc' player => ?_, fun npc' => ?_, fun player npc' howner => ?_, hsound.idle,
    fun player npc' howner => ?_, hsound.keys, hsound.owned, hsound.traded⟩
  · change player ∈ Function.update (w.closeAllShopWindows npc).shopPlayerSet npc [] npc' ↔ _
    rw [hset]
    exact hsound.owner_iff npc' player
  · change (Function.update (w.closeAllShopWindows npc).shopPlayerSet npc [] npc').Nodup
    rw [hset]
    exact hsound.sets npc'
  · refine List.mem_filter.mpr ⟨hsound.present player npc' howner, decide_eq_true ?_⟩
    rintro rfl
    have hmem := (hsound.owner_iff npc' player).mpr howner
    rw [hempty] at hmem
    cases hmem
  · obtain ⟨o, ho⟩ := hsound.window player npc' howner
    exact ⟨o, ho.opened, ho.npc, ho.items, ho.shown, ho.onBuy, ho.onSell⟩

theorem closeShopWindow_subset (w : ShopWindows V) (player npc : Nat)
    (sendCloseShopWindow : Bool) :
    (w.closeShopWindow player sendCloseShopWindow).2.shopPlayerSet npc ⊆ w.shopPlayerSet npc := by
  unfold ShopWindows.closeShopWindow
  split
  · exact List.Subset.refl _
  · exact fun other hother => (mem_endTrade_set.mp hother).1

theorem removeShopPlayer_subset (w : ShopWindows V) (npc player npc' : Nat) :
    (w.removeShopPlayer npc player).shopPlayerSet npc' ⊆ w.shopPlayerSet npc' := by
  intro other hother
  change other ∈ Function.update w.shopPlayerSet npc
    ((w.shopPlayerSet npc).filter (· ≠ player)) npc' at hother
  by_cases hnpc : npc' = npc
  · subst hnpc
    rw [Function.update_self] at hother
    exact (List.mem_filter.mp hother).1
  · rwa [Function.update_of_ne hnpc] at hother

theorem closeWindowsOf_subset (fuel : Nat) (w : ShopWindows V) (npc' : Nat) :
    (closeWindowsOf npc fuel w).shopPlayerSet npc' ⊆ w.shopPlayerSet npc' := by
  induction fuel generalizing w with
  | zero => exact List.Subset.refl _
  | succ fuel ih =>
    unfold ShopWindows.closeWindowsOf
    split
    · exact List.Subset.refl _
    · next player rest hset =>
      have hclosed := closeShopWindow_subset w player npc' true
      dsimp only
      refine List.Subset.trans (ih _) ?_
      split_ifs
      · exact hclosed
      · exact List.Subset.trans (removeShopPlayer_subset _ npc player npc') hclosed

theorem closeAll_subset (npcs : List Nat) (w : ShopWindows V) (npc : Nat) :
    (npcs.foldl closeAllShopWindows w).shopPlayerSet npc ⊆ w.shopPlayerSet npc := by
  induction npcs generalizing w with
  | nil => exact List.Subset.refl _
  | cons npc' npcs ih => exact List.Subset.trans (ih _) (closeWindowsOf_subset _ w npc)

theorem SoundWith.closeAll (npcs : List Nat) (h : w.Sound tables) :
    (npcs.foldl ShopWindows.closeAllShopWindows w).Sound tables ∧
      ∀ npc ∈ npcs, (npcs.foldl ShopWindows.closeAllShopWindows w).shopPlayerSet npc = [] := by
  induction npcs generalizing w with
  | nil => exact ⟨h, fun npc hnpc => absurd hnpc List.not_mem_nil⟩
  | cons npc npcs ih =>
    obtain ⟨hsound, hempty, -⟩ := h.closeAllShopWindows npc
    obtain ⟨hall, hrest⟩ := ih hsound
    refine ⟨hall, List.forall_mem_cons.mpr ⟨?_, hrest⟩⟩
    exact List.subset_nil.mp (hempty ▸ closeAll_subset npcs (w.closeAllShopWindows npc) npc)

/-- The sets are empty when they are cleared. -/
theorem SoundWith.reload (h : w.Sound tables) : w.reload.Sound tables := by
  obtain ⟨hsound, hempty⟩ := h.closeAll w.npcs
  have hset : ∀ npc, (if npc ∈ w.npcs then []
      else (w.npcs.foldl ShopWindows.closeAllShopWindows w).shopPlayerSet npc) =
      (w.npcs.foldl ShopWindows.closeAllShopWindows w).shopPlayerSet npc := by
    intro npc
    split_ifs with hnpc
    · exact (hempty npc hnpc).symm
    · rfl
  refine ⟨fun npc player => ?_, fun npc => ?_, hsound.present, hsound.idle,
    fun player npc howner => ?_, hsound.keys, hsound.owned, hsound.traded⟩
  · change player ∈ (if npc ∈ w.npcs then [] else _) ↔ _
    rw [hset]
    exact hsound.owner_iff npc player
  · change (if npc ∈ w.npcs then [] else _ : List Nat).Nodup
    rw [hset]
    exact hsound.sets npc
  · obtain ⟨o, ho⟩ := hsound.window player npc howner
    exact ⟨o, ho.opened, ho.npc, ho.items, ho.shown, ho.onBuy, ho.onSell⟩

theorem SoundWith.luaL_ref (h : w.Sound tables) (picker : LuaRefPicker) (value : V) :
    let taken := LuaRegistry.luaL_ref picker w.registry (some value)
    Sound tables
      { w with registry := taken.1, others := [taken.2].reduceOption ++ w.others } := by
  intro taken
  have htaken := h.grows (LuaRegistry.luaL_ref_grows picker w.registry (some value))
  refine ⟨htaken.owner_iff, htaken.sets, htaken.present, htaken.idle, fun player npc howner => ?_,
    htaken.keys, ?_, htaken.traded⟩
  · obtain ⟨o, ho⟩ := htaken.window player npc howner
    exact ⟨o, ho.opened, ho.npc, ho.items, ho.shown, ho.onBuy, ho.onSell⟩
  · obtain ⟨windows, hwindows, hperm⟩ := htaken.owned
    refine ⟨windows, hwindows, hperm.trans (List.perm_iff_count.mpr fun r => ?_)⟩
    simp only [List.count_append, List.nil_append, List.append_nil, taken]
    omega

theorem SoundWith.luaL_unref (h : w.Sound tables) {ref : Nat} (href : ref ∈ w.others) :
    Sound tables
      { w with registry := w.registry.luaL_unref (some ref), others := w.others.erase ref } := by
  obtain ⟨windows, hwindows, hperm⟩ := h.owned
  have hsplit : w.registry.keys.Perm ([some ref].reduceOption ++
      (windows.flatMap (fun player => refs (w.players player)) ++
        (w.leaked ++ w.others.erase ref))) := by
    refine hperm.trans (List.perm_iff_count.mpr fun r => ?_)
    have hcount := (List.perm_cons_erase href).count_eq r
    rw [show [some ref].reduceOption = [ref] from rfl]
    rw [← List.singleton_append, List.count_append] at hcount
    simp only [List.count_append, List.nil_append]
    omega
  have hkeys := LuaRegistry.unrefs_perm h.keys hsplit
  have hnodup := List.nodup_append.mp (hsplit.nodup_iff.mp h.keys)
  refine ⟨h.owner_iff, h.sets, h.present, h.idle, fun player npc howner => ?_,
    hkeys.nodup_iff.mpr hnodup.2.1, ⟨windows, hwindows, hkeys⟩, h.traded⟩
  obtain ⟨o, ho⟩ := h.window player npc howner
  have hmem : player ∈ windows := (hwindows.2 player).mpr fun hnone =>
    absurd (howner.symm.trans hnone) (Option.some_ne_none _)
  have hlook : ∀ ref' ∈ callbacks (w.players player),
      (w.registry.luaL_unref (some ref)).lua_rawgeti ref' = w.registry.lua_rawgeti ref' := by
    intro ref' href'
    cases ref' with
    | none => rfl
    | some r =>
      suffices hother : some r ∉ [some ref] from LuaRegistry.lua_rawgeti_unrefs w.registry hother
      intro hr
      obtain rfl := Option.some.inj (List.mem_singleton.mp hr)
      refine hnodup.2.2 r (List.mem_singleton_self _) r (List.mem_append_left _ ?_) rfl
      exact List.mem_flatMap.mpr ⟨player, hmem, mem_refs.mpr href'⟩
  refine ⟨o, ho.opened, ho.npc, ho.items, ho.shown, ?_, ?_⟩
  · exact (hlook _ List.mem_cons_self).trans ho.onBuy
  · exact (hlook _ (List.mem_cons_of_mem _ (List.mem_singleton_self _))).trans ho.onSell

theorem SoundWith.apply (h : w.Sound setting.tables) {op : ShopOp V} (hvalid : w.Valid op) :
    (w.apply setting op).Sound setting.tables := by
  cases op with
  | luaOpenShopWindow call => exact h.luaOpenShopWindow hvalid
  | luaNpcOpenShopWindow call => exact h.luaNpcOpenShopWindow hvalid
  | luaCloseShopWindow npc player => exact SoundWith.luaCloseShopWindow h npc player
  | playerCloseShop player => exact (h.closeShopWindow player true).1
  | onRemovePlayer player => exact (h.closeShopWindow player true).1
  | playerPurchaseItem player request entered => exact h.playerPurchaseItem player request entered
  | playerSellItem player request entered => exact h.playerSellItem player request entered
  | createNpc npc =>
    refine ⟨h.owner_iff, h.sets, fun player npc' howner => ?_, h.idle, fun player npc' howner => ?_,
      h.keys, h.owned, h.traded⟩
    · exact List.mem_cons_of_mem _ (h.present player npc' howner)
    · obtain ⟨o, ho⟩ := h.window player npc' howner
      exact ⟨o, ho.opened, ho.npc, ho.items, ho.shown, ho.onBuy, ho.onSell⟩
  | removeNpc npc => exact h.removeNpc npc
  | reload => exact h.reload
  | luaL_ref value => exact h.luaL_ref setting.picker value
  | luaL_unref ref => exact h.luaL_unref hvalid

theorem sound_init (tables : ShopTables) : Sound tables ({} : ShopWindows V) where
  owner_iff _ _ := iff_of_false List.not_mem_nil (Option.some_ne_none _).symm
  sets _ := List.nodup_nil
  present _ _ howner := by cases howner
  idle _ _ := ⟨rfl, rfl⟩
  window _ _ howner := by cases howner
  keys := List.nodup_nil
  owned := ⟨[], ⟨List.nodup_nil, fun _ => iff_of_false List.not_mem_nil fun hne => hne rfl⟩,
    List.Perm.refl _⟩
  traded _ ht := absurd ht List.not_mem_nil

def breadOffer : ShopItem where
  itemId := bread.id
  subType := 0
  sellPrice := 0
  buyPrice := 3
  realName := "bread"

def breadSetting : ShopSetting Nat where
  tables := { items := sampleItems, getItemIdByClientId := fun _ => bread }
  isFunction value := value % 2 = 0
  picker := .next

def breadCalls : List (ShopOp Nat) :=
  [.createNpc 1, .createNpc 2,
    .luaNpcOpenShopWindow
      { npc := some 1
        player := some 5
        items := some [breadOffer]
        fourth := some 10
        fifth := some (some 12) },
    .luaOpenShopWindow
      { player := some 5
        npc := some 2
        items := some [breadOffer]
        onBuy := some 14
        onSell := none },
    .playerPurchaseItem 5 ⟨0, 0, 2, false, false⟩ true]

def breadShop : ShopWindows Nat := breadCalls.foldl (apply breadSetting) {}

theorem reachable_apply {w : ShopWindows V} (h : Run.Reachable (system setting) w) (op : ShopOp V)
    (hvalid : w.Valid op) : Run.Reachable (system setting) (w.apply setting op) :=
  h.step' ⟨hvalid, rfl⟩

theorem reachable_breadShop : Run.Reachable (system breadSetting) breadShop := by
  have h₀ : Run.Reachable (system breadSetting) {} := .init rfl
  have h₁ := reachable_apply h₀ (.createNpc 1) List.not_mem_nil
  have h₂ := reachable_apply h₁ (.createNpc 2) (show 2 ∉ [1] by decide)
  have h₃ := reachable_apply h₂ breadCalls[2] fun npc hnpc => by
    cases hnpc
    exact (show 1 ∈ [2, 1] by decide)
  have h₄ := reachable_apply h₃ breadCalls[3] fun npc hnpc => by
    cases hnpc
    exact (show 2 ∈ [2, 1] by decide)
  exact reachable_apply h₄ breadCalls[4] trivial

end ShopWindows

end Eloth
