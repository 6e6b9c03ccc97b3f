import Eloth.AddItem

/-!
# Trading

The requests that drive a trade between two players, and the transfer of the goods once both
have accepted. A result is missing where the server would dereference a null pointer.
-/

namespace Eloth.Game

def areInRange (dx dy dz : Nat) (a b : Position) : Bool :=
  ((a.x : Int) - b.x).natAbs ≤ dx && ((a.y : Int) - b.y).natAbs ≤ dy &&
    ((a.z : Int) - b.z).natAbs ≤ dz

def playerPosition (w : World) (p : PlayerId) : Position := (w.player p).tile

/-! ## Requests -/

def lockedItems (w : World) : List ItemRef :=
  (List.range w.next).filter fun r => (w.tradeItems r).isSome

/-- An offered item may not be offered already, hold an offered item or lie inside one. -/
def isAlreadyTraded (w : World) (tradeItem : ItemRef) : Bool :=
  (lockedItems w).any fun item =>
    tradeItem = item ||
      (w.isContainer tradeItem && w.isHoldingItem tradeItem item) ||
      (w.isContainer item && w.isHoldingItem item tradeItem)

def internalStartTrade (w : World) (player tradePartner : PlayerId) (tradeItem : ItemRef) :
    World :=
  let own := w.trade player
  let other := w.trade tradePartner
  if own.tradeState ≠ .none ∧
      ¬(own.tradeState = .acknowledge ∧ own.tradePartner = some tradePartner) then w
  else if other.tradeState ≠ .none ∧ other.tradePartner ≠ some player then w
  else
    let w := w.setTrade player
      { tradeState := .initiated, tradePartner := some tradePartner, tradeItem := some tradeItem }
    let w := { w with tradeItems := Function.update w.tradeItems tradeItem (some player) }
    if (w.trade tradePartner).tradeState = .none then
      w.setTrade tradePartner
        { w.trade tradePartner with tradeState := .acknowledge, tradePartner := some player }
    else w

/-- The checks of `Game::playerRequestTrade` before the trade is started. `tradeThing` is what
the client points at, and `spriteMatches` says that it has the client id the request names. -/
def mayRequestTrade (env : Env) (w : World) (player tradePartner : PlayerId) (tradeItem : ItemRef)
    (spriteMatches : Bool) : Bool :=
  let it := w.item tradeItem
  let pos := playerPosition w player
  let itemPos := w.getPosition tradeItem
  let houseForbids :=
    match w.getTile tradeItem with
    | none => false
    | some tile =>
      match (w.tile tile).house with
      | none => false
      | some house => env.onlyInvitedCanMoveHouseItems && !env.isInvited house player
  w.isOnline player && w.isOnline tradePartner && tradePartner != player &&
    areInRange 2 2 0 (playerPosition w tradePartner) pos &&
    env.canThrowObjectTo w (playerPosition w tradePartner) pos &&
    spriteMatches && it.isPickupable env.items && !it.hasAttribute .uniqueId && !houseForbids &&
    pos.z == itemPos.z && areInRange 1 1 0 itemPos pos && !isAlreadyTraded w tradeItem &&
    !(w.isContainer tradeItem && decide (100 < w.getItemHoldingCount tradeItem + 1)) &&
    env.eventPlayerOnTradeRequest w player tradePartner tradeItem

def playerRequestTrade (env : Env) (w : World) (player tradePartner : PlayerId)
    (tradeThing : Option ItemRef) (spriteMatches : Bool) : World :=
  match tradeThing with
  | none => w
  | some tradeItem =>
    if mayRequestTrade env w player tradePartner tradeItem spriteMatches then
      internalStartTrade w player tradePartner tradeItem
    else w

def playerCloseTrade (w : World) (player : PlayerId) : World :=
  if w.isOnline player then internalCloseTrade w player else w

/-! ## The transfer -/

def getSlotType (it : ItemType) : Int :=
  if it.weaponType = .shield then CONST_SLOT_RIGHT
  else if hasBitSet SLOTP_HEAD it.slotPosition then CONST_SLOT_HEAD
  else if hasBitSet SLOTP_NECKLACE it.slotPosition then CONST_SLOT_NECKLACE
  else if hasBitSet SLOTP_ARMOR it.slotPosition then CONST_SLOT_ARMOR
  else if hasBitSet SLOTP_LEGS it.slotPosition then CONST_SLOT_LEGS
  else if hasBitSet SLOTP_FEET it.slotPosition then CONST_SLOT_FEET
  else if hasBitSet SLOTP_RING it.slotPosition then CONST_SLOT_RING
  else if hasBitSet SLOTP_AMMO it.slotPosition then CONST_SLOT_AMMO
  else if hasBitSet SLOTP_TWO_HAND it.slotPosition || hasBitSet SLOTP_LEFT it.slotPosition then
    CONST_SLOT_LEFT
  else CONST_SLOT_RIGHT

/-- A player who trades the equipped backpack away must have the slot of the other item free. -/
def backpackResult (env : Env) (w : World) (p : PlayerId) (own other : Option ItemRef) :
    Option ReturnValue :=
  if Player.getInventoryItem w p CONST_SLOT_BACKPACK = own then
    other.map fun r =>
      let slot := getSlotType (env.items.get (w.item r).id)
      if (Player.getInventoryItem w p slot).isSome then .notEnoughRoom else .noError
  else some .noError

def testAdd (env : Env) (w : World) (p : PlayerId) (item : Option ItemRef) : Option ReturnValue :=
  match item with
  | none => some .notPossible
  | some r => (internalAddItem env w (.player p) r INDEX_WHEREEVER 0 true).map Added.ret

def testRemove (env : Env) (w : World) (item : ItemRef) : ReturnValue :=
  (internalRemoveItem env w item (some (w.item item).getItemCount) true 0).1

def tradeMove (env : Env) (w : World) (item : ItemRef) (receiver : PlayerId)
    (tradeItem : Option ItemRef) : Option (ReturnValue × World) :=
  (w.item item).parent.bind fun source =>
    internalMoveItem env w
      { fromCylinder := source
        toCylinder := .player receiver
        index := INDEX_WHEREEVER
        item := item
        count := (w.item item).getItemCount
        flags := FLAG_IGNOREAUTOSTACK
        actor := none
        withEvents := false
        tradeItem := tradeItem }

/-- `onTradeEvent(ON_TRADE_TRANSFER)`: a house deed is used up. The change of the owner of the
house is not modelled. -/
def onTradeTransfer (env : Env) (w : World) (item : ItemRef) : World :=
  match (w.item item).cls with
  | .houseTransfer => (internalRemoveItem env w item (some 1) false 0).2
  | _ => w

/-- The two moves. The result of the second one is not looked at. -/
def exchangeGoods (env : Env) (w : World) (player tradePartner : PlayerId)
    (playerItem partnerItem : ItemRef) : Option World :=
  (tradeMove env w playerItem tradePartner (some partnerItem)).bind fun (ret, w) =>
    if ret ≠ .noError then some w
    else (tradeMove env w partnerItem player none).map fun (_, w) =>
      onTradeTransfer env (onTradeTransfer env w playerItem) partnerItem

def mayExchange (env : Env) (w : World) (player tradePartner : PlayerId)
    (playerItem partnerItem : Option ItemRef) : Option Bool :=
  (backpackResult env w tradePartner partnerItem playerItem).bind fun tradePartnerRet =>
    (backpackResult env w player playerItem partnerItem).bind fun playerRet =>
      let bothBackpacks :=
        Player.getInventoryItem w player CONST_SLOT_BACKPACK = playerItem ∧
          Player.getInventoryItem w tradePartner CONST_SLOT_BACKPACK = partnerItem
      if tradePartnerRet ≠ .noError ∨ playerRet ≠ .noError ∨ bothBackpacks then some false
      else
        (testAdd env w tradePartner playerItem).bind fun tradePartnerRet =>
          (testAdd env w player partnerItem).map fun playerRet =>
            tradePartnerRet = .noError ∧ playerRet = .noError

def tryExchange (env : Env) (w : World) (player tradePartner : PlayerId)
    (playerItem partnerItem : Option ItemRef) : Option World :=
  (mayExchange env w player tradePartner playerItem partnerItem).bind fun may =>
    match playerItem, partnerItem with
    | some a, some b =>
      if may ∧ testRemove env w a = .noError ∧ testRemove env w b = .noError then
        exchangeGoods env w player tradePartner a b
      else some w
    | _, _ => some w

/-- Both players have accepted and the way between them is free. -/
def transferGoods (env : Env) (w : World) (player tradePartner : PlayerId) : Option World :=
  let playerItem := (w.trade player).tradeItem
  let partnerItem := (w.trade tradePartner).tradeItem
  let w := w.setTrade player { w.trade player with tradeState := .transfer }
  let w := w.setTrade tradePartner { w.trade tradePartner with tradeState := .transfer }
  let w := unlockTradeItem (unlockTradeItem w playerItem) partnerItem
  (tryExchange env w player tradePartner playerItem partnerItem).map fun w =>
    (w.setTrade player Trade.none).setTrade tradePartner Trade.none

def playerAcceptTrade (env : Env) (w : World) (player : PlayerId) : Option World :=
  let own := w.trade player
  if !w.isOnline player then some w
  else if own.tradeState ≠ .acknowledge ∧ own.tradeState ≠ .initiated then some w
  else
    match own.tradePartner with
    | none => some w
    | some tradePartner =>
      let w := w.setTrade player { own with tradeState := .accept }
      if (w.trade tradePartner).tradeState ≠ .accept then some w
      else if !env.canThrowObjectTo w (playerPosition w tradePartner) (playerPosition w player) then
        some (internalCloseTrade w player)
      else if !env.eventPlayerOnTradeAccept w player tradePartner then
        some (internalCloseTrade w player)
      else transferGoods env w player tradePartner

/-! ## Trades that end by themselves -/

/-- `Player::onCreatureMove` for the player itself: the offered item and the partner must stay
near. -/
def onCreatureMove (w : World) (player : PlayerId) : World :=
  if isTransferring w player then w
  else
    let pos := playerPosition w player
    let w :=
      match (w.trade player).tradeItem with
      | none => w
      | some tradeItem =>
        if areInRange 1 1 0 (w.getPosition tradeItem) pos then w else internalCloseTrade w player
    match (w.trade player).tradePartner with
    | none => w
    | some tradePartner =>
      if areInRange 2 2 0 (playerPosition w tradePartner) pos then w
      else internalCloseTrade w player

def moveCreature (w : World) (player : PlayerId) (pos : Position) : World :=
  onCreatureMove (w.setPlayer player { w.player player with tile := pos }) player

/-- `Player::onRemoveCreature` for the player itself, at a logout or a death. -/
def onRemoveCreature (w : World) (player : PlayerId) : World :=
  let w := if (w.trade player).tradePartner.isSome then internalCloseTrade w player else w
  { w with isOnline := Function.update w.isOnline player false }

end Eloth.Game
