import Eloth.AccessList
import Eloth.MoveRoom
import Eloth.PlayerItems
import Eloth.RemoveItems
import Eloth.Sample
import Eloth.Transform

/-!
# Mail

`Mailbox::sendItem` moves a parcel or a letter into the depot locker of its receiver. The locker of a
receiver who is offline belongs to a temporary player, which is saved and then destroyed.
-/

namespace Eloth

def ITEM_LOCKER : Nat := 2589
def ITEM_PARCEL : Nat := 2595
def ITEM_LETTER : Nat := 2597
def ITEM_LABEL : Nat := 2599

/-! ## Depots -/

/-- The lockers and chests of a player object by their depot. -/
structure Depots where
  depotLockerMap : List (Nat × ItemRef)
  depotChests : List (Nat × ItemRef)
  maxDepotItems : Nat

/-- The lockers are containers, and what stands for a chest is one. -/
structure Depots.Valid (w : World) (depots : Depots) : Prop where
  locker : ∀ entry ∈ depots.depotLockerMap, w.isContainer entry.2 = true
  chest : ∀ entry ∈ depots.depotChests, entry.2 < w.next ∧ (w.item entry.2).id = ITEM_DEPOT

def newContainer (id maxSize : Nat) (kind : ContainerKind) : Item where
  id := id
  count := 1
  attributes := none
  cls := .container { kind, maxSize, itemlist := [], totalWeight := 0 }
  parent := none

namespace Depots

variable (env : Env) (w : World) (depots : Depots) (depotId : Nat)

/-- `Player::getDepotChest` with `autoCreate`. -/
def getDepotChest : ItemRef × World × Depots :=
  match depots.depotChests.lookup depotId with
  | some chest => (chest, w, depots)
  | none =>
    let chest :=
      newContainer ITEM_DEPOT (env.items.get ITEM_DEPOT).maxItems (.depotChest depots.maxDepotItems)
    (w.next, w.alloc chest, { depots with depotChests := (depotId, w.next) :: depots.depotChests })

/-- `Player::getDepotLocker`. -/
def getDepotLocker : ItemRef × World × Depots :=
  match depots.depotLockerMap.lookup depotId with
  | some locker => (locker, w, depots)
  | none =>
    let locker := w.next
    let (chest, w, depots) :=
      depots.getDepotChest env (w.alloc (newContainer ITEM_LOCKER 30 .depotLocker)) depotId
    (locker, Container.internalAddThing env w locker chest,
      { depots with depotLockerMap := (depotId, locker) :: depots.depotLockerMap })

/-- What `savePlayer` hands to `saveItems` for the lockers. -/
def lockerList : List (Nat × ItemRef) :=
  depots.depotLockerMap.flatMap fun (depotId, locker) =>
    ((w.itemlist locker).filter fun item => (w.item item).id ≠ ITEM_DEPOT).map fun item =>
      (depotId, item)

end Depots

/-! ## The post -/

/-- The world with the players that are online and the towns. -/
structure PostOffice where
  world : World
  getPlayerByName : List UInt8 → Option PlayerId
  depots : PlayerId → Depots
  /-- Names and ids, in the order of the ids. -/
  towns : List (List UInt8 × Nat)
  valid : ∀ p, (depots p).Valid world

/-- What `loadPlayerByName` makes of the rows of a player. -/
structure TmpPlayer (w : World) where
  objects : List Item
  depots : Depots
  valid : depots.Valid (objects.foldl World.alloc w)

def TmpPlayer.world {w : World} (tmpPlayer : TmpPlayer w) : World :=
  tmpPlayer.objects.foldl World.alloc w

/-- The answers of the database to `savePlayer`. -/
structure SaveAnswers where
  /-- The column `save` of the row of the player, if the query succeeds. -/
  save : Option Nat
  lastlogin : Bool
  /-- Every query of the transaction succeeds and so does its commit. -/
  transaction : Bool

/-- The result of `savePlayer`, and the rows of the lockers where they were written anew. -/
def savePlayer (answers : SaveAnswers) (w : World) (depots : Depots) (needsSave : Bool) :
    Bool × Option (List (Nat × ItemRef)) :=
  match answers.save with
  | none => (false, none)
  | some save =>
    if save = 0 then (answers.lastlogin, none)
    else if answers.transaction then (true, if needsSave then some (depots.lockerList w) else none)
    else (false, none)

/-- What is left of a call of `sendItem`: its result, the depots of the receiver and the rows that
were written. The depots of a temporary player are gone by then, with all that lies in them. -/
structure Sent where
  result : Bool
  world : World
  depots : Option Depots
  rows : Option (List (Nat × ItemRef))

namespace Mailbox

def canSend (item : Item) : Bool := item.id = ITEM_PARCEL || item.id = ITEM_LETTER

/-- `Towns::getTown`. -/
def getTown (towns : List (List UInt8 × Nat)) (townName : List UInt8) : Option Nat :=
  (towns.find? fun town => sameText townName town.1).map Prod.snd

def getText (item : Item) : List UInt8 :=
  match item.attr .text with
  | some (.string text) => text.toUTF8.data.toList
  | _ => []

/-- The receiver and the depot from the first two lines of a text. -/
def readAddress (towns : List (List UInt8 × Nat)) (text : List UInt8) :
    Option (List UInt8 × Nat) :=
  let lines := text.splitOn NEWLINE
  if text.isEmpty then none
  else (getTown towns (lines[1]?.getD [])).map fun depotId =>
    (trimString (lines.headD []), depotId)

def getReceiver (w : World) (towns : List (List UInt8 × Nat)) :
    Nat → ItemRef → Option (List UInt8 × Nat)
  | 0, _ => none
  | fuel + 1, item =>
    if w.isContainer item then
      (w.itemlist item).findSome? fun containerItem =>
        if (w.item containerItem).id = ITEM_LABEL then getReceiver w towns fuel containerItem
        else none
    else readAddress towns (getText (w.item item))

/-- The move into the locker and the new id of the item. The result is missing where the item has
no parent. -/
def deliver (env : Env) (w : World) (item locker : ItemRef) : Option (Bool × World) :=
  match (w.item item).parent with
  | none => none
  | some former =>
    match Game.internalMoveItem env w
        ⟨former, .container locker, INDEX_WHEREEVER, item, (w.item item).getItemCount, 0, none,
          false, none⟩ with
    | none => none
    | some (ret, w) =>
      if ret = .noError then
        some (true, (Game.transformItem env w item ((w.item item).id + 1) (-1)).2)
      else some (false, w)

/-- The locker notes that it needs to be saved when the item that was moved is found in it. -/
def needsSave (w : World) (item locker : ItemRef) : Bool :=
  Container.getThingIndex w locker item ≠ -1

/-- The branch for a receiver who is online. -/
def sendOnline (env : Env) (w : World) (depots : Depots) (item : ItemRef) (depotId : Nat) :
    Option Sent :=
  let (locker, w, depots) := depots.getDepotLocker env w depotId
  (deliver env w item locker).map fun (result, w) => ⟨result, w, some depots, none⟩

/-- The branch for a temporary player. Whether the save succeeds is not asked. -/
def sendOffline (env : Env) (w : World) (depots : Depots) (item : ItemRef) (depotId : Nat)
    (answers : SaveAnswers) : Option Sent :=
  let (locker, w, depots) := depots.getDepotLocker env w depotId
  (deliver env w item locker).map fun (result, w) =>
    if result then ⟨true, w, none, (savePlayer answers w depots (needsSave w item locker)).2⟩
    else ⟨false, w, none, none⟩

/-- `Mailbox::sendItem`, with the answers that `loadPlayerByName` and `savePlayer` get. -/
def sendItem (env : Env) (post : PostOffice) (item : ItemRef)
    (loadPlayerByName : List UInt8 → Option (TmpPlayer post.world)) (answers : SaveAnswers) :
    Option Sent :=
  match getReceiver post.world post.towns post.world.climbFuel item with
  | none => some ⟨false, post.world, none, none⟩
  | some (receiver, depotId) =>
    if receiver.isEmpty || depotId = 0 then some ⟨false, post.world, none, none⟩
    else
      match post.getPlayerByName receiver with
      | some player => sendOnline env post.world (post.depots player) item depotId
      | none =>
        match loadPlayerByName receiver with
        | none => some ⟨false, post.world, none, none⟩
        | some tmpPlayer =>
          sendOffline env tmpPlayer.world tmpPlayer.depots item depotId answers

/-! ## Moving into a locker -/

/-- The move of `deliver`. -/
def mailMove (w : World) (former : Cylinder) (item locker : ItemRef) : Game.Move :=
  ⟨former, .container locker, INDEX_WHEREEVER, item, (w.item item).getItemCount, 0, none, false,
    none⟩

/-- The locker takes the item and the former cylinder lets it go. -/
structure Accepts (env : Env) (w : World) (former : Cylinder) (item locker : ItemRef) : Prop where
  add : Container.queryAdd env w locker INDEX_WHEREEVER item (w.item item).getItemCount 0 = .noError
  remove : Cylinder.queryRemove env w former item
    ((w.container locker).capacity - (w.container locker).size) 0 none = .noError

/-- The item lies in the locker, with this type. -/
structure InLocker (w : World) (item locker : ItemRef) (id : Nat) : Prop where
  parent : (w.item item).parent = some (.container locker)
  mem : item ∈ w.contents (.container locker)
  id : (w.item item).id = id

variable {env : Env} {w w' : World} {former : Cylinder} {item locker : ItemRef} {id : Nat}

theorem destination_mail (hstack : (w.item item).isStackable env.items = false) :
    Game.destination env w (mailMove w former item locker) =
      ⟨.container locker, INDEX_WHEREEVER, none, 0⟩ := by
  have hquery : Container.queryDestination env w locker INDEX_WHEREEVER item none 0 =
      ⟨.container locker, INDEX_WHEREEVER, none, 0⟩ := by
    have hindex : ¬ INDEX_WHEREEVER = 254 := by decide
    unfold Container.queryDestination
    simp only [hindex, if_false, hstack, ne_eq, ite_self, Bool.and_false, Bool.false_and,
      Bool.false_eq_true, not_true_eq_false]
  unfold Game.destination MAP_MAX_LAYERS Game.resolve
  change (if (Container.queryDestination env w locker INDEX_WHEREEVER item none 0).cylinder =
    .container locker then _ else _ : Destination) = _
  rw [if_pos (by rw [hquery])]
  exact hquery

namespace InLocker

theorem of_alike (h : InLocker w item locker id) (halike : Alike w w') :
    InLocker w' item locker id :=
  ⟨(halike.parent item).trans h.parent, by rw [halike.contents]; exact h.mem,
    (congrArg Prod.fst (halike.record item)).trans h.id⟩

theorem of_changed (h : InLocker w item locker id) {r : ItemRef} (hchanged : Changed w w' r) :
    InLocker w' item locker (w'.item item).id :=
  ⟨(hchanged.parent item).trans h.parent, by rw [hchanged.contents]; exact h.mem, rfl⟩

theorem of_put (h : Put w w' (.container locker) item) :
    InLocker w' item locker (w.item item).id :=
  ⟨by rw [h.parent, if_pos rfl], (h.contents_self.mem_iff).mpr List.mem_cons_self,
    congrArg Prod.fst (h.record item)⟩

theorem notifyAdded (h : InLocker w item locker id) {c : Cylinder} {r : Option ItemRef} :
    InLocker (Game.notifyAdded env c w r) item locker id := by
  cases r with
  | none => exact h
  | some r =>
    unfold Game.notifyAdded
    dsimp only
    split_ifs
    · exact h.of_alike Alike.refreshWeight
    · exact h

theorem notifyRemoved (h : InLocker w item locker id) {c : Cylinder} {itemIndex : Int} :
    InLocker (Game.notifyRemoved env c itemIndex w) item locker id := by
  unfold Game.notifyRemoved
  split_ifs
  · exact h.of_alike Alike.refreshWeight
  · exact h

/-- A change of attributes. -/
theorem modifyItem (h : InLocker w item locker id) {r : ItemRef} {f : Item → Item}
    (hcls : ∀ it, (f it).cls = it.cls) (hparent : ∀ it, (f it).parent = it.parent)
    (hid : ∀ it, (f it).id = it.id) : InLocker (w.modifyItem r f) item locker id :=
  ⟨(h.of_changed (changed_modifyItem hcls hparent)).parent,
    (h.of_changed (changed_modifyItem hcls hparent)).mem,
    (World.modifyItem_proj Item.id hid).trans h.id⟩

theorem registerDecay (h : InLocker w item locker id) {r : ItemRef} :
    InLocker (Game.registerDecay w r) item locker id := by
  unfold Game.registerDecay
  split_ifs
  · have hdecaying : InLocker (w.modifyItem r fun it => it.setDecaying DECAYING_TRUE) item locker
        id := h.modifyItem (fun _ => rfl) (fun _ => rfl) fun _ => rfl
    exact ⟨hdecaying.parent, hdecaying.mem, hdecaying.id⟩
  · exact h

end InLocker

/-- What does not stack is taken from its cylinder and put into the locker. -/
theorem carry_mail (former : Cylinder) (hstack : (w.item item).isStackable env.items = false)
    (hlocker : w.isContainer locker = true) {m : Nat} :
    ∃ w', Game.carry env w (mailMove w former item locker)
        ⟨.container locker, INDEX_WHEREEVER, none, 0⟩ none m = some (some item, w') ∧
      InLocker w' item locker (w.item item).id := by
  have hid : ((Cylinder.removeThing env w former item m).item item).id = (w.item item).id :=
    (Recounted.removeThing m).id item
  have hstack' : ((Cylinder.removeThing env w former item m).item item).isStackable env.items =
      false := by
    rw [Item.isStackable, hid, ← Item.isStackable, hstack]
  have hroom : w.room locker = some ((w.container locker).size, (w.container locker).capacity) :=
    room_eq_some_iff.mpr ⟨hlocker, rfl, rfl⟩
  have hremoved := @room_removeThing env w locker item former _ _ m hroom
  obtain ⟨hcontainer, -, -⟩ := room_eq_some_iff.mp hremoved
  have hput : Put (Cylinder.removeThing env w former item m)
      (Container.addThing env (Cylinder.removeThing env w former item m) locker INDEX_WHEREEVER
        item) (.container locker) item :=
    Container.addThing_put hcontainer (by unfold INDEX_WHEREEVER; omega)
  have hin := InLocker.of_put hput
  rw [hid] at hin
  unfold Game.carry
  dsimp only [mailMove]
  simp only [hstack, Bool.false_eq_true, if_false, Game.mergeStack, Game.moveItem, hstack',
    Option.map_some, Game.releaseRemoved, Bool.false_and, Game.addMoved]
  exact ⟨_, rfl, hin.notifyRemoved.notifyAdded.notifyAdded⟩

theorem queryMaxCount_mail (hstack : (w.item item).isStackable env.items = false) {count : Nat} :
    Container.queryMaxCount env w locker INDEX_WHEREEVER item count 0 =
      (if (w.container locker).capacity - (w.container locker).size = 0 then
        .containerNotEnoughRoom else .noError,
        (w.container locker).capacity - (w.container locker).size) := by
  unfold Container.queryMaxCount
  simp only [Game.limit_of_zero, Bool.false_eq_true, if_false, hstack]

/-- With room in the locker only the former cylinder can refuse. -/
theorem transfer_mail (former : Cylinder) (hstack : (w.item item).isStackable env.items = false)
    (hlocker : w.isContainer locker = true)
    (hfree : (w.container locker).capacity - (w.container locker).size ≠ 0) {ret : ReturnValue}
    (hremove : Cylinder.queryRemove env w former item
      ((w.container locker).capacity - (w.container locker).size) 0 none = ret) :
    (ret = .noError → ∃ w', Game.transfer env w (mailMove w former item locker)
        ⟨.container locker, INDEX_WHEREEVER, none, 0⟩ none = some (.noError, w') ∧
      InLocker w' item locker (w.item item).id) ∧
    (ret ≠ .noError → Game.transfer env w (mailMove w former item locker)
        ⟨.container locker, INDEX_WHEREEVER, none, 0⟩ none = some (ret, w)) := by
  have hmax : Cylinder.queryMaxCount env w (.container locker) INDEX_WHEREEVER item
      (w.item item).getItemCount 0 =
        (.noError, (w.container locker).capacity - (w.container locker).size) := by
    rw [Cylinder.queryMaxCount, queryMaxCount_mail hstack, if_neg hfree]
  have hcount : Game.moveCount env w item (w.item item).getItemCount
      ((w.container locker).capacity - (w.container locker).size) =
        (w.container locker).capacity - (w.container locker).size := by
    rw [Game.moveCount, hstack]
    rfl
  obtain ⟨w', hcarry, hin⟩ := carry_mail former hstack hlocker
    (m := (w.container locker).capacity - (w.container locker).size)
  have hstack' : (w'.item item).isStackable env.items = false := by
    rw [Item.isStackable, hin.id, ← Item.isStackable, hstack]
  unfold mailMove at hcarry ⊢
  unfold Game.transfer
  simp only [hmax, hcount, hremove, ne_eq, not_true_eq_false, false_and, if_false,
    Game.insideTradeItem, Bool.false_eq_true]
  constructor
  · rintro rfl
    simp only [not_true_eq_false, if_false, hcarry, Option.map_some, hstack', Bool.false_eq_true,
      false_and]
    exact ⟨_, rfl, hin.registerDecay⟩
  · intro hret
    rw [if_pos hret]

/-- The move succeeds when the locker accepts the item, and else it changes nothing. -/
theorem internalMoveItem_mail (former : Cylinder)
    (hstack : (w.item item).isStackable env.items = false)
    (hlocker : w.isContainer locker = true) :
    (Accepts env w former item locker → ∃ w',
      Game.internalMoveItem env w (mailMove w former item locker) = some (.noError, w') ∧
        InLocker w' item locker (w.item item).id) ∧
    (¬ Accepts env w former item locker → ∃ ret, ret ≠ .noError ∧
      Game.internalMoveItem env w (mailMove w former item locker) = some (ret, w)) := by
  set mv := mailMove w former item locker with hmv
  have hasked : Game.tryAdmit env w mv ⟨.container locker, INDEX_WHEREEVER, none, 0⟩ =
      some (Container.queryAdd env w locker INDEX_WHEREEVER item (w.item item).getItemCount 0,
        ⟨w, none⟩) := by
    unfold Game.tryAdmit
    exact if_pos Game.queryAdd_container_ne
  have hmove : Game.internalMoveItem env w mv =
      if Container.queryAdd env w locker INDEX_WHEREEVER item (w.item item).getItemCount 0 ≠
          .noError then
        some (Container.queryAdd env w locker INDEX_WHEREEVER item (w.item item).getItemCount 0, w)
      else Game.transfer env w mv ⟨.container locker, INDEX_WHEREEVER, none, 0⟩ none := by
    unfold Game.internalMoveItem
    rw [hmv, destination_mail hstack, ← hmv]
    dsimp only
    rw [hasked]
    rfl
  rw [hmove]
  by_cases hadd : Container.queryAdd env w locker INDEX_WHEREEVER item
      (w.item item).getItemCount 0 = .noError
  · rw [if_neg (not_not.mpr hadd)]
    have hfree : (w.container locker).capacity - (w.container locker).size ≠ 0 := by
      rcases Game.queryAdd_wherever hadd Game.limit_of_zero with howner | hindex | hsize
      · exact absurd howner (by decide)
      · exact absurd rfl hindex
      · omega
    obtain ⟨hmoves, hstays⟩ := transfer_mail former hstack hlocker hfree rfl
    exact ⟨fun h => hmoves h.remove, fun h => ⟨_, fun hremove => h ⟨hadd, hremove⟩,
      hstays fun hremove => h ⟨hadd, hremove⟩⟩⟩
  · rw [if_pos hadd]
    exact ⟨fun h => absurd h.add hadd, fun _ => ⟨_, hadd, rfl⟩⟩

/-! ## The stamp -/

theorem setDefaultSubtype_kept (items : Items) (item : Item) :
    (item.setDefaultSubtype items).cls = item.cls ∧
      (item.setDefaultSubtype items).parent = item.parent := by
  unfold Item.setDefaultSubtype
  dsimp only
  split_ifs <;> exact ⟨rfl, rfl⟩

theorem InLocker.updateThing (h : InLocker w item locker id) {itemId count : Nat} :
    InLocker (Cylinder.updateThing env w (.container locker) item itemId count) item locker
      itemId := by
  obtain ⟨hchanged, hrecord⟩ := @Container.updateThing_changed env w item locker h.mem itemId count
  have hid := congrArg Prod.fst hrecord
  have hmoved := h.of_changed hchanged
  exact ⟨hmoved.parent, hmoved.mem,
    hid.trans (Item.setSubType_setID_id _ _ _ _)⟩

theorem updateItemType_mail {newId : Nat} {newCount : Int} (h : InLocker w item locker id) :
    ∃ id', (id' = id ∨ id' = newId) ∧
      InLocker (Game.updateItemType env w (.container locker) item newId newCount).2 item locker
        id' := by
  have hrefreshed : InLocker (Cylinder.refreshWeight env w (.container locker)) item locker id :=
    h.of_alike Alike.refreshWeight
  have hreset : ∀ P : Prop, [Decidable P] → InLocker
      (if P then (Cylinder.refreshWeight env w (.container locker)).modifyItem item fun it =>
        it.setDefaultSubtype env.items else Cylinder.refreshWeight env w (.container locker))
      item locker id := by
    intro P _
    split_ifs
    · exact hrefreshed.modifyItem (fun it => (setDefaultSubtype_kept env.items it).1)
        (fun it => (setDefaultSubtype_kept env.items it).2)
        fun it => it.setDefaultSubtype_id env.items
    · exact hrefreshed
  have hupdate : ∀ (P : Prop) [Decidable P] (itemId count : Nat), InLocker
      (Cylinder.refreshWeight env (Cylinder.updateThing env
        (if P then (Cylinder.refreshWeight env w (.container locker)).modifyItem item fun it =>
          it.setDefaultSubtype env.items else Cylinder.refreshWeight env w (.container locker))
        (.container locker) item itemId count) (.container locker)) item locker itemId :=
    fun P _ itemId count => (hreset P).updateThing.of_alike Alike.refreshWeight
  unfold Game.updateItemType Cylinder.postAddNotification Cylinder.postRemoveNotification
  dsimp only
  by_cases hsame : (env.items.get (w.item item).id).id ≠ (env.items.get newId).id
  · rw [if_pos hsame]
    exact ⟨newId, .inr rfl, hupdate _ _ _⟩
  · rw [if_neg hsame, hrefreshed.id]
    exact ⟨id, .inl rfl, hupdate _ _ _⟩

/-- In the tables of the server a parcel or a letter does not stack, and the stamped one with the
next id is of the same kind. -/
structure MailTypes (items : Items) : Prop where
  stackable : ∀ id, id = ITEM_PARCEL ∨ id = ITEM_LETTER → (items.get id).stackable = false
  alwaysOnTop : ∀ id, id = ITEM_PARCEL ∨ id = ITEM_LETTER →
    (items.get id).alwaysOnTop = (items.get (id + 1)).alwaysOnTop
  type : ∀ id, id = ITEM_PARCEL ∨ id = ITEM_LETTER →
    (items.get id).type = (items.get (id + 1)).type

/-- The stamp leaves the item where it is. -/
theorem transformItem_mail (htypes : MailTypes env.items)
    (hid : id = ITEM_PARCEL ∨ id = ITEM_LETTER) (h : InLocker w item locker id) :
    ∃ id', (id' = id ∨ id' = id + 1) ∧
      InLocker (Game.transformItem env w item (id + 1) (-1)).2 item locker id' := by
  unfold Game.transformItem
  -- what the recursive call would do does not matter
  generalize (fun w id => Game.transformItemAux env (fun w _ => (some item, w)) w item id (-1)) =
    again
  have hcount : ¬ ((-1 : Int) = 0 ∧ ((w.item item).isStackable env.items = true ∨
      (w.item item).hasAttribute .charges = true)) := fun hzero => absurd hzero.1 (by decide)
  unfold Game.transformItemAux
  dsimp only
  rw [h.id, if_neg (fun hsame => absurd hsame.1 (by omega)), h.parent]
  dsimp only
  rw [if_neg (not_not.mpr (htypes.alwaysOnTop id hid)), if_pos (htypes.type id hid),
    if_neg hcount]
  split_ifs
  · exact ⟨id, .inl rfl, h⟩
  · exact ⟨id, .inl rfl, h⟩
  · exact ⟨id, .inl rfl, h⟩
  · exact updateItemType_mail h

theorem deliver_spec (htypes : MailTypes env.items)
    (hid : (w.item item).id = ITEM_PARCEL ∨ (w.item item).id = ITEM_LETTER)
    (hparent : (w.item item).parent = some former) (hlocker : w.isContainer locker = true) :
    (Accepts env w former item locker → ∃ w' id', (id' = (w.item item).id ∨
      id' = (w.item item).id + 1) ∧ deliver env w item locker = some (true, w') ∧
        InLocker w' item locker id') ∧
    (¬ Accepts env w former item locker → deliver env w item locker = some (false, w)) := by
  obtain ⟨hmoves, hstays⟩ := internalMoveItem_mail former
    (htypes.stackable _ hid) hlocker
  unfold mailMove at hmoves hstays
  unfold deliver
  rw [hparent]
  dsimp only
  constructor
  · intro h
    obtain ⟨w', hmove, hin⟩ := hmoves h
    obtain ⟨id', hid', hstamped⟩ := transformItem_mail htypes hid hin
    refine ⟨_, id', hid', ?_, hstamped⟩
    rw [hmove]
    dsimp only
    rw [if_pos rfl, hin.id]
  · intro h
    obtain ⟨ret, hret, hmove⟩ := hstays h
    rw [hmove]
    exact if_neg hret

/-! ## Before the move -/

/-- The item lies in the cylinder. -/
structure Lies (w : World) (item : ItemRef) (former : Cylinder) : Prop where
  parent : (w.item item).parent = some former
  mem : item ∈ w.contents former
  lt : item < w.next
  allocated : ∀ r, former = .container r → r < w.next

theorem item_alloc {new : Item} {r : ItemRef} (hr : r < w.next) :
    (w.alloc new).item r = w.item r := Function.update_of_ne (Nat.ne_of_lt hr) _ _

namespace Lies

theorem alloc (h : Lies w item former) (new : Item) : Lies (w.alloc new) item former := by
  have hcontents : (w.alloc new).contents former = w.contents former := by
    cases former with
    | container r =>
      simp only [World.contents, World.itemlist, World.container,
        item_alloc (h.allocated r rfl)]
    | player p => rfl
    | tile pos => rfl
  exact ⟨by rw [item_alloc h.lt, h.parent], hcontents ▸ h.mem, Nat.lt_succ_of_lt h.lt,
    fun r hr => Nat.lt_succ_of_lt (h.allocated r hr)⟩

theorem of_put (h : Lies w item former) {c : Cylinder} {r : ItemRef} (hput : Put w w' c r)
    (hc : former ≠ c) (hr : item ≠ r) : Lies w' item former :=
  ⟨by rw [hput.parent, if_neg hr, h.parent], by rw [hput.contents_ne _ hc]; exact h.mem,
    by rw [hput.frame.next]; exact h.lt, by rw [hput.frame.next]; exact h.allocated⟩

end Lies

theorem internalAddThing_put (env : Env) (item : ItemRef) {self : ItemRef}
    (hself : w.isContainer self = true) :
    Put w (Container.internalAddThing env w self item) (.container self) item :=
  (Container.pushFront_put hself).of_skeleton rfl (Container.skeleton_addWeight _ _ _)

variable {depots : Depots} {depotId : Nat}

theorem getDepotChest_spec
    (hchests : ∀ entry ∈ depots.depotChests, (w.item entry.2).id = ITEM_DEPOT)
    (h : Lies w item former) (hid : (w.item item).id ≠ ITEM_DEPOT) {chest : ItemRef} {depots' : Depots}
    (hchest : depots.getDepotChest env w depotId = (chest, w', depots')) :
    chest ≠ item ∧ Lies w' item former ∧ (w'.item item).id = (w.item item).id ∧
      ∀ r < w.next, w'.isContainer r = w.isContainer r := by
  unfold Depots.getDepotChest at hchest
  cases hfind : depots.depotChests.lookup depotId with
  | some found =>
    rw [hfind] at hchest
    obtain ⟨rfl, rfl, -⟩ : found = chest ∧ w = w' ∧ depots = depots' := by simpa using hchest
    refine ⟨?_, h, rfl, fun _ _ => rfl⟩
    rintro rfl
    obtain ⟨before, after, hentries, -⟩ := List.lookup_eq_some_iff.mp hfind
    exact hid (hchests (depotId, found) (by rw [hentries]; simp))
  | none =>
    rw [hfind] at hchest
    obtain ⟨rfl, hw, -⟩ := Prod.mk.inj hchest |>.imp_right Prod.mk.inj
    rw [← hw]
    exact ⟨(Nat.ne_of_lt h.lt).symm, h.alloc _, congrArg Item.id (item_alloc h.lt), fun r hr => by
      rw [World.isContainer, World.isContainer, item_alloc hr]⟩

/-- The locker is there, and the item still where it was. -/
theorem getDepotLocker_spec (hvalid : depots.Valid w) (h : Lies w item former)
    (hid : (w.item item).id ≠ ITEM_DEPOT) {depots' : Depots}
    (hlocker : depots.getDepotLocker env w depotId = (locker, w', depots')) :
    w'.isContainer locker = true ∧ Lies w' item former ∧ (w'.item item).id = (w.item item).id ∧
      depots'.depotLockerMap.lookup depotId = some locker := by
  unfold Depots.getDepotLocker at hlocker
  cases hfind : depots.depotLockerMap.lookup depotId with
  | some found =>
    rw [hfind] at hlocker
    obtain ⟨rfl, rfl, rfl⟩ : found = locker ∧ w = w' ∧ depots = depots' := by simpa using hlocker
    obtain ⟨before, after, hentries, -⟩ := List.lookup_eq_some_iff.mp hfind
    exact ⟨hvalid.locker (depotId, found) (by rw [hentries]; simp), h, rfl, hfind⟩
  | none =>
    rw [hfind] at hlocker
    dsimp only at hlocker
    set w₁ := w.alloc (newContainer ITEM_LOCKER 30 .depotLocker) with hw₁
    have hnew : w₁.isContainer w.next = true := by
      simp [hw₁, World.alloc, World.isContainer, Item.getContainer, newContainer]
    have hchests : ∀ entry ∈ depots.depotChests, (w₁.item entry.2).id = ITEM_DEPOT :=
      fun entry hentry => by
        rw [hw₁, item_alloc (hvalid.chest entry hentry).1, (hvalid.chest entry hentry).2]
    have hid₁ : (w₁.item item).id = (w.item item).id := by rw [hw₁, item_alloc h.lt]
    rcases hpair : depots.getDepotChest env w₁ depotId with ⟨chest, w₂, depots₂⟩
    obtain ⟨hne, hlies, hid₂, hkept⟩ := getDepotChest_spec hchests (h.alloc _)
      (hid₁.symm ▸ hid) hpair
    rw [hpair] at hlocker
    obtain ⟨rfl, hw, hdepots⟩ := Prod.mk.inj hlocker |>.imp_right Prod.mk.inj
    have hcontainer : w₂.isContainer w.next = true := by
      rw [hkept w.next (Nat.lt_succ_self _), hnew]
    have hput := internalAddThing_put env chest hcontainer
    have hformer : former ≠ .container w.next := fun hc =>
      absurd (h.allocated _ hc) (Nat.lt_irrefl _)
    rw [← hw, ← hdepots]
    refine ⟨(hput.frame.isContainer _).trans hcontainer, hlies.of_put hput hformer hne.symm, ?_,
      List.lookup_cons_self⟩
    rw [← hid₁, ← hid₂]
    exact congrArg Prod.fst (hput.record item)

/-! ## What becomes of the mail -/

variable {post : PostOffice} {loadPlayerByName : List UInt8 → Option (TmpPlayer post.world)}
  {answers : SaveAnswers}

/-- The item is in the locker of a receiver who is online, or in the rows of one who is not. -/
def Delivered (post : PostOffice) (item : ItemRef) (sent : Sent) : Prop :=
  ∃ receiver depotId,
    getReceiver post.world post.towns post.world.climbFuel item = some (receiver, depotId) ∧
      if (post.getPlayerByName receiver).isSome then
        ∃ depots ∈ sent.depots, ∃ locker ∈ depots.depotLockerMap.lookup depotId,
          (sent.world.item item).parent = some (.container locker) ∧
            item ∈ sent.world.contents (.container locker)
      else ∃ rows ∈ sent.rows, (depotId, item) ∈ rows

/-- The result says where the item is. -/
def Kept (post : PostOffice) (item : ItemRef) (former : Cylinder) (sent : Sent) : Prop :=
  sent.result = true ∧ Delivered post item sent ∨ sent.result = false ∧ Lies sent.world item former

/-- The rows of the player may be written, and they are. -/
def Writes (answers : SaveAnswers) : Prop :=
  ∃ save ∈ answers.save, save ≠ 0 ∧ answers.transaction = true

/-- The receiver is offline and loaded, his locker takes the item, and the rows are not written. -/
def Loses (env : Env) (post : PostOffice) (item : ItemRef) (former : Cylinder)
    (loadPlayerByName : List UInt8 → Option (TmpPlayer post.world)) (answers : SaveAnswers) :
    Prop :=
  ∃ receiver depotId tmpPlayer,
    getReceiver post.world post.towns post.world.climbFuel item = some (receiver, depotId) ∧
      receiver ≠ [] ∧ depotId ≠ 0 ∧ post.getPlayerByName receiver = none ∧
      loadPlayerByName receiver = some tmpPlayer ∧
      (let ready := tmpPlayer.depots.getDepotLocker env tmpPlayer.world depotId
      Accepts env ready.2.1 former item ready.1) ∧ ¬ Writes answers

theorem lies_foldl (h : Lies w item former) (objects : List Item) :
    Lies (objects.foldl World.alloc w) item former ∧
      ((objects.foldl World.alloc w).item item).id = (w.item item).id := by
  induction objects generalizing w with
  | nil => exact ⟨h, rfl⟩
  | cons new objects ih =>
    obtain ⟨hlies, hid⟩ := ih (h.alloc new)
    exact ⟨hlies, hid.trans (by rw [item_alloc h.lt])⟩

theorem mem_lockerList (h : InLocker w item locker id) (hid : id ≠ ITEM_DEPOT)
    (hlocker : depots.depotLockerMap.lookup depotId = some locker) :
    (depotId, item) ∈ depots.lockerList w := by
  obtain ⟨before, after, hentries, -⟩ := List.lookup_eq_some_iff.mp hlocker
  refine List.mem_flatMap.mpr ⟨(depotId, locker), by rw [hentries]; simp, ?_⟩
  refine List.mem_map.mpr ⟨item, List.mem_filter.mpr ⟨h.mem, ?_⟩, rfl⟩
  rw [h.id]
  exact decide_eq_true hid

/-- The rows have the item exactly when they are written. -/
theorem mem_rows_iff (answers : SaveAnswers) (h : InLocker w item locker id) (hid : id ≠ ITEM_DEPOT)
    (hlocker : depots.depotLockerMap.lookup depotId = some locker) :
    (∃ rows ∈ (savePlayer answers w depots (needsSave w item locker)).2, (depotId, item) ∈ rows) ↔
      Writes answers := by
  have hneeds : needsSave w item locker = true :=
    decide_eq_true (Container.mem_iff_getThingIndex.mp h.mem)
  have hmem := mem_lockerList h hid hlocker
  unfold savePlayer Writes
  rw [hneeds, if_pos rfl]
  cases answers.save with
  | none => simp
  | some save =>
    dsimp only
    split_ifs with hzero hcommit
    · simp [hzero]
    · simp [hzero, hcommit, hmem]
    · simp [hcommit]

section Receiver

variable {receiver : List UInt8} {sent : Sent}
  (hreceiver : getReceiver post.world post.towns post.world.climbFuel item =
    some (receiver, depotId))

include hreceiver

theorem delivered_iff : Delivered post item sent ↔
    if (post.getPlayerByName receiver).isSome then
      ∃ depots ∈ sent.depots, ∃ locker ∈ depots.depotLockerMap.lookup depotId,
        (sent.world.item item).parent = some (.container locker) ∧
          item ∈ sent.world.contents (.container locker)
    else ∃ rows ∈ sent.rows, (depotId, item) ∈ rows := by
  constructor
  · rintro ⟨receiver', depotId', hfound, hdelivered⟩
    rw [hreceiver, Option.some_inj, Prod.mk.injEq] at hfound
    obtain ⟨rfl, rfl⟩ := hfound
    exact hdelivered
  · exact fun hdelivered => ⟨receiver, depotId, hreceiver, hdelivered⟩

theorem loses_iff : Loses env post item former loadPlayerByName answers ↔
    (receiver ≠ [] ∧ depotId ≠ 0) ∧ post.getPlayerByName receiver = none ∧
      ∃ tmpPlayer, loadPlayerByName receiver = some tmpPlayer ∧
        (let ready := tmpPlayer.depots.getDepotLocker env tmpPlayer.world depotId
        Accepts env ready.2.1 former item ready.1) ∧ ¬ Writes answers := by
  constructor
  · rintro ⟨receiver', depotId', tmpPlayer, hfound, hname, hid, hoffline, hrest⟩
    rw [hreceiver, Option.some_inj, Prod.mk.injEq] at hfound
    obtain ⟨rfl, rfl⟩ := hfound
    exact ⟨⟨hname, hid⟩, hoffline, tmpPlayer, hrest⟩
  · rintro ⟨⟨hname, hid⟩, hoffline, tmpPlayer, hrest⟩
    exact ⟨receiver, depotId, tmpPlayer, hreceiver, hname, hid, hoffline, hrest⟩

end Receiver

section Branches

variable (htypes : MailTypes env.items) (hvalid : depots.Valid w) (hlies : Lies w item former)
  (hid : (w.item item).id = ITEM_PARCEL ∨ (w.item item).id = ITEM_LETTER)

theorem ne_depot (hid : id = ITEM_PARCEL ∨ id = ITEM_LETTER) :
    id ≠ ITEM_DEPOT ∧ id + 1 ≠ ITEM_DEPOT := by
  rcases hid with rfl | rfl <;> decide

include htypes hvalid hlies hid

/-- Online the item lies in the locker afterwards, or it stays. -/
theorem sendOnline_spec (depotId : Nat) : ∃ sent, sendOnline env w depots item depotId = some sent ∧
    (sent.result = true ∧ (∃ depots ∈ sent.depots, ∃ locker ∈
        depots.depotLockerMap.lookup depotId,
        (sent.world.item item).parent = some (.container locker) ∧
          item ∈ sent.world.contents (.container locker)) ∨
      sent.result = false ∧ Lies sent.world item former) := by
  unfold sendOnline
  rcases hready : depots.getDepotLocker env w depotId with ⟨locker, w₁, depots₁⟩
  obtain ⟨hcontainer, hlies₁, hsame, hlookup⟩ := getDepotLocker_spec hvalid hlies
    (ne_depot hid).1 hready
  obtain ⟨hmoves, hstays⟩ := deliver_spec htypes (hsame ▸ hid) hlies₁.parent hcontainer
  dsimp only
  by_cases haccepts : Accepts env w₁ former item locker
  · obtain ⟨w', id', -, hdeliver, hin⟩ := hmoves haccepts
    rw [hdeliver]
    exact ⟨_, rfl, .inl ⟨rfl, depots₁, rfl, locker, hlookup, hin.parent, hin.mem⟩⟩
  · rw [hstays haccepts]
    exact ⟨_, rfl, .inr ⟨rfl, hlies₁⟩⟩

/-- Offline an item that is moved has to be written. -/
theorem sendOffline_spec (depotId : Nat) (answers : SaveAnswers) :
    ∃ sent, sendOffline env w depots item depotId answers = some sent ∧
    ((sent.result = true ∧ ∃ rows ∈ sent.rows, (depotId, item) ∈ rows) ∨
      (sent.result = false ∧ Lies sent.world item former) ↔
    ¬ ((let ready := depots.getDepotLocker env w depotId
      Accepts env ready.2.1 former item ready.1) ∧ ¬ Writes answers)) := by
  unfold sendOffline
  rcases hready : depots.getDepotLocker env w depotId with ⟨locker, w₁, depots₁⟩
  obtain ⟨hcontainer, hlies₁, hsame, hlookup⟩ := getDepotLocker_spec hvalid hlies
    (ne_depot hid).1 hready
  obtain ⟨hmoves, hstays⟩ := deliver_spec htypes (hsame ▸ hid) hlies₁.parent hcontainer
  dsimp only
  by_cases haccepts : Accepts env w₁ former item locker
  · obtain ⟨w', id', hid', hdeliver, hin⟩ := hmoves haccepts
    have hne : id' ≠ ITEM_DEPOT := by
      rcases hid' with rfl | rfl
      · exact (ne_depot (hsame ▸ hid)).1
      · exact (ne_depot (hsame ▸ hid)).2
    rw [hdeliver]
    refine ⟨_, rfl, ?_⟩
    have hrows := mem_rows_iff answers hin hne hlookup
    constructor
    · rintro (⟨-, hwritten⟩ | ⟨hfalse, -⟩)
      · exact fun h => h.2 (hrows.mp hwritten)
      · cases hfalse
    · intro h
      have hwrites : Writes answers := not_not.mp fun hno => h ⟨haccepts, hno⟩
      exact .inl ⟨rfl, hrows.mpr hwrites⟩
  · rw [hstays haccepts]
    exact ⟨_, rfl, iff_of_true (.inr ⟨rfl, hlies₁⟩) fun h => haccepts h.1⟩

end Branches

/-- A mail is delivered, or it stays and the result says so, unless the receiver is offline and the
save of the player that holds it does not write his rows. -/
theorem sendItem_kept_iff (env : Env) (post : PostOffice) (item : ItemRef) (former : Cylinder)
    (loadPlayerByName : List UInt8 → Option (TmpPlayer post.world)) (answers : SaveAnswers)
    (htypes : MailTypes env.items) (hsend : canSend (post.world.item item) = true)
    (hlies : Lies post.world item former) :
    ∃ sent, sendItem env post item loadPlayerByName answers = some sent ∧
      (Kept post item former sent ↔ ¬ Loses env post item former loadPlayerByName answers) := by
  have hid : (post.world.item item).id = ITEM_PARCEL ∨ (post.world.item item).id = ITEM_LETTER := by
    simpa [canSend] using hsend
  unfold sendItem
  cases hreceiver : getReceiver post.world post.towns post.world.climbFuel item with
  | none =>
    refine ⟨_, rfl, iff_of_true (.inr ⟨rfl, hlies⟩) ?_⟩
    rintro ⟨receiver, depotId, tmpPlayer, hfound, -⟩
    rw [hreceiver] at hfound
    cases hfound
  | some address =>
    obtain ⟨receiver, depotId⟩ := address
    unfold Kept
    simp only [loses_iff hreceiver, delivered_iff hreceiver]
    by_cases hempty : (receiver.isEmpty || decide (depotId = 0)) = true
    · rw [if_pos hempty]
      refine ⟨_, rfl, iff_of_true (.inr ⟨rfl, hlies⟩) ?_⟩
      rintro ⟨⟨hname, hdepotId⟩, -⟩
      simp [hname, hdepotId] at hempty
    · rw [if_neg hempty]
      have haddress : receiver ≠ [] ∧ depotId ≠ 0 := by
        simpa [not_or] using hempty
      cases honline : post.getPlayerByName receiver with
      | some player =>
        obtain ⟨sent, hsent, hkept⟩ := sendOnline_spec htypes (post.valid player) hlies
          hid depotId
        refine ⟨sent, hsent, iff_of_true ?_ fun h => nomatch h.2.1⟩
        rwa [Option.isSome_some, if_pos rfl]
      | none =>
        simp only [Option.isSome_none, Bool.false_eq_true, if_false, haddress, ne_eq,
          not_false_eq_true, true_and]
        cases hload : loadPlayerByName receiver with
        | none =>
          exact ⟨_, rfl, iff_of_true (.inr ⟨rfl, hlies⟩) fun ⟨_, h, _⟩ => nomatch h⟩
        | some tmpPlayer =>
          obtain ⟨hlies', hsame⟩ := lies_foldl hlies tmpPlayer.objects
          obtain ⟨sent, hsent, hkept⟩ := sendOffline_spec htypes tmpPlayer.valid hlies'
            (hsame ▸ hid) depotId answers
          refine ⟨sent, hsent, hkept.trans (not_congr ?_)⟩
          constructor
          · exact fun h => ⟨tmpPlayer, rfl, h⟩
          · rintro ⟨_, ⟨⟩, h⟩
            exact h

/-! ## A letter to a player who is offline -/

def letter : ItemType :=
  { ItemType.default with id := ITEM_LETTER, pickupable := true, moveable := true }

def stampedLetter : ItemType := { letter with id := ITEM_LETTER + 1 }

def mailItems : Items := Items.ofEntries [letter, stampedLetter]

theorem mailTypes_mailItems : MailTypes mailItems where
  stackable := by
    rintro id (rfl | rfl) <;> rfl
  alwaysOnTop := by
    rintro id (rfl | rfl) <;> rfl
  type := by
    rintro id (rfl | rfl) <;> rfl

/-- A letter to bob in thais, on a tile. -/
def letterToBob : Item where
  id := ITEM_LETTER
  count := 1
  attributes := some fun type => if type = .text then some (.string "bob\nthais") else none
  cls := .item
  parent := some (.tile ⟨0, 0, 7⟩)

/-- Nobody is online, and the depot of thais has the number 2. -/
def quietPost : PostOffice where
  world :=
    { World.ofItems [letterToBob] with tile := fun _ => { Tile.empty with downItems := [0] } }
  getPlayerByName := fun _ => none
  depots := fun _ => ⟨[], [], 1500⟩
  towns := [([116, 104, 97, 105, 115], 2)]
  valid := fun _ => ⟨fun _ h => (nomatch h), fun _ h => (nomatch h)⟩

def emptyTmpPlayer : TmpPlayer quietPost.world where
  objects := []
  depots := ⟨[], [], 1500⟩
  valid := ⟨fun _ h => (nomatch h), fun _ h => (nomatch h)⟩

theorem lies_letterToBob : Lies quietPost.world 0 (.tile ⟨0, 0, 7⟩) where
  parent := rfl
  mem := by decide
  lt := by decide
  allocated := fun _ h => nomatch h

/-- The letter is kept when the rows are written. -/
theorem sendItem_kept_iff_letter : ∃ sent,
    sendItem (Env.quiet mailItems) quietPost 0 (fun _ => some emptyTmpPlayer)
      ⟨some 1, true, true⟩ = some sent ∧ Kept quietPost 0 (.tile ⟨0, 0, 7⟩) sent := by
  obtain ⟨sent, hsent, hkept⟩ := sendItem_kept_iff (Env.quiet mailItems) quietPost 0
    (.tile ⟨0, 0, 7⟩) (fun _ => some emptyTmpPlayer) ⟨some 1, true, true⟩ mailTypes_mailItems rfl
    lies_letterToBob
  refine ⟨sent, hsent, hkept.mpr ?_⟩
  rintro ⟨receiver, depotId, tmpPlayer, -, -, -, -, -, -, hno⟩
  exact hno ⟨1, rfl, by decide, rfl⟩

/-- When the transaction fails the result is true all the same, and no row is written. -/
theorem letter_lost :
    ¬ ∀ (env : Env) (post : PostOffice) (item : ItemRef) (former : Cylinder)
      (loadPlayerByName : List UInt8 → Option (TmpPlayer post.world)) (answers : SaveAnswers),
      MailTypes env.items → canSend (post.world.item item) = true → Lies post.world item former →
        ∃ sent, sendItem env post item loadPlayerByName answers = some sent ∧
          Kept post item former sent := by
  intro h
  obtain ⟨sent, hsent, hkept⟩ := h (Env.quiet mailItems) quietPost 0 (.tile ⟨0, 0, 7⟩)
    (fun _ => some emptyTmpPlayer) ⟨some 1, true, false⟩ mailTypes_mailItems rfl lies_letterToBob
  have houtcome : ((sendItem (Env.quiet mailItems) quietPost 0 (fun _ => some emptyTmpPlayer)
      ⟨some 1, true, false⟩).map fun sent => (sent.result, sent.rows)) = some (true, none) := by
    decide
  rw [hsent, Option.map_some, Option.some_inj, Prod.mk.injEq] at houtcome
  rcases hkept with ⟨-, receiver, depotId, -, rows, hrows, -⟩ | ⟨hfalse, -⟩
  · rw [houtcome.2] at hrows
    cases hrows
  · rw [houtcome.1] at hfalse
    cases hfalse

end Mailbox

end Eloth
