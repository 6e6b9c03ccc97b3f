import Mathlib.Data.List.Sort
import Eloth.AddItem

/-!
# Money

`Game::removeMoney` and `Game::addMoney`. The currency list of the environment gives the worth
of each coin and its item id.
-/

namespace Eloth.Game

def directItems (w : World) : Cylinder → List ItemRef
  | .container r => w.itemlist r
  | .player p => inventorySlots.filterMap (w.player p).inventory
  | .tile pos =>
    let t := w.tile pos
    t.ground.toList ++ t.topItems ++ t.downItems

/-- The items that `removeMoney` looks at: those directly in the cylinder, then those of every
container found on the way. -/
def scannedItems (w : World) (cylinder : Cylinder) : List ItemRef :=
  let direct := directItems w cylinder
  direct ++
    (Worklist.visited w.subContainers w.next (direct.filter w.isContainer)).flatMap w.itemlist

/-- An entry for each item with a worth that is not a container, ordered by worth. Entries of
equal worth keep the order of the scan, as in a multimap. -/
def moneyMap (env : Env) (w : World) (cylinder : Cylinder) : List (Nat × ItemRef) :=
  let entries := (scannedItems w cylinder).filterMap fun r =>
    let worth := (w.item r).getWorth env.items
    if w.isContainer r ∨ worth = 0 then none else some (worth, r)
  entries.insertionSort fun a b => a.1 ≤ b.1

def moneyCount (env : Env) (w : World) (cylinder : Cylinder) : Nat :=
  ((moneyMap env w cylinder).map Prod.fst).sum

def tileOf (w : World) : Cylinder → Option Position
  | .container r => w.getTile r
  | .player p => some (w.player p).tile
  | .tile pos => some pos

def addCoins (env : Env) (w : World) (cylinder : Cylinder) (id count flags : Nat) :
    Option World :=
  match Item.CreateItem env.items id count with
  | none => some w
  | some coins =>
    let remaindItem := w.next
    match internalAddItem env (w.alloc coins) cylinder remaindItem INDEX_WHEREEVER flags false with
    | none => none
    | some added =>
      if added.ret ≠ .noError then
        match tileOf added.world cylinder with
        | none => some added.world
        | some pos =>
          (internalAddItem env added.world (.tile pos) remaindItem INDEX_WHEREEVER FLAG_NOLIMIT
            false).map Added.world
      else some added.world

/-- Adds stacks of at most 100 coins of one kind; there are no more stacks than coins. -/
def addStacks (env : Env) (cylinder : Cylinder) (id flags : Nat) :
    Nat → Nat → World → Option World
  | 0, _, w => some w
  | fuel + 1, currencyCoins, w =>
    if currencyCoins = 0 then some w
    else
      let count := min 100 currencyCoins
      match addCoins env w cylinder id count flags with
      | none => none
      | some w => addStacks env cylinder id flags fuel (currencyCoins - count) w

def addCurrencies (env : Env) (cylinder : Cylinder) (flags : Nat) :
    List (Nat × Nat) → Nat → World → Option World
  | [], _, w => some w
  | (worth, id) :: rest, money, w =>
    let currencyCoins := money / worth % 2 ^ 32
    if currencyCoins = 0 then addCurrencies env cylinder flags rest money w
    else
      match addStacks env cylinder id flags currencyCoins currencyCoins w with
      | none => none
      | some w' => addCurrencies env cylinder flags rest (money - currencyCoins * worth) w'

def addMoney (env : Env) (w : World) (cylinder : Cylinder) (money flags : Nat) : Option World :=
  if money = 0 then some w else addCurrencies env cylinder flags env.currencyItems money w

/-- The loop over the money map: whole stacks go while they are worth less than what is left,
and change is made for the stack that is worth more. -/
def payFrom (env : Env) (cylinder : Cylinder) (flags : Nat) :
    List (Nat × ItemRef) → Nat → World → Option World
  | [], _, w => some w
  | (worth, item) :: rest, money, w =>
    if worth < money then
      payFrom env cylinder flags rest (money - worth) (internalRemoveItem env w item none false 0).2
    else if money < worth then
      let unitWorth := worth / (w.item item).getItemCount % 2 ^ 32
      let removeCount := (money + unitWorth - 1) / unitWorth % 2 ^ 32
      (addMoney env w cylinder (unitWorth * removeCount % 2 ^ 32 - money) flags).map fun w =>
        (internalRemoveItem env w item (some removeCount) false 0).2
    else some (internalRemoveItem env w item none false 0).2

def removeMoney (env : Env) (w : World) (cylinder : Cylinder) (money flags : Nat) :
    Option (Bool × World) :=
  if money = 0 then some (true, w)
  else if moneyCount env w cylinder < money then some (false, w)
  else
    (payFrom env cylinder flags (moneyMap env w cylinder) money w).map fun w => (true, w)

end Eloth.Game
