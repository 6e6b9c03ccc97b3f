import Eloth.Player
import Eloth.Tile

/-!
# Cylinders

The virtual functions of `cylinder.h`, dispatched on the kind of the cylinder.
-/

namespace Eloth.Cylinder

def queryAdd (env : Env) (w : World) (c : Cylinder) (index : Int) (item : ItemRef)
    (count flags : Nat) (actor : Option PlayerId) : ReturnValue :=
  match c with
  | .container r => Container.queryAdd env w r index item count flags
  | .player p => Player.queryAdd env w p index item count flags
  | .tile pos => Tile.queryAdd env w pos item flags actor

def queryMaxCount (env : Env) (w : World) (c : Cylinder) (index : Int) (item : ItemRef)
    (count flags : Nat) : ReturnValue × Nat :=
  match c with
  | .container r => Container.queryMaxCount env w r index item count flags
  | .player p => Player.queryMaxCount env w p index item count flags
  | .tile _ => Tile.queryMaxCount count

def queryRemove (env : Env) (w : World) (c : Cylinder) (item : ItemRef) (count flags : Nat)
    (actor : Option PlayerId) : ReturnValue :=
  match c with
  | .container r => Container.queryRemove env w r item count flags
  | .player p => Player.queryRemove env w p item count flags
  | .tile pos => Tile.queryRemove env w pos item count flags actor

def queryDestination (env : Env) (w : World) (c : Cylinder) (index : Int) (item : ItemRef)
    (destItem : Option ItemRef) (flags : Nat) : Destination :=
  match c with
  | .container r => Container.queryDestination env w r index item destItem flags
  | .player p => Player.queryDestination env w p index item destItem flags
  | .tile pos => Tile.queryDestination w pos index flags

def addThing (env : Env) (w : World) (c : Cylinder) (index : Int) (item : ItemRef) : World :=
  match c with
  | .container r => Container.addThing env w r index item
  | .player p => Player.addThing w p index item
  | .tile pos => Tile.addThing env w pos item

/-- `addThing` without an index: a container and a tile use index 0, a player ignores it. -/
def addThingAnywhere (env : Env) (w : World) (c : Cylinder) (item : ItemRef) : World :=
  match c with
  | .container r => Container.addThing env w r 0 item
  | .player _ => w
  | .tile pos => Tile.addThing env w pos item

def updateThing (env : Env) (w : World) (c : Cylinder) (item : ItemRef) (itemId count : Nat) :
    World :=
  match c with
  | .container r => Container.updateThing env w r item itemId count
  | .player p => Player.updateThing env w p item itemId count
  | .tile pos => Tile.updateThing env w pos item itemId count

def replaceThing (env : Env) (w : World) (c : Cylinder) (index : Int) (item : ItemRef) : World :=
  match c with
  | .container r => Container.replaceThing env w r index item
  | .player p => Player.replaceThing w p index item
  | .tile pos => Tile.replaceThing env w pos index.toNat item

def removeThing (env : Env) (w : World) (c : Cylinder) (item : ItemRef) (count : Nat) : World :=
  match c with
  | .container r => Container.removeThing env w r item count
  | .player p => Player.removeThing env w p item count
  | .tile pos => Tile.removeThing env w pos item count

def getThingIndex (env : Env) (w : World) (c : Cylinder) (item : ItemRef) : Int :=
  match c with
  | .container r => Container.getThingIndex w r item
  | .player p => Player.getThingIndex w p item
  | .tile pos => Tile.getThingIndex env w (w.tile pos) item

/-- What the post notifications change in the store: the player at the top of the chain adds up
the weight of the inventory again. -/
def refreshWeight (env : Env) (w : World) (c : Cylinder) : World :=
  match c with
  | .container r =>
    match w.getTopParent r with
    | some (.player p) => Player.updateInventoryWeight env w p
    | _ => w
  | .player p => Player.updateInventoryWeight env w p
  | .tile _ => w

def postAddNotification (env : Env) (w : World) (c : Cylinder) : World := refreshWeight env w c

def postRemoveNotification (env : Env) (w : World) (c : Cylinder) : World := refreshWeight env w c

end Eloth.Cylinder
