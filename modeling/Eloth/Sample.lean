import Eloth.World

/-!
# Small worlds

A server without scripts, and worlds whose items have just been created. Concrete runs start
from them.
-/

namespace Eloth

def ItemType.wellFormed (it : ItemType) : Bool :=
  (!it.stackable || (it.id != 0 && it.isPlain && createdId it.id = it.id)) &&
    it.floorChange.all TileState.floorChange.contains

/-- The table with the given entries. Every other id reads as unused, also that of an entry which
the loader rejects. -/
def Items.ofEntries (entries : List ItemType) : Items :=
  let get := fun id =>
    (entries.find? fun it => it.id = id && it.wellFormed).getD ItemType.default
  have found : ∀ id, get id = ItemType.default ∨ (get id).id = id ∧ (get id).wellFormed = true := by
    intro id
    cases hfind : entries.find? fun it => it.id = id && it.wellFormed with
    | none => exact .inl (by simp [get, hfind])
    | some it => exact .inr (by simpa [get, hfind] using List.find?_some hfind)
  have sound : ∀ id, (get id).stackable = true → (get id).id = id ∧
      id ≠ 0 ∧ (get id).isPlain = true ∧ createdId id = id := by
    intro id h
    rcases found id with hdefault | ⟨hid, hwf⟩
    · rw [hdefault] at h
      cases h
    · simp only [ItemType.wellFormed, h, hid, Bool.not_true, Bool.false_or, Bool.and_eq_true,
        bne_iff_ne, decide_eq_true_eq] at hwf
      exact ⟨hid, hwf.1.1.1, hwf.1.1.2, hwf.1.2⟩
  { get := get
    stackable_id := fun id h => ⟨(sound id h).2.1, (sound id h).1⟩
    stackable_plain := fun id h => (sound id h).2.2.1
    stackable_created := fun id h => (sound id h).2.2.2
    floorChange_mem := by
      intro id f hf
      rcases found id with hdefault | ⟨-, hwf⟩
      · rw [hdefault] at hf
        cases hf
      · simp only [ItemType.wellFormed, Bool.and_eq_true, List.all_eq_true] at hwf
        simpa using hwf.2 f hf }

/-- Nobody watches, every script agrees, and everybody is invited. -/
def Env.quiet (items : Items) : Env where
  items := items
  currencyItems := []
  classicEquipmentSlots := false
  onlyInvitedCanMoveHouseItems := false
  equipEvents := fun _ => []
  executeEquip := fun _ _ _ _ => true
  eventPlayerOnMoveItem := fun _ _ _ _ _ _ => true
  eventPlayerOnTradeRequest := fun _ _ _ _ => true
  eventPlayerOnTradeAccept := fun _ _ _ => true
  canThrowObjectTo := fun _ _ _ => true
  isInvited := fun _ _ => true
  spectators := fun _ _ => []
  tileSpectators := fun _ _ => []

def Player.fresh : Player where
  inventory := fun _ => none
  inventoryWeight := 0
  capacity := 40000
  cannotPickupItem := false
  hasInfiniteCapacity := false
  ignoreWeaponCheck := false
  vocation := 0
  level := 1
  magicLevel := 0
  isPremium := false
  tile := { x := 100, y := 100, z := 7 }

def World.blank : World where
  item := fun _ => { id := 0, count := 1, attributes := none, cls := .item, parent := none }
  next := 0
  player := fun _ => Player.fresh
  tile := fun _ => Tile.empty
  hasTile := fun _ => true
  trade := fun _ => Trade.none
  tradeItems := fun _ => none
  isOnline := fun _ => true
  toDecayItems := []
  decayItems := fun _ => []
  lastBucket := 0
  toReleaseItems := []

def World.ofItems (items : List Item) : World := items.foldl World.alloc World.blank

theorem World.foldl_alloc_forall {P : Item → Prop} {items : List Item} {w : World}
    (hw : ∀ r, P (w.item r)) (hitems : ∀ item ∈ items, P item) (r : ItemRef) :
    P ((items.foldl World.alloc w).item r) := by
  induction items generalizing w with
  | nil => exact hw r
  | cons item items ih =>
    refine ih (fun x => ?_) fun it hit => hitems it (List.mem_cons_of_mem item hit)
    by_cases hx : x = w.next
    · subst hx
      simpa [World.alloc] using hitems item List.mem_cons_self
    · simpa [World.alloc, Function.update_of_ne hx] using hw x

theorem World.ofItems_forall {P : Item → Prop} {items : List Item}
    (hblank : P (World.blank.item 0)) (hitems : ∀ item ∈ items, P item) (r : ItemRef) :
    P ((World.ofItems items).item r) :=
  foldl_alloc_forall (fun _ => hblank) hitems r

/-! ## A few item types -/

def goldCoin : ItemType :=
  { ItemType.default with id := 2148, stackable := true, weight := 10, worth := 1,
                          pickupable := true, moveable := true }

def platinumCoin : ItemType := { goldCoin with id := 2152, worth := 100 }

def bag : ItemType :=
  { ItemType.default with group := .container, id := 1987, weight := 800, maxItems := 8,
                          slotPosition := SLOTP_BACKPACK ||| SLOTP_HAND, pickupable := true,
                          moveable := true }

def backpack : ItemType := { bag with id := 1988, weight := 1800, maxItems := 20 }

def bread : ItemType :=
  { ItemType.default with id := 2689, weight := 500, pickupable := true, moveable := true }

def sampleItems : Items := Items.ofEntries [goldCoin, platinumCoin, bag, backpack, bread]

def sampleItem (type : ItemType) (count : Nat) : Item :=
  (Item.CreateItem sampleItems type.id count).getD (World.blank.item 0)

end Eloth
