import Eloth.Lib.Cascade
import Eloth.MapCache
import Eloth.Sample

/-!
# The removal of a tile

`Map::removeTile` sends the players of a tile to their temples, removes its other creatures, each
with its summons, and then removes the items one by one, walking over the vector from which each
removal erases. An iterator is an index with a flag that an erasure at or before it clears; the
loop ends without a result when it needs an iterator that is no longer valid, or a creature beyond
the end of the creature vector. Scripts and what happens at the temple are left out.
-/

namespace Eloth

/-- The creatures of the map. Masters have monsters for summons. -/
structure Creatures where
  isPlayer : CreatureId → Bool
  summons : CreatureId → List CreatureId
  position : CreatureId → MapPosition
  getTemplePosition : CreatureId → MapPosition
  /-- There is a tile at the temple, and its `queryAdd` takes the player. -/
  templeTakes : CreatureId → Bool
  summons_monsters : ∀ c, ∀ s ∈ summons c, isPlayer s = false

/-- The tile, with the creatures that have not been removed from the map. -/
structure StandingTile where
  pos : MapPosition
  present : Finset CreatureId
  creatures : List CreatureId
  ground : Option ItemRef
  items : List ItemRef
  downItemCount : Nat
  item : ItemRef → Item
  nodup : creatures.Nodup
  standing : ∀ c ∈ creatures, c ∈ present

namespace StandingTile

/-! ## Creatures -/

section Creatures

variable (env : Creatures)

/-- Every pending call of `Game::removeCreature`; a creature that is removed leaves its tile, and
the calls for its summons come next. -/
def removeCreatures (t : StandingTile) (stack : List CreatureId) : StandingTile :=
  let present := Cascade.left env.summons t.present stack
  { t with
    present := present
    creatures := t.creatures.filter (· ∈ present)
    nodup := t.nodup.filter _
    standing := fun _ hc => by simpa using (List.mem_filter.mp hc).2 }

def removeCreature (t : StandingTile) (c : CreatureId) : StandingTile := t.removeCreatures env [c]

/-- The creature leaves the tile for another one. -/
def eraseCreature (t : StandingTile) (c : CreatureId) : StandingTile :=
  { t with
    creatures := t.creatures.erase c
    nodup := t.nodup.erase c
    standing := fun x hx => t.standing x (List.mem_of_mem_erase hx) }

/-- The summons that `Creature::onCreatureMove` finds out of range. -/
def despawnList (c : CreatureId) : List CreatureId :=
  let newPos := env.getTemplePosition c
  ((env.summons c).filter fun summon =>
    let pos := env.position summon
    newPos.getDistanceZ pos > 2 ∨ max (newPos.getDistanceX pos) (newPos.getDistanceY pos) > 30).reverse

/-- `Game::internalTeleport` to the temple. -/
def internalTeleport (t : StandingTile) (player : CreatureId) : StandingTile :=
  if env.getTemplePosition player = t.pos then t
  else if player ∉ t.present then t
  else if !env.templeTakes player then t
  else (t.eraseCreature player).removeCreatures env (despawnList env player)

def clearCreature (t : StandingTile) (c : CreatureId) : StandingTile :=
  if env.isPlayer c then t.internalTeleport env c else t.removeCreature env c

/-- The loop over the creatures, from the last index down. There is no result when the index is
out of range. -/
def clearCreatures : Nat → StandingTile → Option StandingTile
  | 0, t => some t
  | i + 1, t =>
    match t.creatures[i]? with
    | none => none
    | some c => clearCreatures i (t.clearCreature env c)

end Creatures

/-! ## Items -/

section Items

variable (types : Items)

/-- `getThingIndex(item) != -1`. -/
def hasThing (t : StandingTile) (r : ItemRef) : Bool :=
  t.ground = some r ∨
    if (t.item r).isAlwaysOnTop types then r ∈ t.items.drop t.downItemCount
    else r ∈ t.items.take t.downItemCount

def queryRemove (t : StandingTile) (r : ItemRef) (count : Nat) : Bool :=
  t.hasThing types r ∧ count ≠ 0 ∧
    ¬ ((t.item r).isStackable types = true ∧ (t.item r).getItemCount < count)

/-- `Tile::removeThing` for an item, with the position at which the vector was erased. -/
def removeThing (t : StandingTile) (r : ItemRef) (count : Nat) : StandingTile × Option Nat :=
  if !t.hasThing types r then (t, none)
  else if t.ground = some r then ({ t with ground := none }, none)
  else if (t.item r).isAlwaysOnTop types then
    let top := t.items.drop t.downItemCount
    if r ∈ top then
      let k := t.downItemCount + top.idxOf r
      ({ t with items := t.items.eraseIdx k }, some k)
    else (t, none)
  else
    let down := t.items.take t.downItemCount
    if r ∈ down then
      if (t.item r).isStackable types = true ∧ count ≠ (t.item r).getItemCount then
        ({ t with
          item := Function.update t.item r
            ((t.item r).setItemCount ((t.item r).getItemCount - count)) }, none)
      else
        let k := down.idxOf r
        ({ t with items := t.items.eraseIdx k, downItemCount := t.downItemCount - 1 }, some k)
    else (t, none)

/-- `Game::internalRemoveItem` for a whole item of the tile. -/
def internalRemoveItem (t : StandingTile) (r : ItemRef) : StandingTile × Option Nat :=
  let count := (t.item r).getItemCount
  if !t.queryRemove types r count then (t, none)
  else if !(t.item r).canRemove then (t, none)
  else t.removeThing types r count

structure Iterator where
  index : Nat
  valid : Bool

namespace Iterator

def next (it : Iterator) : Iterator := { it with index := it.index + 1 }

/-- What an erasure from the vector leaves of the iterator. -/
def afterErase (it : Iterator) (erased : Option Nat) : Iterator :=
  match erased with
  | none => it
  | some k => { it with valid := it.valid && it.index < k }

end Iterator

/-- The loop over the items with the items that it visits; `n` is the distance between the two
iterators. -/
def clearItems : Nat → StandingTile → Iterator → Iterator →
    Option (StandingTile × List ItemRef)
  | n, t, it, last =>
    if it.valid = false ∨ last.valid = false then none
    else
      match n with
      | 0 => some (t, [])
      | n + 1 =>
        match t.items[it.index]? with
        | none => none
        | some r =>
          let (t, erased) := t.internalRemoveItem types r
          if (it.afterErase erased).valid = false then none
          else
            (clearItems n t (it.afterErase erased).next (last.afterErase erased)).map
              fun rest => (rest.1, r :: rest.2)

def clearGround (t : StandingTile) : StandingTile :=
  match t.ground with
  | none => t
  | some ground => { (t.internalRemoveItem types ground).1 with ground := none }

end Items

/-- `Map::removeTile` once the tile is found, with the items visited. -/
def removeTile (env : Creatures) (types : Items) (t : StandingTile) :
    Option (StandingTile × List ItemRef) := do
  let t ← clearCreatures env t.creatures.length t
  let (t, visited) ← clearItems types t.items.length t ⟨0, true⟩ ⟨t.items.length, true⟩
  return (t.clearGround types, visited)

/-- The removal runs to its end, visits every item once and leaves nothing on the tile. -/
def Cleared (env : Creatures) (types : Items) (t : StandingTile) : Prop :=
  ∃ t' visited, t.removeTile env types = some (t', visited) ∧ t'.creatures = [] ∧ t'.items = [] ∧
    t'.ground = none ∧ visited.Perm t.items

/-! ## The loop over the items -/

section Items

variable {types : Items} {t t' : StandingTile}

theorem internalRemoveItem_creatures (r : ItemRef) :
    (t.internalRemoveItem types r).1.creatures = t.creatures := by
  unfold internalRemoveItem removeThing
  dsimp only
  split_ifs <;> rfl

/-- Without an erasure the vector stays as it is. -/
theorem internalRemoveItem_items (r : ItemRef)
    (h : (t.internalRemoveItem types r).2 = none) :
    (t.internalRemoveItem types r).1.items = t.items := by
  revert h
  unfold internalRemoveItem removeThing
  dsimp only
  split_ifs <;> first | exact fun _ => rfl | exact nofun

/-- The ground is not in the vector. -/
theorem clearGround_spec :
    (t.clearGround types).creatures = t.creatures ∧ (t.clearGround types).items = t.items ∧
      (t.clearGround types).ground = none := by
  unfold clearGround
  cases hground : t.ground with
  | none => exact ⟨rfl, rfl, hground⟩
  | some r =>
    refine ⟨internalRemoveItem_creatures r, internalRemoveItem_items r ?_, rfl⟩
    unfold internalRemoveItem removeThing
    simp only [hground, if_true]
    split_ifs <;> rfl

theorem internalRemoveItem_erased {r : ItemRef} {k : Nat}
    (h : (t.internalRemoveItem types r).2 = some k) : k < t.items.length := by
  have htop : r ∈ t.items.drop t.downItemCount →
      t.downItemCount + (t.items.drop t.downItemCount).idxOf r < t.items.length := by
    intro hr
    have hlt := List.idxOf_lt_length_of_mem hr
    rw [List.length_drop] at hlt
    omega
  have hdown : r ∈ t.items.take t.downItemCount →
      (t.items.take t.downItemCount).idxOf r < t.items.length := by
    intro hr
    have hlt := List.idxOf_lt_length_of_mem hr
    rw [List.length_take] at hlt
    omega
  revert h
  unfold internalRemoveItem removeThing
  dsimp only
  split_ifs with h₁ h₂ h₃ h₄ h₅ h₆ h₇ h₈ <;> intro h <;> cases h
  · exact htop h₆
  · exact hdown ‹_›

theorem clearItems_invalid {n : Nat} {it last : Iterator} (h : last.valid = false) :
    clearItems types n t it last = none := by
  cases n <;> rw [clearItems, if_pos (.inr h)]

/-- The loop ends only where it has erased nothing: an erasure leaves no valid end. -/
theorem clearItems_items {n : Nat} {it last : Iterator} (hlast : last.index = t.items.length)
    {visited : List ItemRef} (h : clearItems types n t it last = some (t', visited)) :
    t'.items = t.items := by
  induction n generalizing t it last visited with
  | zero =>
    rw [clearItems] at h
    split at h
    · cases h
    · cases h
      rfl
  | succ n ih =>
    rw [clearItems] at h
    split at h
    · cases h
    dsimp only at h
    split at h
    · cases h
    next r hr =>
      split at h
      · cases h
      rw [Option.map_eq_some_iff] at h
      obtain ⟨rest, hrest, hpair⟩ := h
      cases hpair
      cases herased : (t.internalRemoveItem types r).2 with
      | none =>
        have hsame := internalRemoveItem_items r herased
        rw [herased] at hrest
        exact (ih (by rw [hsame]; exact hlast) hrest).trans hsame
      | some k =>
        have hk := internalRemoveItem_erased herased
        have hinvalid : (last.afterErase (some k)).valid = false := by
          simp only [Iterator.afterErase, Bool.and_eq_false_iff, decide_eq_false_iff_not]
          omega
        rw [herased, clearItems_invalid hinvalid] at hrest
        cases hrest

theorem clearItems_nil (h : t.items = []) :
    clearItems types t.items.length t ⟨0, true⟩ ⟨t.items.length, true⟩ = some (t, []) := by
  rw [h, List.length_nil, clearItems]
  simp

end Items

/-! ## The loop over the creatures -/

section Creatures

variable {env : Creatures} {t t' : StandingTile} {c p x : CreatureId}

open Cascade (ReachIn)

/-- The creatures whose removal handling `c` calls for. -/
def firstTaken (env : Creatures) (c : CreatureId) : List CreatureId :=
  if env.isPlayer c then despawnList env c else [c]

/-- Handling `c` removes `x`, by way of summons that have not been removed. -/
def Takes (env : Creatures) (t : StandingTile) (c x : CreatureId) : Prop :=
  ∃ s ∈ firstTaken env c, ReachIn env.summons t.present s x

/-- A player gets off the tile. -/
def Leaves (env : Creatures) (t : StandingTile) (c : CreatureId) : Prop :=
  env.isPlayer c = true → env.getTemplePosition c ≠ t.pos ∧ env.templeTakes c = true

/-- The creature at the index leaves, and takes none of those below it along. -/
def GoesAlone (env : Creatures) (t : StandingTile) (i : Nat) : Prop :=
  ∀ c, t.creatures[i]? = some c → Leaves env t c ∧
    ∀ j < i, ∀ x, t.creatures[j]? = some x → ¬ Takes env t c x

theorem summon_of_mem_despawnList (h : x ∈ despawnList env c) : x ∈ env.summons c :=
  (List.mem_filter.mp (List.mem_reverse.mp h)).1

theorem clearCreature_frame :
    (t.clearCreature env c).pos = t.pos ∧ (t.clearCreature env c).items = t.items := by
  unfold clearCreature internalTeleport removeCreature removeCreatures eraseCreature
  split_ifs <;> exact ⟨rfl, rfl⟩

theorem clearCreature_player (hc : env.isPlayer c = true) (hin : c ∈ t.creatures)
    (hleaves : Leaves env t c) : t.clearCreature env c =
      (t.eraseCreature c).removeCreatures env (despawnList env c) := by
  obtain ⟨hpos, htakes⟩ := hleaves hc
  unfold clearCreature internalTeleport
  simp [hc, hpos, t.standing c hin, htakes]

theorem mem_present_clearCreature (hin : c ∈ t.creatures) (hleaves : Leaves env t c) :
    x ∈ (t.clearCreature env c).present ↔ x ∈ t.present ∧ ¬ Takes env t c x := by
  unfold Takes firstTaken
  cases hc : env.isPlayer c with
  | true =>
    rw [clearCreature_player hc hin hleaves]
    exact Cascade.mem_left _ _ _ _
  | false =>
    rw [clearCreature, if_neg (by simp [hc])]
    exact Cascade.mem_left _ _ _ _

/-- A creature that leaves the end of the vector leaves those before it that stay on the map. -/
theorem creatures_clearCreature {l : List CreatureId} (hcreatures : t.creatures = l ++ [c])
    (hleaves : Leaves env t c) : (t.clearCreature env c).creatures =
      l.filter (· ∈ (t.clearCreature env c).present) := by
  have hin : c ∈ t.creatures := by simp [hcreatures]
  have hfresh : c ∉ l := by
    have hnodup := t.nodup
    rw [hcreatures, List.nodup_append] at hnodup
    exact fun hmem => hnodup.2.2 c hmem c List.mem_cons_self rfl
  cases hc : env.isPlayer c with
  | true =>
    rw [clearCreature_player hc hin hleaves]
    have herase : t.creatures.erase c = l := by
      rw [hcreatures, List.erase_append_right _ hfresh]
      simp
    simp only [removeCreatures, eraseCreature, herase]
  | false =>
    have hgone : c ∉ (t.clearCreature env c).present := by
      rw [mem_present_clearCreature hin hleaves]
      exact fun h => h.2 ⟨c, by simp [firstTaken, hc], .refl (t.standing c hin)⟩
    rw [clearCreature, if_neg (by simp [hc])] at hgone ⊢
    simp only [removeCreature, removeCreatures] at hgone ⊢
    have hlast : [c].filter (· ∈ Cascade.left env.summons t.present [c]) = [] :=
      List.filter_cons_of_neg (by simpa using hgone)
    rw [hcreatures, List.filter_append, hlast, List.append_nil]
    rfl

theorem clearCreature_of_not_leaves (h : ¬ Leaves env t c) : t.clearCreature env c = t := by
  unfold Leaves at h
  push Not at h
  obtain ⟨hc, htakes⟩ := h
  unfold clearCreature internalTeleport
  rw [if_pos hc]
  by_cases hpos : env.getTemplePosition c = t.pos
  · rw [if_pos hpos]
  · rw [if_neg hpos, if_pos (show (!env.templeTakes c) = true by simp [htakes hpos]), ite_self]

theorem takes_monster (h : Takes env t c x) (hx : x ≠ c) : env.isPlayer x = false := by
  obtain ⟨s, hs, hreach⟩ := h
  rcases Relation.ReflTransGen.cases_tail hreach.2 with rfl | ⟨y, -, hy⟩
  · unfold firstTaken at hs
    split at hs
    · exact env.summons_monsters c x (summon_of_mem_despawnList hs)
    · exact absurd (List.mem_singleton.mp hs) hx
  · exact env.summons_monsters y x hy.1

theorem mem_clearCreature (hin : c ∈ t.creatures) (hleaves : Leaves env t c)
    (hx : x ∈ t.creatures) (hne : x ≠ c) (htakes : ¬ Takes env t c x) :
    x ∈ (t.clearCreature env c).creatures := by
  have hpresent := (mem_present_clearCreature hin hleaves).mpr ⟨t.standing x hx, htakes⟩
  cases hc : env.isPlayer c with
  | true =>
    rw [clearCreature_player hc hin hleaves] at hpresent ⊢
    exact List.mem_filter.mpr ⟨(List.mem_erase_of_ne hne).mpr hx, decide_eq_true hpresent⟩
  | false =>
    rw [clearCreature, if_neg (by simp [hc])] at hpresent ⊢
    exact List.mem_filter.mpr ⟨hx, decide_eq_true hpresent⟩

/-- A player that does not get off the tile is there whatever is handled. -/
theorem clearCreature_stays (hp : env.isPlayer p = true) (hstays : ¬ Leaves env t p)
    (hp' : p ∈ t.creatures) (hin : c ∈ t.creatures) : p ∈ (t.clearCreature env c).creatures := by
  by_cases hleaves : Leaves env t c
  · have hne : p ≠ c := by
      rintro rfl
      exact hstays hleaves
    refine mem_clearCreature hin hleaves hp' hne fun htakes => ?_
    rw [takes_monster htakes hne] at hp
    cases hp
  · rw [clearCreature_of_not_leaves hleaves]
    exact hp'

theorem clearCreatures_stays {i : Nat} (hp : env.isPlayer p = true) (hstays : ¬ Leaves env t p)
    (hp' : p ∈ t.creatures) (h : clearCreatures env i t = some t') : p ∈ t'.creatures := by
  induction i generalizing t with
  | zero =>
    cases h
    exact hp'
  | succ i ih =>
    rw [clearCreatures] at h
    split at h
    · cases h
    next c hc =>
      have hin := List.mem_of_getElem? hc
      refine ih ?_ (clearCreature_stays hp hstays hp' hin) h
      intro hleaves
      refine hstays fun hplayer => ?_
      rw [← (@clearCreature_frame env t c).1]
      exact hleaves hplayer

/-- The loop before index `k` is handled, when all above it have gone alone. -/
structure Stage (env : Creatures) (t₀ : StandingTile) (k : Nat) (t : StandingTile) : Prop where
  creatures : t.creatures = t₀.creatures.take k
  pos : t.pos = t₀.pos
  sub : t.present ⊆ t₀.present
  gone : ∀ x ∈ t₀.present, x ∉ t.present →
    ∃ i, k ≤ i ∧ ∃ c, t₀.creatures[i]? = some c ∧ Takes env t₀ c x
  alone : ∀ i, k ≤ i → GoesAlone env t₀ i

variable {t₀ : StandingTile} {i k : Nat}

theorem Takes.mono (h : Takes env t c x) (hsub : t.present ⊆ t₀.present) : Takes env t₀ c x := by
  obtain ⟨s, hs, hreach⟩ := h
  exact ⟨s, hs, hreach.mono hsub⟩

theorem Stage.split (h : Stage env t₀ (i + 1) t) (hc : t₀.creatures[i]? = some c) :
    t.creatures = t₀.creatures.take i ++ [c] := by
  rw [h.creatures, List.take_add_one, hc]
  rfl

/-- What handling takes along has not been taken by a creature above. -/
theorem Stage.takes (h : Stage env t₀ (i + 1) t) {j : Nat} (hj : j < i)
    (hx : t₀.creatures[j]? = some x) (htakes : Takes env t₀ c x) : Takes env t c x := by
  obtain ⟨s, hs, hreach⟩ := htakes
  rcases hreach.inside_or (s := t.present) with hinside | ⟨y, hy, hgone, hreach'⟩
  · exact ⟨s, hs, hinside⟩
  · obtain ⟨k, hk, c', hc', s', hs', hreach''⟩ := h.gone y hy hgone
    exact absurd ⟨s', hs', hreach''.trans hreach'⟩ ((h.alone k hk c' hc').2 j (by omega) x hx)

theorem Stage.leaves (h : Stage env t₀ k t) : Leaves env t c ↔ Leaves env t₀ c := by
  unfold Leaves
  rw [h.pos]

theorem Stage.step (h : Stage env t₀ (i + 1) t) (hc : t₀.creatures[i]? = some c)
    (halone : GoesAlone env t₀ i) : Stage env t₀ i (t.clearCreature env c) := by
  obtain ⟨hleaves, hapart⟩ := halone c hc
  have hleaves' := h.leaves.mpr hleaves
  have hsplit := h.split hc
  have hin : c ∈ t.creatures := by simp [hsplit]
  have hall : ∀ i', i ≤ i' → GoesAlone env t₀ i' := by
    intro i' hi'
    rcases Nat.eq_or_lt_of_le hi' with rfl | hlt
    · exact halone
    · exact h.alone i' hlt
  refine ⟨?_, clearCreature_frame.1.trans h.pos, ?_, ?_, hall⟩
  · rw [creatures_clearCreature hsplit hleaves', List.filter_eq_self]
    intro x hx
    obtain ⟨j, hj, hget⟩ := List.mem_take_iff_getElem.mp hx
    have hx' : t₀.creatures[j]? = some x := by
      rw [← hget]
      exact List.getElem?_eq_getElem _
    refine decide_eq_true ((mem_present_clearCreature hin hleaves').mpr
      ⟨t.standing x (by rw [hsplit]; exact List.mem_append_left _ hx), fun htakes => ?_⟩)
    exact hapart j (by omega) x hx' (htakes.mono h.sub)
  · intro x hx
    exact h.sub ((mem_present_clearCreature hin hleaves').mp hx).1
  · intro x hx hgone
    by_cases hstill : x ∈ t.present
    · have htakes : Takes env t c x := by
        by_contra htakes
        exact hgone ((mem_present_clearCreature hin hleaves').mpr ⟨hstill, htakes⟩)
      exact ⟨i, le_rfl, c, hc, htakes.mono h.sub⟩
    · obtain ⟨i', hi', c', hc', htakes⟩ := h.gone x hx hstill
      exact ⟨i', by omega, c', hc', htakes⟩

/-- A creature that leaves and does not go alone takes one below it along. -/
theorem Stage.clearCreature_lt (h : Stage env t₀ (i + 1) t)
    (hc : t₀.creatures[i]? = some c) (halone : ¬ GoesAlone env t₀ i) (hleaves : Leaves env t c) :
    (t.clearCreature env c).creatures.length < i := by
  obtain ⟨j, hj, x, hx, htakes⟩ : ∃ j < i, ∃ x, t₀.creatures[j]? = some x ∧
      Takes env t₀ c x := by
    by_contra hnone
    push Not at hnone
    refine halone fun c' hc' => ?_
    obtain rfl := Option.some.inj (hc.symm.trans hc')
    exact ⟨h.leaves.mp hleaves, hnone⟩
  have hsplit := h.split hc
  have hin : c ∈ t.creatures := by
    rw [hsplit]
    exact List.mem_append_right _ (List.mem_singleton_self c)
  have hmem : x ∈ t₀.creatures.take i := by
    apply List.mem_of_getElem?
    rw [List.getElem?_take_of_lt hj, hx]
  have hgone : x ∉ (t.clearCreature env c).present := by
    rw [mem_present_clearCreature hin hleaves]
    exact fun hx' => hx'.2 (h.takes hj hx htakes)
  rw [creatures_clearCreature hsplit hleaves]
  exact (List.length_filter_lt_length_iff_exists.mpr ⟨x, hmem, by simpa using hgone⟩).trans_le
    (List.length_take_le _ _)

theorem Stage.clearCreatures_iff (h : Stage env t₀ k t) (hk : k ≤ t₀.creatures.length) :
    (∃ t', clearCreatures env k t = some t' ∧ t'.creatures = []) ↔
      ∀ i < k, GoesAlone env t₀ i := by
  induction k generalizing t with
  | zero =>
    refine iff_of_true ⟨t, rfl, ?_⟩ fun i hi => absurd hi (Nat.not_lt_zero i)
    rw [h.creatures, List.take_zero]
  | succ i ih =>
    obtain ⟨c, hc⟩ : ∃ c, t₀.creatures[i]? = some c :=
      ⟨_, List.getElem?_eq_getElem (by omega)⟩
    have hget : t.creatures[i]? = some c := by
      rw [h.creatures, List.getElem?_take_of_lt (Nat.lt_succ_self i), hc]
    have hin : c ∈ t.creatures := List.mem_of_getElem? hget
    rw [clearCreatures, hget]
    by_cases halone : GoesAlone env t₀ i
    · rw [ih (h.step hc halone) (by omega)]
      constructor
      · intro hbelow i' hi'
        rcases Nat.lt_succ_iff_lt_or_eq.mp hi' with hlt | rfl
        · exact hbelow i' hlt
        · exact halone
      · exact fun hall i' hi' => hall i' (by omega)
    · refine iff_of_false ?_ fun hall => halone (hall i (Nat.lt_succ_self i))
      rintro ⟨t', hrun, hempty⟩
      replace hrun : clearCreatures env i (t.clearCreature env c) = some t' := hrun
      by_cases hleaves : Leaves env t c
      · -- it takes one below it along, so that the next index is out of range
        have hlength := h.clearCreature_lt hc halone hleaves
        obtain ⟨i', rfl⟩ : ∃ i', i = i' + 1 := ⟨i - 1, by omega⟩
        rw [clearCreatures, List.getElem?_eq_none (by omega)] at hrun
        cases hrun
      · have hplayer : env.isPlayer c = true := by
          by_contra hc'
          exact hleaves fun hp => absurd hp hc'
        rw [clearCreature_of_not_leaves hleaves] at hrun
        have hstays := clearCreatures_stays hplayer hleaves hin hrun
        rw [hempty] at hstays
        cases hstays

end Creatures

theorem clearCreatures_items {env : Creatures} {t t' : StandingTile} {i : Nat}
    (h : clearCreatures env i t = some t') : t'.items = t.items := by
  induction i generalizing t with
  | zero =>
    cases h
    rfl
  | succ i ih =>
    rw [clearCreatures] at h
    split at h
    · cases h
    · exact (ih h).trans clearCreature_frame.2

theorem clearCreatures_iff (env : Creatures) (t : StandingTile) :
    (∃ t', clearCreatures env t.creatures.length t = some t' ∧ t'.creatures = []) ↔
      ∀ i, GoesAlone env t i := by
  have habove : ∀ i, t.creatures.length ≤ i → GoesAlone env t i := by
    intro i hi c hc
    rw [List.getElem?_eq_none hi] at hc
    cases hc
  have hstage : Stage env t t.creatures.length t :=
    ⟨List.take_length.symm, rfl, fun _ hx => hx, fun x hx hgone => absurd hx hgone, habove⟩
  rw [hstage.clearCreatures_iff le_rfl]
  refine ⟨fun h i => ?_, fun h i _ => h i⟩
  rcases Nat.lt_or_ge i t.creatures.length with hlt | hge
  · exact h i hlt
  · exact habove i hge

/-- The removal does what it is for exactly where no item lies on the tile, every player has a
temple to go to, and no creature takes along another one that stands below it in the vector. -/
theorem cleared_iff (env : Creatures) (types : Items) (t : StandingTile) :
    t.Cleared env types ↔ t.items = [] ∧ ∀ i, GoesAlone env t i := by
  rw [← clearCreatures_iff]
  constructor
  · rintro ⟨t', visited, hrun, hcreatures, hitems, -, -⟩
    obtain ⟨t₁, ht₁, hrun⟩ := Option.bind_eq_some_iff.mp hrun
    obtain ⟨⟨t₂, visited'⟩, ht₂, hrun⟩ := Option.bind_eq_some_iff.mp hrun
    cases hrun
    have hsame : t₂.items = t.items :=
      (clearItems_items rfl ht₂).trans (clearCreatures_items ht₁)
    rw [clearGround_spec.2.1, hsame] at hitems
    have hnil : t₁.items = [] := (clearCreatures_items ht₁).trans hitems
    rw [clearItems_nil hnil] at ht₂
    cases ht₂
    exact ⟨hitems, t₁, ht₁, clearGround_spec.1.symm.trans hcreatures⟩
  · rintro ⟨hitems, t₁, hrun, hcreatures⟩
    have hnil : t₁.items = [] := (clearCreatures_items hrun).trans hitems
    refine ⟨t₁.clearGround types, [], ?_, clearGround_spec.1.trans hcreatures,
      clearGround_spec.2.1.trans hnil, clearGround_spec.2.2, by rw [hitems]⟩
    exact Option.bind_eq_some_iff.mpr ⟨t₁, hrun,
      Option.bind_eq_some_iff.mpr ⟨(t₁, []), clearItems_nil hnil, rfl⟩⟩

/-- A tile with a loose item and nothing else. -/
def strewn : StandingTile where
  pos := ⟨100, 100, 7⟩
  present := ∅
  creatures := []
  ground := none
  items := [0]
  downItemCount := 1
  item := fun _ => Item.new (Items.ofEntries [{ ItemType.default with id := 2160 }]) 2160 1 .item
  nodup := List.nodup_nil
  standing := fun _ hc => absurd hc List.not_mem_nil

theorem strewn_not_cleared :
    ¬ ∀ (env : Creatures) (types : Items) (t : StandingTile),
      (∀ r ∈ t.items, t.queryRemove types r (t.item r).getItemCount = true ∧
        (t.item r).canRemove = true) →
      (∀ i, GoesAlone env t i) → t.Cleared env types := by
  intro h
  let env : Creatures := {
    isPlayer := fun _ => false
    summons := fun _ => []
    position := fun _ => ⟨0, 0, 7⟩
    getTemplePosition := fun _ => ⟨0, 0, 7⟩
    templeTakes := fun _ => true
    summons_monsters := fun _ _ _ => rfl }
  have hcleared := h env (Items.ofEntries [{ ItemType.default with id := 2160 }]) strewn
    (by decide) fun i c hc => by simp [strewn] at hc
  obtain ⟨t', visited, hrun, -⟩ := hcleared
  have hnone : strewn.removeTile env (Items.ofEntries [{ ItemType.default with id := 2160 }]) =
      none := by decide
  rw [hnone] at hrun
  cases hrun

end StandingTile

end Eloth
