import Eloth.TileStack

/-!
# Stack positions

The client names a thing on a tile by its place in the description of the tile that it was sent.
The server finds this place by two traversals of its own, one for items and one for creatures.
-/

namespace Eloth.TileStack

variable (types : Items) (s : TileStack) (canSeeCreature : CreatureId → Bool)

/-! ## What is written -/

/-- Items are written until ten things are there. -/
def writeItems : List ItemRef → List TileThing → List TileThing
  | [], written => written
  | r :: items, written =>
    let written := written ++ [.item r]
    if written.length = 10 then written else writeItems items written

/-- The things in the order in which they are written, each of which is counted. -/
def GetTileDescription : List TileThing :=
  let written := writeItems s.topItems (s.ground.toList.map .item)
  let written := written ++ (s.creatures.reverse.filter canSeeCreature).map .creature
  if written.length < 10 then writeItems s.downItems written else written

/-! ## What is computed -/

def clientIndexFrom (creature : CreatureId) : List CreatureId → Int → Int
  | [], _ => -1
  | c :: creatures, n =>
    if c = creature then n
    else clientIndexFrom creature creatures (if canSeeCreature c then n + 1 else n)

def getClientIndexOfCreature (creature : CreatureId) : Int :=
  clientIndexFrom canSeeCreature creature s.creatures.reverse
    ((if s.ground.isSome then 1 else 0) + s.getTopItemCount)

/-- An error is the result of an early return. -/
def scanItems (full : Nat → Bool) (r : ItemRef) : List ItemRef → Nat → Except Int Nat
  | [], n => .ok n
  | other :: items, n =>
    if other = r then .error n
    else if full (n + 1) then .error (-1) else scanItems full r items (n + 1)

def scanCreatures : List CreatureId → Nat → Except Int Nat
  | [], n => .ok n
  | c :: creatures, n =>
    if canSeeCreature c then
      if 10 ≤ n + 1 then .error (-1) else scanCreatures creatures (n + 1)
    else scanCreatures creatures n

def getStackposOfItem (r : ItemRef) : Int :=
  if s.ground = some r then 0
  else
    let n := if s.ground.isSome then 1 else 0
    let isAlwaysOnTop := (s.itemType types r).alwaysOnTop
    let scan := do
      let n ←
        if isAlwaysOnTop then scanItems (fun n => n = 10) r s.topItems n
        else if 10 ≤ n + s.getTopItemCount then .error (-1)
        else .ok (n + s.getTopItemCount)
      let n ← scanCreatures canSeeCreature s.creatures n
      if isAlwaysOnTop then .ok n else scanItems (fun n => 10 ≤ n) r s.downItems n
    match scan with
    | .error n => n
    | .ok _ => -1

/-! ## The things that the player sees -/

/-- Everything that the player could be shown, from the bottom of the tile. -/
def seen : List TileThing :=
  s.ground.toList.map .item ++ s.topItems.map .item ++
    (s.creatures.reverse.filter canSeeCreature).map .creature ++ s.downItems.map .item

/-- The top items are those that stay on top. -/
def Parted : Prop :=
  ∀ r ∈ s.items, r ∈ s.topItems ↔ (s.itemType types r).alwaysOnTop = true

/-- The item is named by its index when it is among the first ten things, and by -1 otherwise. A
creature that the player sees is named by its index or by one past the tenth thing. -/
structure PositionsAgree : Prop where
  item : ∀ r, .item r ∈ s.onTile →
    (.item r ∈ (GetTileDescription s canSeeCreature).take 10 →
      s.getStackposOfItem types canSeeCreature r =
        (GetTileDescription s canSeeCreature).idxOf (.item r)) ∧
    (.item r ∉ (GetTileDescription s canSeeCreature).take 10 →
      s.getStackposOfItem types canSeeCreature r = -1)
  creature : ∀ creature ∈ s.creatures, canSeeCreature creature = true →
    (.creature creature ∈ (GetTileDescription s canSeeCreature).take 10 →
      s.getClientIndexOfCreature canSeeCreature creature =
        (GetTileDescription s canSeeCreature).idxOf (.creature creature)) ∧
    (.creature creature ∉ (GetTileDescription s canSeeCreature).take 10 →
      10 ≤ s.getClientIndexOfCreature canSeeCreature creature)

variable {types s canSeeCreature}

theorem length_ground : (s.ground.toList.map TileThing.item).length =
    if s.ground.isSome then 1 else 0 := by
  cases s.ground <;> rfl

theorem length_ground_le : (s.ground.toList.map TileThing.item).length ≤ 1 := by
  rw [length_ground]
  split_ifs <;> omega

theorem writeItems_eq (items : List ItemRef) {written : List TileThing}
    (h : written.length < 10) :
    writeItems items written = written ++ (items.map .item).take (10 - written.length) := by
  induction items generalizing written with
  | nil => simp [writeItems]
  | cons r items ih =>
    rw [writeItems, List.map_cons, List.take_cons (by omega)]
    split_ifs with hfull
    · rw [List.length_append, List.length_singleton] at hfull
      rw [show 10 - written.length - 1 = 0 by omega, List.take_zero]
    · rw [List.length_append, List.length_singleton] at hfull
      rw [ih (by simp; omega), List.append_assoc, List.length_append, List.length_singleton,
        List.singleton_append, Nat.sub_sub]

theorem take_append_take {α : Type} (l l' : List α) (n : Nat) :
    (l ++ l'.take (n - l.length)).take n = (l ++ l').take n := by
  rw [List.take_append, List.take_append, List.take_take, Nat.min_self]

/-- The description begins like the things that the player sees. -/
theorem take_GetTileDescription :
    (GetTileDescription s canSeeCreature).take 10 = (s.seen canSeeCreature).take 10 := by
  have hground : (s.ground.toList.map TileThing.item).length ≤ 1 := length_ground_le
  rw [GetTileDescription, seen, writeItems_eq s.topItems (by omega)]
  generalize s.ground.toList.map TileThing.item = ground at hground ⊢
  generalize s.topItems.map TileThing.item = top
  generalize (s.creatures.reverse.filter canSeeCreature).map TileThing.creature = creatures
  by_cases htop : top.length ≤ 10 - ground.length
  · rw [List.take_of_length_le htop]
    split_ifs with hroom
    · rw [writeItems_eq _ hroom, take_append_take]
    · exact (List.take_append_of_le_length (by omega)).symm
  · have hlength : (ground ++ top.take (10 - ground.length)).length = 10 := by
      rw [List.length_append, List.length_take]
      omega
    rw [if_neg (by rw [List.length_append]; omega), List.take_append_of_le_length hlength.ge,
      take_append_take, List.append_assoc (ground ++ top)]
    exact (List.take_append_of_le_length (by rw [List.length_append]; omega)).symm

/-! ## The creatures -/

theorem clientIndexFrom_eq {creature : CreatureId} {creatures : List CreatureId}
    (h : creature ∈ creatures) (hsee : canSeeCreature creature = true) (n : Int) :
    clientIndexFrom canSeeCreature creature creatures n =
      n + (creatures.filter canSeeCreature).idxOf creature := by
  induction creatures generalizing n with
  | nil => cases h
  | cons c creatures ih =>
    rw [clientIndexFrom]
    by_cases hc : c = creature
    · rw [if_pos hc, hc, List.filter_cons_of_pos hsee, List.idxOf_cons_self]
      simp
    · rw [if_neg hc, ih ((List.mem_cons.mp h).resolve_left (Ne.symm hc))]
      cases hother : canSeeCreature c with
      | true =>
        rw [List.filter_cons_of_pos hother, List.idxOf_cons_ne _ hc]
        simp only [if_true]
        omega
      | false => rw [List.filter_cons_of_neg (by simp [hother]), if_neg (by simp)]

theorem idxOf_map {α β : Type} [DecidableEq α] [DecidableEq β] {f : α → β}
    (hf : Function.Injective f) (x : α) (l : List α) : (l.map f).idxOf (f x) = l.idxOf x := by
  induction l with
  | nil => rfl
  | cons y l ih =>
    rw [List.map_cons]
    by_cases hxy : y = x
    · rw [hxy, List.idxOf_cons_self, List.idxOf_cons_self]
    · rw [List.idxOf_cons_ne _ (hf.ne hxy), List.idxOf_cons_ne _ hxy, ih]

theorem item_injective : Function.Injective TileThing.item := fun _ _ h => TileThing.item.inj h

theorem creature_injective : Function.Injective TileThing.creature :=
  fun _ _ h => TileThing.creature.inj h

theorem getClientIndexOfCreature_eq {creature : CreatureId} (h : creature ∈ s.creatures)
    (hsee : canSeeCreature creature = true) :
    s.getClientIndexOfCreature canSeeCreature creature =
      (s.seen canSeeCreature).idxOf (.creature creature) := by
  have hmem : creature ∈ s.creatures.reverse.filter canSeeCreature :=
    List.mem_filter.mpr ⟨List.mem_reverse.mpr h, hsee⟩
  have hbefore : TileThing.creature creature ∉
      s.ground.toList.map TileThing.item ++ s.topItems.map TileThing.item := by simp
  rw [getClientIndexOfCreature, clientIndexFrom_eq (List.mem_reverse.mpr h) hsee, seen,
    List.idxOf_append_of_mem
      (List.mem_append_right _ (List.mem_map_of_mem hmem)),
    List.idxOf_append_of_notMem hbefore, idxOf_map creature_injective, List.length_append,
    length_ground, List.length_map, length_topItems]
  split_ifs <;> simp

/-! ## The items -/

theorem scanItems_of_mem {full : Nat → Bool} (hfull : ∀ n ≤ 10, full n = decide (n = 10))
    {r : ItemRef} {items : List ItemRef} (h : r ∈ items) {n : Nat} (hn : n < 10) :
    scanItems full r items n =
      .error (if n + items.idxOf r < 10 then ((n + items.idxOf r : Nat) : Int) else -1) := by
  induction items generalizing n with
  | nil => cases h
  | cons other items ih =>
    rw [scanItems, hfull (n + 1) (by omega)]
    by_cases hother : other = r
    · rw [if_pos hother, hother, List.idxOf_cons_self, Nat.add_zero, if_pos hn]
    · have hnext : n + (items.idxOf r).succ = n + 1 + items.idxOf r := by omega
      rw [if_neg hother, List.idxOf_cons_ne _ hother, hnext]
      by_cases hlast : n + 1 = 10
      · rw [if_pos (by simpa using hlast), if_neg (by omega)]
      · rw [if_neg (by simpa using hlast),
          ih ((List.mem_cons.mp h).resolve_left (Ne.symm hother)) (by omega)]

theorem scanCreatures_eq (creatures : List CreatureId) {n : Nat} (hn : n < 10) :
    scanCreatures canSeeCreature creatures n =
      if n + (creatures.filter canSeeCreature).length < 10 then
        .ok (n + (creatures.filter canSeeCreature).length)
      else .error (-1) := by
  induction creatures generalizing n with
  | nil => rw [scanCreatures, List.filter_nil, List.length_nil, Nat.add_zero, if_pos hn]
  | cons c creatures ih =>
    rw [scanCreatures]
    cases hsee : canSeeCreature c with
    | false => rw [List.filter_cons_of_neg (by simp [hsee]), if_neg (by simp), ih hn]
    | true =>
      rw [List.filter_cons_of_pos hsee, List.length_cons, if_pos rfl]
      split_ifs with hfull hroom hroom
      · omega
      · rfl
      · rw [ih (by omega), if_pos (by omega)]
        congr 1
        omega
      · rw [ih (by omega), if_neg (by omega)]

theorem mem_items_of_onTile {r : ItemRef} (hr : .item r ∈ s.onTile) (hground : s.ground ≠ some r) :
    r ∈ s.topItems ∨ r ∈ s.downItems := by
  simp only [onTile, List.mem_append, List.mem_map, Option.mem_toList] at hr
  rcases hr with ((⟨_, hr, h⟩ | ⟨_, hr, h⟩) | ⟨_, _, h⟩) | ⟨_, hr, h⟩
  · exact absurd (item_injective h ▸ hr) hground
  · exact .inl (item_injective h ▸ hr)
  · cases h
  · exact .inr (item_injective h ▸ hr)

theorem item_notMem_ground {r : ItemRef} (hground : s.ground ≠ some r) :
    TileThing.item r ∉ s.ground.toList.map TileThing.item := by
  rw [List.mem_map_of_injective item_injective, Option.mem_toList]
  exact hground

theorem idxOf_seen_ground {r : ItemRef} (hground : s.ground = some r) :
    (s.seen canSeeCreature).idxOf (.item r) = 0 := by
  simp [seen, hground]

theorem idxOf_seen_top {r : ItemRef} (hground : s.ground ≠ some r) (hr : r ∈ s.topItems) :
    (s.seen canSeeCreature).idxOf (.item r) =
      (if s.ground.isSome then 1 else 0) + s.topItems.idxOf r := by
  have hmem : TileThing.item r ∈ s.topItems.map TileThing.item := List.mem_map_of_mem hr
  rw [seen, List.append_assoc, List.append_assoc,
    List.idxOf_append_of_notMem (item_notMem_ground hground), List.idxOf_append_of_mem hmem,
    idxOf_map item_injective, length_ground]

theorem idxOf_seen_down {r : ItemRef} (hground : s.ground ≠ some r) (hr : r ∉ s.topItems) :
    (s.seen canSeeCreature).idxOf (.item r) = (if s.ground.isSome then 1 else 0) +
      s.getTopItemCount + (s.creatures.filter canSeeCreature).length + s.downItems.idxOf r := by
  have htop : TileThing.item r ∉ s.topItems.map TileThing.item := by
    rwa [List.mem_map_of_injective item_injective]
  have hbefore : TileThing.item r ∉ s.ground.toList.map TileThing.item ++
      s.topItems.map TileThing.item ++
      (s.creatures.reverse.filter canSeeCreature).map TileThing.creature := by
    simp only [List.mem_append, not_or]
    exact ⟨⟨item_notMem_ground hground, htop⟩, by simp⟩
  rw [seen, List.idxOf_append_of_notMem hbefore, idxOf_map item_injective, List.length_append,
    List.length_append, length_ground, List.length_map, length_topItems, List.length_map,
    List.filter_reverse, List.length_reverse]

theorem getStackposOfItem_eq (h : Parted types s) {r : ItemRef} (hr : .item r ∈ s.onTile) :
    s.getStackposOfItem types canSeeCreature r =
      if (s.seen canSeeCreature).idxOf (.item r) < 10 then
        ((s.seen canSeeCreature).idxOf (.item r) : Int) else -1 := by
  rw [getStackposOfItem]
  by_cases hground : s.ground = some r
  · rw [if_pos hground, idxOf_seen_ground hground]
    rfl
  · rw [if_neg hground]
    have hitems : r ∈ s.items := by
      rw [← List.take_append_drop s.downItemCount s.items]
      exact List.mem_append.mpr (mem_items_of_onTile hr hground).symm
    have hfirst : (if s.ground.isSome then 1 else 0) < 10 := by split_ifs <;> decide
    cases htop : (s.itemType types r).alwaysOnTop with
    | true =>
      have hmem : r ∈ s.topItems := (h r hitems).mpr htop
      simp only [if_true]
      rw [scanItems_of_mem (fun _ _ => rfl) hmem hfirst, idxOf_seen_top hground hmem]
      rfl
    | false =>
      have hnot : r ∉ s.topItems := fun hmem => by simp [(h r hitems).mp hmem] at htop
      have hmem : r ∈ s.downItems := (mem_items_of_onTile hr hground).resolve_left hnot
      rw [idxOf_seen_down hground hnot]
      generalize (if s.ground.isSome then 1 else 0) = n at hfirst ⊢
      simp only [Bool.false_eq_true, if_false]
      by_cases hfull : 10 ≤ n + s.getTopItemCount
      · rw [if_pos hfull, if_neg (by omega)]
        rfl
      · rw [if_neg hfull]
        change (match (scanCreatures canSeeCreature s.creatures (n + s.getTopItemCount) >>=
          fun n => scanItems (fun n => 10 ≤ n) r s.downItems n) with
          | .error n => n
          | .ok _ => -1) = _
        rw [scanCreatures_eq _ (by omega)]
        by_cases hcreatures :
            n + s.getTopItemCount + (s.creatures.filter canSeeCreature).length < 10
        · rw [if_pos hcreatures]
          change (match scanItems (fun n => 10 ≤ n) r s.downItems _ with
            | .error n => n
            | .ok _ => -1) = _
          rw [scanItems_of_mem (fun n hn => decide_eq_decide.mpr (by omega)) hmem hcreatures]
        · rw [if_neg hcreatures, if_neg (by omega)]
          rfl

/-! ## The description and the positions -/

/-- Among the first ten things a position in the description is one in what the player sees. -/
theorem idxOf_description (thing : TileThing) :
    (thing ∈ (GetTileDescription s canSeeCreature).take 10 →
      (s.seen canSeeCreature).idxOf thing = (GetTileDescription s canSeeCreature).idxOf thing ∧
        (s.seen canSeeCreature).idxOf thing < 10) ∧
    (thing ∉ (GetTileDescription s canSeeCreature).take 10 → thing ∈ s.seen canSeeCreature →
      10 ≤ (s.seen canSeeCreature).idxOf thing) := by
  have hfirst {l : List TileThing} (h : thing ∈ l.take 10) :
      l.idxOf thing = (l.take 10).idxOf thing := by
    conv_lhs => rw [← List.take_append_drop 10 l]
    exact List.idxOf_append_of_mem h
  constructor
  · intro h
    have hseen : thing ∈ (s.seen canSeeCreature).take 10 := take_GetTileDescription ▸ h
    rw [hfirst h, hfirst hseen, take_GetTileDescription]
    refine ⟨rfl, (List.idxOf_lt_length_of_mem hseen).trans_le ?_⟩
    exact List.length_take_le 10 _
  · intro h hmem
    rw [take_GetTileDescription, List.mem_take_iff_idxOf_lt hmem] at h
    exact Nat.le_of_not_lt h

/-- Down to the tenth thing of the description, the positions that are computed are its indices. -/
theorem positions_agree (h : Parted types s) : PositionsAgree types s canSeeCreature := by
  constructor
  · intro r hr
    have hindex := @idxOf_description s canSeeCreature (.item r)
    have hseen : .item r ∈ s.seen canSeeCreature := by
      simp only [seen, onTile, List.mem_append] at hr ⊢
      rcases hr with ((hground | htop) | hcreature) | hdown
      · exact .inl (.inl (.inl hground))
      · exact .inl (.inl (.inr htop))
      · simp at hcreature
      · exact .inr hdown
    rw [getStackposOfItem_eq h hr]
    constructor
    · intro hten
      rw [if_pos (hindex.1 hten).2, (hindex.1 hten).1]
    · intro hten
      rw [if_neg (Nat.not_lt.mpr (hindex.2 hten hseen))]
  · intro creature hcreature hsee
    have hindex := @idxOf_description s canSeeCreature (.creature creature)
    have hseen : .creature creature ∈ s.seen canSeeCreature := by simp [seen, hcreature, hsee]
    rw [getClientIndexOfCreature_eq hcreature hsee]
    constructor
    · intro hten
      rw [(hindex.1 hten).1]
    · intro hten
      exact_mod_cast hindex.2 hten hseen

/-- Ground, a top item and a down item, with three creatures of which the second is not seen. -/
def crowded : TileStack where
  ground := some 4
  items := [5, 1]
  downItemCount := 1
  creatures := [7, 8, 9]
  item r := { id := r, count := 1, attributes := none, cls := .item, parent := none }

theorem positions_agree_crowded :
    crowded.getStackposOfItem topTable (fun c => c ≠ 8) 5 = 4 ∧
      crowded.getClientIndexOfCreature (fun c => c ≠ 8) 7 = 3 := by
  have hagree : PositionsAgree topTable crowded fun c => c ≠ 8 := positions_agree (by unfold Parted; decide)
  have hitem := (hagree.item 5 (by decide)).1 (by decide)
  have hcreature := (hagree.creature 7 (by decide) (by decide)).1 (by decide)
  exact ⟨hitem, hcreature⟩

end Eloth.TileStack
