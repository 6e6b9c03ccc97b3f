import Eloth.HouseItems

/-!
# The order of the items on a house tile

A saved tile and the tile of the map, with a name for every item. Loading goes through the saved
items from the last to the first; the lists of names follow where each of them is put when it finds
the item it was saved from.
-/

namespace Eloth

/-! ## Insertion among the top items -/

section InsertTop

variable {α β : Type} {later : α → Bool} {a : α} {l : List α}

theorem perm_insertTop (later : α → Bool) (a : α) (l : List α) :
    (insertTop later a l).Perm (a :: l) := by
  induction l with
  | nil => exact .refl _
  | cons b l ih =>
    unfold insertTop
    split
    · exact .refl _
    · exact (ih.cons b).trans (.swap a b l)

theorem map_insertTop {later' : β → Bool} (f : α → β) (h : ∀ b ∈ l, later' (f b) = later b) :
    (insertTop later a l).map f = insertTop later' (f a) (l.map f) := by
  induction l with
  | nil => rfl
  | cons b l ih =>
    have hrest := ih fun b hb => h b (List.mem_cons_of_mem _ hb)
    rw [List.map_cons, insertTop, insertTop, h b (by simp)]
    split
    · rfl
    · rw [List.map_cons, hrest]

/-- In a list sorted by `ord`, everything behind the place of insertion is later. -/
theorem pairwise_insertTop {R : α → α → Prop} {ord : α → Nat} {bound : Nat}
    (hsorted : l.Pairwise fun b c => ord b ≤ ord c) (hlater : ∀ b ∈ l, later b = decide (bound ≤ ord b))
    (hR : l.Pairwise R) (hbefore : ∀ b ∈ l, ord b < bound → R b a)
    (hafter : ∀ b ∈ l, bound ≤ ord b → R a b) : (insertTop later a l).Pairwise R := by
  induction l with
  | nil => simp [insertTop]
  | cons b l ih =>
    rw [List.pairwise_cons] at hsorted hR
    unfold insertTop
    rw [hlater b (by simp)]
    by_cases h : bound ≤ ord b
    · rw [if_pos (by simpa using h)]
      refine .cons (fun c hc => ?_) (.cons hR.1 hR.2)
      rcases List.mem_cons.mp hc with rfl | hmem
      · exact hafter c hc h
      · exact hafter c hc (h.trans (hsorted.1 c hmem))
    · rw [if_neg (by simpa using h)]
      refine .cons (fun c hc => ?_) (ih hsorted.2 (fun c hc => hlater c (List.mem_cons_of_mem _ hc))
        hR.2 (fun c hc => hbefore c (List.mem_cons_of_mem _ hc))
        fun c hc => hafter c (List.mem_cons_of_mem _ hc))
      rcases List.mem_cons.mp ((perm_insertTop later a l).mem_iff.mp hc) with rfl | hmem
      · exact hbefore b (by simp) (Nat.lt_of_not_le h)
      · exact hR.1 c hmem

end InsertTop

/-! ## A saved tile and the tile of the map -/

/-- The items of a tile when it is saved, and those that the map puts on it again. An item of the
map keeps its name. -/
structure HouseTile (ι : Type) where
  item : ι → ItemTree
  mapItem : ι → StoredItem
  down : List ι
  top : List ι
  mapDown : List ι
  mapTop : List ι

namespace HouseTile

variable {ι : Type} [DecidableEq ι] (env : HouseEnv) (tile : HouseTile ι)

def names : List ι := tile.down ++ tile.top

def isMapItem (x : ι) : Bool := x ∈ tile.mapDown ++ tile.mapTop

def isSaved (x : ι) : Bool := IOMapSerialize.isSaved env (tile.item x)

/-- The item as the map has it, without anything in it. -/
def mapTree (x : ι) : ItemTree := ItemTree.of (tile.mapItem x) []

def saved : TileItems := ⟨tile.down.map tile.item, tile.top.map tile.item⟩

def fresh : TileItems := ⟨tile.mapDown.map tile.mapTree, tile.mapTop.map tile.mapTree⟩

/-- What an item is when those of the list have been loaded. -/
def now (l : List ι) (x : ι) : ItemTree :=
  if x ∈ l ∧ tile.isSaved env x = true then tile.item x else tile.mapTree x

def typeOf (tree : ItemTree) : ItemType := env.items.get (ItemTree.getID tree)

/-- Where the item goes that is loaded after those of the list. -/
def put (x : ι) (l : List ι) (lists : List ι × List ι) : List ι × List ι :=
  let itemType := typeOf env (tile.item x)
  let order (y : ι) : Nat := (typeOf env (tile.now env l y)).alwaysOnTopOrder
  if tile.isSaved env x = false then lists
  else if tile.isMapItem x = false then
    if itemType.alwaysOnTop then
      (lists.1, insertTop (fun y => order y > itemType.alwaysOnTopOrder) x lists.2)
    else (x :: lists.1, lists.2)
  else if (typeOf env (tile.mapTree x)).alwaysOnTop = itemType.alwaysOnTop then lists
  else if itemType.alwaysOnTop then
    (lists.1.erase x, insertTop (fun y => itemType.alwaysOnTopOrder ≤ order y) x lists.2)
  else (x :: lists.1, lists.2.erase x)

/-- The lists of names after the items of the list have been loaded, the last one first. -/
def replay : List ι → List ι × List ι
  | [] => (tile.mapDown, tile.mapTop)
  | x :: l => tile.put env x l (replay l)

/-- The saved tile has the items of the map and others, which are moveable or force-serialized. -/
structure Valid : Prop where
  nodup : tile.names.Nodup
  map_nodup : (tile.mapDown ++ tile.mapTop).Nodup
  map_subset : ∀ x, tile.isMapItem x = true → x ∈ tile.names
  length_le : tile.names.length ≤ 0xFFFF
  down_side : ∀ x ∈ tile.down, (typeOf env (tile.item x)).alwaysOnTop = false
  top_side : ∀ x ∈ tile.top, (typeOf env (tile.item x)).alwaysOnTop = true
  mapDown_side : ∀ x ∈ tile.mapDown, (typeOf env (tile.mapTree x)).alwaysOnTop = false
  mapTop_side : ∀ x ∈ tile.mapTop, (typeOf env (tile.mapTree x)).alwaysOnTop = true
  /-- The map has put its own items in order. -/
  mapTop_sorted : tile.mapTop.Pairwise fun x y =>
    (typeOf env (tile.mapTree x)).alwaysOnTopOrder ≤ (typeOf env (tile.mapTree y)).alwaysOnTopOrder
  created : ∀ x ∈ tile.names, tile.isMapItem x = false →
    ((typeOf env (tile.item x)).moveable || env.forceSerialize (ItemTree.getID (tile.item x))) = true
  stationary : ∀ x, tile.isMapItem x = true → (typeOf env (tile.item x)).moveable = false
  /-- What is not saved lies there as the map has it. -/
  unsaved : ∀ x ∈ tile.names, tile.isSaved env x = false →
    ItemTree.getID (tile.item x) = ItemTree.getID (tile.mapTree x)
  no_ground : ∀ x ∈ tile.names, (typeOf env (tile.item x)).isGroundTile = false

/-- The order that loading restores: below creatures, the items of the map that are still there lie
behind all others; on top, the order of the types decides, then the items from below come first and
an item that is created last. -/
structure Ordered : Prop where
  down : tile.down = tile.down.filter (fun x => x ∉ tile.mapDown) ++
    tile.mapDown.filter fun x => x ∈ tile.down
  top : tile.top.Pairwise fun x y =>
    (typeOf env (tile.item x)).alwaysOnTopOrder < (typeOf env (tile.item y)).alwaysOnTopOrder ∨
      (typeOf env (tile.item x)).alwaysOnTopOrder =
          (typeOf env (tile.item y)).alwaysOnTopOrder ∧
        (x ∈ tile.mapDown ∨ x ∈ tile.mapTop ∧ y ∉ tile.mapDown)
  mapTop : tile.top.filter (fun x => x ∈ tile.mapTop) = tile.mapTop.filter fun x => x ∈ tile.top
  mapTop_order : ∀ x ∈ tile.mapTop, x ∈ tile.top →
    (typeOf env (tile.mapTree x)).alwaysOnTopOrder = (typeOf env (tile.item x)).alwaysOnTopOrder

variable {env tile}

theorem isMapItem_iff {x : ι} :
    tile.isMapItem x = true ↔ x ∈ tile.mapDown ∨ x ∈ tile.mapTop := by
  simp [isMapItem]

/-- An item of the map lies on the side of its type there. -/
theorem Valid.mem_mapDown_iff (h : tile.Valid env) {x : ι} (hx : tile.isMapItem x = true) :
    x ∈ tile.mapDown ↔ (typeOf env (tile.mapTree x)).alwaysOnTop = false := by
  refine ⟨h.mapDown_side x, fun hside => ?_⟩
  rcases isMapItem_iff.mp hx with hdown | htop
  · exact hdown
  · rw [h.mapTop_side x htop] at hside
    cases hside

theorem Valid.mem_mapTop_iff (h : tile.Valid env) {x : ι} (hx : tile.isMapItem x = true) :
    x ∈ tile.mapTop ↔ (typeOf env (tile.mapTree x)).alwaysOnTop = true := by
  refine ⟨h.mapTop_side x, fun hside => ?_⟩
  rcases isMapItem_iff.mp hx with hdown | htop
  · rw [h.mapDown_side x hdown] at hside
    cases hside
  · exact htop

theorem Valid.mem_top_iff (h : tile.Valid env) {x : ι} (hx : x ∈ tile.names) :
    x ∈ tile.top ↔ (typeOf env (tile.item x)).alwaysOnTop = true := by
  refine ⟨h.top_side x, fun hside => ?_⟩
  rcases List.mem_append.mp hx with hdown | htop
  · rw [h.down_side x hdown] at hside
    cases hside
  · exact htop

theorem Valid.mem_down_iff (h : tile.Valid env) {x : ι} (hx : x ∈ tile.names) :
    x ∈ tile.down ↔ (typeOf env (tile.item x)).alwaysOnTop = false := by
  refine ⟨h.down_side x, fun hside => ?_⟩
  rcases List.mem_append.mp hx with hdown | htop
  · exact hdown
  · rw [h.top_side x htop] at hside
    cases hside

/-! ## The names after some items -/

/-- The names on the two sides when the items of the list have been loaded. -/
structure Placed (env : HouseEnv) (tile : HouseTile ι) (l : List ι) (lists : List ι × List ι) :
    Prop where
  nodup : (lists.1 ++ lists.2).Nodup
  mem : ∀ y, y ∈ lists.1 ++ lists.2 ↔
    tile.isMapItem y = true ∨ y ∈ l ∧ tile.isSaved env y = true
  down_iff : ∀ y, tile.isMapItem y = true → y ∉ l → (y ∈ lists.1 ↔ y ∈ tile.mapDown)

section Put

variable {x : ι} {l : List ι} {lists : List ι × List ι}

theorem Placed.mem_down (h : Placed env tile l lists) (hx : x ∉ l) (hdown : x ∈ tile.mapDown) :
    x ∈ lists.1 := (h.down_iff x (isMapItem_iff.mpr (.inl hdown)) hx).mpr hdown

theorem Placed.mem_top (h : Placed env tile l lists) (hvalid : tile.Valid env) (hx : x ∉ l)
    (htop : x ∈ tile.mapTop) : x ∈ lists.2 := by
  have hmap : tile.isMapItem x = true := isMapItem_iff.mpr (.inr htop)
  refine (List.mem_append.mp ((h.mem x).mpr (.inl hmap))).resolve_left fun hdown => ?_
  exact (List.nodup_append.mp hvalid.map_nodup).2.2 x ((h.down_iff x hmap hx).mp hdown) x htop rfl

theorem Valid.isMapItem_of_unsaved (hvalid : tile.Valid env) (hx : x ∈ tile.names)
    (hsaved : tile.isSaved env x = false) : tile.isMapItem x = true := by
  by_contra hmap
  have hcreated := hvalid.created x hx (by simpa using hmap)
  simp only [isSaved, IOMapSerialize.isSaved, Bool.or_eq_false_iff] at hsaved
  simp only [typeOf, ItemTree.getID] at hcreated
  simp [hsaved] at hcreated

/-- The cases of `put`: nothing moves, or an item is new on the side below creatures or on top. -/
theorem put_cases (hvalid : tile.Valid env) (hx : x ∈ tile.names) (l : List ι)
    (lists : List ι × List ι) :
    (tile.isMapItem x = true ∧ (x ∈ tile.mapDown ↔ x ∈ tile.down) ∧
      tile.put env x l lists = lists) ∨
    (tile.isSaved env x = true ∧ x ∈ tile.down ∧ x ∉ tile.mapDown ∧
      tile.put env x l lists =
        (x :: lists.1, if tile.isMapItem x = true then lists.2.erase x else lists.2)) ∨
    (tile.isSaved env x = true ∧ x ∈ tile.top ∧ x ∉ tile.mapTop ∧
      tile.put env x l lists =
        (if tile.isMapItem x = true then lists.1.erase x else lists.1,
          insertTop (fun y => decide
            ((typeOf env (tile.item x)).alwaysOnTopOrder +
                (if tile.isMapItem x = true then 0 else 1) ≤
              (typeOf env (tile.now env l y)).alwaysOnTopOrder)) x lists.2)) := by
  have hdown := hvalid.mem_down_iff hx
  have htop := hvalid.mem_top_iff hx
  unfold put
  cases hmap : tile.isMapItem x with
  | false =>
    right
    have hsaved : tile.isSaved env x = true := by
      by_contra hunsaved
      have := hvalid.isMapItem_of_unsaved hx (by simpa using hunsaved)
      simp [hmap] at this
    have hnone := hmap
    rw [isMapItem, decide_eq_false_iff_not, List.mem_append, not_or] at hnone
    cases hside : (typeOf env (tile.item x)).alwaysOnTop with
    | false => exact .inl ⟨hsaved, hdown.mpr hside, hnone.1, by simp [hside, hsaved]⟩
    | true =>
      refine .inr ⟨hsaved, htop.mpr hside, hnone.2, ?_⟩
      simp only [hside, hsaved, Nat.lt_iff_add_one_le, Bool.true_eq_false, Bool.false_eq_true,
        if_true, if_false]
  | true =>
    have hmapDown := hvalid.mem_mapDown_iff hmap
    have hmapTop := hvalid.mem_mapTop_iff hmap
    by_cases hsame : (typeOf env (tile.mapTree x)).alwaysOnTop =
        (typeOf env (tile.item x)).alwaysOnTop
    · exact .inl ⟨rfl, by rw [hmapDown, hdown, hsame], by simp [hsame]⟩
    · right
      have hsaved : tile.isSaved env x = true := by
        by_contra hunsaved
        have hid := hvalid.unsaved x hx (by simpa using hunsaved)
        exact hsame (by rw [typeOf, typeOf, hid])
      cases hside : (typeOf env (tile.item x)).alwaysOnTop with
      | false =>
        rw [hside, Bool.not_eq_false] at hsame
        refine .inl ⟨hsaved, hdown.mpr hside, ?_, by simp [hside, hsame, hsaved]⟩
        rw [hmapDown, hsame]
        simp
      | true =>
        rw [hside, Bool.not_eq_true] at hsame
        refine .inr ⟨hsaved, htop.mpr hside, ?_, by simp [hside, hsame, hsaved]⟩
        rw [hmapTop, hsame]
        simp

theorem Placed.not_mem (h : Placed env tile l lists) (hfresh : x ∉ l)
    (hmap : tile.isMapItem x = false) : x ∉ lists.1 ++ lists.2 := by
  rw [h.mem x]
  simp [hmap, hfresh]

theorem Placed.of_perm (h : Placed env tile l lists) (hfresh : x ∉ l)
    (hsaved : tile.isSaved env x = true) {lists' : List ι × List ι}
    (hperm : (lists'.1 ++ lists'.2).Perm
      (if tile.isMapItem x = true then lists.1 ++ lists.2 else x :: (lists.1 ++ lists.2)))
    (hdown : ∀ y, y ≠ x → (y ∈ lists'.1 ↔ y ∈ lists.1)) : Placed env tile (x :: l) lists' := by
  refine ⟨?_, fun y => ?_, fun y hmap hy => ?_⟩
  · rw [hperm.nodup_iff]
    split_ifs with hmap
    · exact h.nodup
    · exact List.nodup_cons.mpr ⟨h.not_mem hfresh (by simpa using hmap), h.nodup⟩
  · rw [hperm.mem_iff]
    by_cases heq : y = x
    · subst heq
      split_ifs with hmap
      · simp [h.mem y, hmap]
      · simp [hsaved]
    · split_ifs with hmap <;> simp [h.mem y, heq, -List.mem_append]
  · have hne : y ≠ x := fun heq => hy (by simp [heq])
    rw [hdown y hne, h.down_iff y hmap fun hmem => hy (List.mem_cons_of_mem _ hmem)]

theorem Placed.put (h : Placed env tile l lists) (hvalid : tile.Valid env) (hx : x ∈ tile.names)
    (hfresh : x ∉ l) : Placed env tile (x :: l) (tile.put env x l lists) := by
  rcases put_cases hvalid hx l lists with ⟨hmap, -, heq⟩ | ⟨hsaved, -, hside, heq⟩ |
    ⟨hsaved, -, hside, heq⟩
  · rw [heq]
    refine ⟨h.nodup, fun y => ?_, fun y hmap hy => h.down_iff y hmap fun hmem =>
      hy (List.mem_cons_of_mem _ hmem)⟩
    rw [h.mem y]
    by_cases heq : y = x
    · simp [heq, hmap]
    · simp [heq]
  · rw [heq]
    refine h.of_perm hfresh hsaved ?_ fun y hne => by simp [hne]
    split_ifs with hmap
    · have htop : x ∈ lists.2 :=
        h.mem_top hvalid hfresh ((isMapItem_iff.mp hmap).resolve_left hside)
      rw [List.cons_append]
      exact List.perm_middle.symm.trans ((List.perm_cons_erase htop).symm.append_left _)
    · exact .refl _
  · rw [heq]
    refine h.of_perm hfresh hsaved ?_ fun y hne => ?_
    · refine ((perm_insertTop _ x lists.2).append_left _).trans ?_
      split_ifs with hmap
      · have hdown : x ∈ lists.1 :=
          h.mem_down hfresh ((isMapItem_iff.mp hmap).resolve_right hside)
        refine List.perm_middle.trans ?_
        rw [← List.cons_append]
        exact (List.perm_cons_erase hdown).symm.append_right _
      · exact List.perm_middle
    · simp only
      split_ifs
      · exact List.mem_erase_of_ne hne
      · rfl

end Put

variable (env) in
theorem placed_replay (hvalid : tile.Valid env) {l : List ι} (hl : l <:+ tile.names) :
    Placed env tile l (tile.replay env l) := by
  induction l with
  | nil =>
    exact ⟨hvalid.map_nodup, fun y => by simp [replay, isMapItem, -List.mem_append],
      fun y _ _ => .rfl⟩
  | cons x l ih =>
    have hnodup := hvalid.nodup.sublist hl.sublist
    exact (ih ((List.suffix_cons x l).trans hl)).put hvalid (hl.subset (by simp))
      (List.nodup_cons.mp hnodup).1

/-! ## The order below creatures -/

theorem erase_filter {l : List ι} {p : ι → Bool} {x : ι} (h : l.Nodup) :
    (l.filter p).erase x = l.filter fun y => p y && decide (y ≠ x) := by
  rw [(h.filter p).erase_eq_filter, List.filter_filter]
  refine List.filter_congr fun y _ => ?_
  rw [Bool.and_comm]
  simp [Bool.beq_eq_decide_eq, bne]

theorem Valid.mapDown_nodup (h : tile.Valid env) : tile.mapDown.Nodup :=
  (List.nodup_append.mp h.map_nodup).1

theorem Valid.not_mem_down (h : tile.Valid env) {x : ι} (hx : x ∈ tile.top) : x ∉ tile.down :=
  fun hdown => (List.nodup_append.mp h.nodup).2.2 x hdown x hx rfl

/-- After top items only, what left the side below creatures is gone. -/
theorem replay_top_down (hvalid : tile.Valid env) {l : List ι} (hl : l <:+ tile.top) :
    (tile.replay env l).1 = tile.mapDown.filter fun y => y ∉ l := by
  induction l with
  | nil => simp [replay]
  | cons x l ih =>
    have hrest := ih ((List.suffix_cons x l).trans hl)
    have hx : x ∈ tile.top := hl.subset (by simp)
    have hnames : x ∈ tile.names := List.mem_append_right _ hx
    have hcons : (fun y => decide (y ∉ x :: l)) = fun y => decide (y ∉ l) && decide (y ≠ x) := by
      funext y
      simp [Bool.and_comm]
    rw [replay, hcons]
    rcases put_cases hvalid hnames l (tile.replay env l) with ⟨-, hside, heq⟩ |
      ⟨-, hdown, -, -⟩ | ⟨-, -, -, heq⟩
    · rw [heq, hrest]
      refine List.filter_congr fun y hy => ?_
      have hne : y ≠ x := fun h => hvalid.not_mem_down hx (hside.mp (h ▸ hy))
      simp [hne]
    · exact absurd hdown (hvalid.not_mem_down hx)
    · rw [heq, ← erase_filter hvalid.mapDown_nodup, hrest]
      simp only
      split_ifs with hmap
      · rfl
      · refine (List.erase_of_not_mem fun hmem => hmap ?_).symm
        exact isMapItem_iff.mpr (.inl (List.mem_filter.mp hmem).1)

/-- After some items below creatures as well, those that are new lie in front. -/
theorem replay_down (hvalid : tile.Valid env) {l : List ι} (hl : l <:+ tile.down) :
    (tile.replay env (l ++ tile.top)).1 =
      l.filter (fun y => y ∉ tile.mapDown) ++ tile.mapDown.filter fun y => y ∉ tile.top := by
  induction l with
  | nil => simpa using replay_top_down hvalid (List.suffix_refl tile.top)
  | cons x l ih =>
    have hrest := ih ((List.suffix_cons x l).trans hl)
    have hx : x ∈ tile.down := hl.subset (by simp)
    have hnames : x ∈ tile.names := List.mem_append_left _ hx
    rw [List.cons_append, replay]
    rcases put_cases hvalid hnames (l ++ tile.top) (tile.replay env (l ++ tile.top)) with
      ⟨-, hside, heq⟩ | ⟨-, -, hside, heq⟩ | ⟨-, htop, -, -⟩
    · rw [heq, hrest, List.filter_cons_of_neg (by simpa using hside.mpr hx)]
    · rw [heq, hrest, List.filter_cons_of_pos (by simpa using hside), List.cons_append]
    · exact absurd hx (hvalid.not_mem_down htop)

theorem Ordered.replay_down (h : tile.Ordered env) (hvalid : tile.Valid env) :
    (tile.replay env tile.names).1 = tile.down := by
  rw [names, HouseTile.replay_down hvalid (List.suffix_refl _)]
  conv_rhs => rw [h.down]
  congr 1
  refine List.filter_congr fun y hy => ?_
  have hnames := hvalid.map_subset y (isMapItem_iff.mpr (.inl hy))
  rcases List.mem_append.mp hnames with hdown | htop
  · have hnot : y ∉ tile.top := fun htop => hvalid.not_mem_down htop hdown
    simp [hdown, hnot]
  · simp [htop, hvalid.not_mem_down htop]

/-! ## The order on top -/

theorem pairwise_idxOf {l : List ι} (h : l.Nodup) : l.Pairwise fun x y => l.idxOf x < l.idxOf y := by
  rw [List.pairwise_iff_getElem]
  intro i j hi hj hij
  rwa [h.idxOf_getElem i hi, h.idxOf_getElem j hj]

theorem of_idxOf_lt {R : ι → ι → Prop} {l : List ι} (h : l.Pairwise R) {x y : ι} (hy : y ∈ l)
    (hlt : l.idxOf x < l.idxOf y) : R x y := by
  have hylen := List.idxOf_lt_length_of_mem hy
  have hxlen := hlt.trans hylen
  have hpair := List.pairwise_iff_getElem.mp h (l.idxOf x) (l.idxOf y) hxlen hylen hlt
  rwa [List.getElem_idxOf hxlen, List.getElem_idxOf hylen] at hpair

/-- The order of an item among the top items while these are loaded. -/
def topOrder (env : HouseEnv) (tile : HouseTile ι) (x : ι) : Nat :=
  if x ∈ tile.top then (typeOf env (tile.item x)).alwaysOnTopOrder
  else (typeOf env (tile.mapTree x)).alwaysOnTopOrder

/-- Where both are, the first lies before the second on the saved tile. -/
def Precedes (tile : HouseTile ι) (x y : ι) : Prop :=
  x ∈ tile.top → y ∈ tile.top → tile.top.idxOf x < tile.top.idxOf y

section Top

variable {l : List ι}

theorem mem_mapTop_of_unprocessed (hvalid : tile.Valid env) (hl : l <:+ tile.top) {y : ι}
    (hy : y ∈ (tile.replay env l).2) (hfresh : y ∉ l) : y ∈ tile.mapTop ∧ y ∉ tile.mapDown := by
  have hplaced := placed_replay env hvalid (hl.trans (List.suffix_append tile.down tile.top))
  have hmap : tile.isMapItem y = true :=
    ((hplaced.mem y).mp (List.mem_append_right _ hy)).resolve_right fun h => hfresh h.1
  have hdown : y ∉ tile.mapDown := fun hdown =>
    (List.nodup_append.mp hplaced.nodup).2.2 y ((hplaced.down_iff y hmap hfresh).mpr hdown) y hy rfl
  exact ⟨(isMapItem_iff.mp hmap).resolve_left hdown, hdown⟩

theorem order_now (h : tile.Ordered env) (hvalid : tile.Valid env) (hl : l <:+ tile.top) {y : ι}
    (hy : y ∈ (tile.replay env l).2) :
    (typeOf env (tile.now env l y)).alwaysOnTopOrder = tile.topOrder env y := by
  unfold now topOrder
  by_cases hmem : y ∈ l
  · have htop := hl.subset hmem
    rw [if_pos htop]
    cases hsaved : tile.isSaved env y with
    | true => rw [if_pos ⟨hmem, rfl⟩]
    | false =>
      rw [if_neg (by simp), typeOf, typeOf,
        hvalid.unsaved y (List.mem_append_right _ htop) hsaved]
  · rw [if_neg fun hand => hmem hand.1]
    split_ifs with htop
    · exact h.mapTop_order y (mem_mapTop_of_unprocessed hvalid hl hy hmem).1 htop
    · rfl

theorem suffix_idxOf_lt (hvalid : tile.Valid env) {x y : ι} (hl : x :: l <:+ tile.top)
    (hy : y ∈ l) : tile.top.idxOf x < tile.top.idxOf y := by
  have hnodup : tile.top.Nodup := (List.nodup_append.mp hvalid.nodup).2.1
  have hpair := (pairwise_idxOf hnodup).sublist hl.sublist
  exact (List.pairwise_cons.mp hpair).1 y hy

theorem pairwise_replay_top (h : tile.Ordered env) (hvalid : tile.Valid env)
    (hl : l <:+ tile.top) :
    (tile.replay env l).2.Pairwise (fun x y => tile.topOrder env x ≤ tile.topOrder env y) ∧
      (tile.replay env l).2.Pairwise tile.Precedes := by
  have htopNodup : tile.top.Nodup := (List.nodup_append.mp hvalid.nodup).2.1
  induction l with
  | nil =>
    refine ⟨?_, ?_⟩
    · have hmap (x : ι) (hx : x ∈ tile.mapTop) : tile.topOrder env x =
          (typeOf env (tile.mapTree x)).alwaysOnTopOrder := by
        unfold topOrder
        split_ifs with htop
        · exact (h.mapTop_order x hx htop).symm
        · rfl
      refine hvalid.mapTop_sorted.imp_of_mem fun {x y} hx hy hle => ?_
      rwa [hmap x hx, hmap y hy]
    · have hpair : (tile.mapTop.filter fun x => x ∈ tile.top).Pairwise
          fun x y => tile.top.idxOf x < tile.top.idxOf y := by
        rw [← h.mapTop]
        exact (pairwise_idxOf htopNodup).filter _
      refine (List.pairwise_filter.mp hpair).imp fun hxy hx hy => ?_
      exact hxy (by simpa using hx) (by simpa using hy)
  | cons x l ih =>
    have hl' := (List.suffix_cons x l).trans hl
    obtain ⟨hsorted, hprecedes⟩ := ih hl'
    have hx : x ∈ tile.top := hl.subset (by simp)
    have hnames : x ∈ tile.names := List.mem_append_right _ hx
    have hxorder : tile.topOrder env x = (typeOf env (tile.item x)).alwaysOnTopOrder := if_pos hx
    rw [replay]
    rcases put_cases hvalid hnames l (tile.replay env l) with ⟨-, -, heq⟩ | ⟨-, hdown, -, -⟩ |
      ⟨-, -, hside, heq⟩
    · rw [heq]
      exact ⟨hsorted, hprecedes⟩
    · exact absurd hdown (hvalid.not_mem_down hx)
    · have hbefore (y : ι) (hy : y ∈ tile.top) (hlt : tile.top.idxOf x < tile.top.idxOf y) :
          (typeOf env (tile.item x)).alwaysOnTopOrder + (if tile.isMapItem x = true then 0 else 1) ≤
            tile.topOrder env y := by
        have hyorder : tile.topOrder env y = (typeOf env (tile.item y)).alwaysOnTopOrder :=
          if_pos hy
        rcases of_idxOf_lt h.top hy hlt with hless | ⟨hequal, hdown | ⟨htop, -⟩⟩
        · split_ifs <;> omega
        · rw [if_pos (isMapItem_iff.mpr (.inl hdown))]
          omega
        · exact absurd htop hside
      have hafter (y : ι) (hy : y ∈ (tile.replay env l).2) (hytop : y ∈ tile.top)
          (hlt : tile.top.idxOf y < tile.top.idxOf x) :
          tile.topOrder env y < (typeOf env (tile.item x)).alwaysOnTopOrder +
            (if tile.isMapItem x = true then 0 else 1) := by
        have hyorder : tile.topOrder env y = (typeOf env (tile.item y)).alwaysOnTopOrder :=
          if_pos hytop
        have hfresh : y ∉ l := fun hmem => Nat.lt_asymm hlt (suffix_idxOf_lt hvalid hl hmem)
        rcases of_idxOf_lt h.top hx hlt with hless | ⟨hequal, hdown | ⟨-, hnot⟩⟩
        · split_ifs <;> omega
        · exact absurd hdown (mem_mapTop_of_unprocessed hvalid hl' hy hfresh).2
        · have hnew : ¬ tile.isMapItem x = true := fun hmap =>
            (isMapItem_iff.mp hmap).elim hnot hside
          rw [if_neg hnew]
          omega
      have hne (y : ι) (hy : y ∈ (tile.replay env l).2) (hytop : y ∈ tile.top) :
          tile.top.idxOf y ≠ tile.top.idxOf x := by
        intro hidx
        have heq : y = x := (List.idxOf_inj hytop).mp hidx
        have hnodup := List.nodup_cons.mp (htopNodup.sublist hl.sublist)
        exact hside (mem_mapTop_of_unprocessed hvalid hl' (heq ▸ hy) hnodup.1).1
      have hlater (y : ι) (hy : y ∈ (tile.replay env l).2) := congrArg
        (fun order => decide ((typeOf env (tile.item x)).alwaysOnTopOrder +
          (if tile.isMapItem x = true then 0 else 1) ≤ order)) (order_now h hvalid hl' hy)
      rw [heq]
      refine ⟨pairwise_insertTop hsorted hlater hsorted (fun y _ hlt => ?_) (fun y _ hle => ?_),
        pairwise_insertTop hsorted hlater hprecedes (fun y hy hlt hytop _ => ?_)
          fun y hy hle _ hytop => ?_⟩
      · rw [hxorder]
        split_ifs at hlt <;> omega
      · rw [hxorder]
        omega
      · rcases Nat.lt_or_gt_of_ne (hne y hy hytop) with hyx | hxy
        · exact hyx
        · have := hbefore y hytop hxy
          omega
      · rcases Nat.lt_or_gt_of_ne (hne y hy hytop) with hyx | hxy
        · have := hafter y hy hytop hyx
          omega
        · exact hxy

/-- Below creatures, only items that came from the top side are taken away from it. -/
theorem replay_down_top (hvalid : tile.Valid env) (hl : l <:+ tile.down) :
    (tile.replay env (l ++ tile.top)).2 =
      (tile.replay env tile.top).2.filter fun y => y ∉ l := by
  have hplaced := placed_replay env hvalid (List.suffix_append tile.down tile.top)
  have hnodup : (tile.replay env tile.top).2.Nodup := (List.nodup_append.mp hplaced.nodup).2.1
  induction l with
  | nil => simp
  | cons x l ih =>
    have hrest := ih ((List.suffix_cons x l).trans hl)
    have hx : x ∈ tile.down := hl.subset (by simp)
    have hnames : x ∈ tile.names := List.mem_append_left _ hx
    have hcons : (fun y => decide (y ∉ x :: l)) = fun y => decide (y ∉ l) && decide (y ≠ x) := by
      funext y
      simp [Bool.and_comm]
    have hxtop : x ∉ tile.top := fun htop => hvalid.not_mem_down htop hx
    have hmapTop (hmem : x ∈ (tile.replay env tile.top).2) :
        x ∈ tile.mapTop ∧ x ∉ tile.mapDown :=
      mem_mapTop_of_unprocessed hvalid (List.suffix_refl _) hmem hxtop
    have hkeep (hmem : x ∉ (tile.replay env tile.top).2) :
        ((tile.replay env tile.top).2.filter fun y => y ∉ l) =
          (tile.replay env tile.top).2.filter fun y => y ∉ x :: l := by
      rw [hcons, ← erase_filter hnodup]
      exact (List.erase_of_not_mem fun hin => hmem (List.mem_filter.mp hin).1).symm
    rw [List.cons_append, replay]
    rcases put_cases hvalid hnames (l ++ tile.top) (tile.replay env (l ++ tile.top)) with
      ⟨-, hside, heq⟩ | ⟨-, -, hside, heq⟩ | ⟨-, htop, -, -⟩
    · rw [heq, hrest]
      exact hkeep fun hmem => (hmapTop hmem).2 (hside.mpr hx)
    · rw [heq, hrest]
      simp only
      split_ifs with hmap
      · rw [hcons, erase_filter hnodup]
      · exact hkeep fun hmem => hmap (isMapItem_iff.mpr (.inr (hmapTop hmem).1))
    · exact absurd htop hxtop

/-- Loading puts every item back to where it was. -/
theorem Ordered.replay_names (h : tile.Ordered env) (hvalid : tile.Valid env) :
    tile.replay env tile.names = (tile.down, tile.top) := by
  have hdown := h.replay_down hvalid
  have hplaced := placed_replay env hvalid (List.suffix_refl tile.names)
  have hlists := List.nodup_append.mp hplaced.nodup
  have htopNodup : tile.top.Nodup := (List.nodup_append.mp hvalid.nodup).2.1
  have hall (y : ι) : y ∈ (tile.replay env tile.names).1 ++ (tile.replay env tile.names).2 ↔
      y ∈ tile.names := by
    rw [hplaced.mem y]
    refine ⟨fun hy => hy.elim (hvalid.map_subset y) And.left, fun hy => ?_⟩
    cases hsaved : tile.isSaved env y with
    | true => exact .inr ⟨hy, rfl⟩
    | false => exact .inl (hvalid.isMapItem_of_unsaved hy hsaved)
  have hperm : (tile.replay env tile.names).2.Perm tile.top := by
    refine (List.perm_ext_iff_of_nodup hlists.2.1 htopNodup).mpr fun y => ⟨fun hy => ?_, fun hy => ?_⟩
    · rcases List.mem_append.mp ((hall y).mp (List.mem_append_right _ hy)) with hmem | hmem
      · rw [← hdown] at hmem
        exact absurd rfl (hlists.2.2 y hmem y hy)
      · exact hmem
    · rcases List.mem_append.mp ((hall y).mpr (List.mem_append_right _ hy)) with hmem | hmem
      · rw [hdown] at hmem
        exact absurd hmem (hvalid.not_mem_down hy)
      · exact hmem
  have hprecedes : (tile.replay env tile.names).2.Pairwise
      fun x y => tile.top.idxOf x < tile.top.idxOf y := by
    have hpair := (pairwise_replay_top h hvalid (List.suffix_refl tile.top)).2
    rw [names, replay_down_top hvalid (List.suffix_refl _)]
    refine (hpair.filter _).imp_of_mem fun {x y} hx hy hxy => ?_
    rw [← replay_down_top hvalid (List.suffix_refl _)] at hx hy
    exact hxy (hperm.subset hx) (hperm.subset hy)
  have htop : (tile.replay env tile.names).2 = tile.top :=
    hperm.eq_of_pairwise (fun x y _ _ hxy hyx => absurd hyx (Nat.lt_asymm hxy)) hprecedes
      (pairwise_idxOf htopNodup)
  exact Prod.ext hdown htop

end Top

end HouseTile

end Eloth
