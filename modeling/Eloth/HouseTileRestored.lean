import Eloth.HouseItemsRestored

/-!
# Loading a house tile

Between two entries of the stream, the tile carries the items of the lists of names: those that have
been loaded as they were read, the others as the map has them. One entry takes the tile from the
lists before it to the lists after it, when it finds the item it was saved from.
-/

namespace Eloth

open PropStream RowForest StoredItem IOMapSerialize

/-! ## Lists of distinct names -/

section Names

variable {α β : Type} [DecidableEq α] {l : List α} {x : α}

theorem findIdx?_of_find? {p : α → Bool} (h : l.find? p = some x) :
    l.findIdx? p = some (l.idxOf x) := by
  induction l with
  | nil => cases h
  | cons y l ih =>
    rw [List.find?_cons] at h
    rw [List.findIdx?_cons]
    cases hy : p y with
    | true =>
      rw [hy] at h
      simp [Option.some.inj h]
    | false =>
      rw [hy] at h
      have hne : y ≠ x := fun heq => by
        have hx := List.find?_some h
        rw [← heq, hy] at hx
        cases hx
      simp [ih h, List.idxOf_cons_ne _ hne]

/-- A change of one item of the list. -/
theorem map_set_idxOf {f g : α → β} (hnodup : l.Nodup) (h : ∀ y ∈ l, y ≠ x → f y = g y) :
    (l.map f).set (l.idxOf x) (g x) = l.map g := by
  induction l with
  | nil => rfl
  | cons y l ih =>
    have hy := List.nodup_cons.mp hnodup
    by_cases hxy : y = x
    · subst hxy
      have hrest : l.map f = l.map g := List.map_congr_left fun z hz =>
        h z (List.mem_cons_of_mem _ hz) fun heq => hy.1 (heq ▸ hz)
      simp [hrest]
    · have hrest := ih hy.2 fun z hz => h z (List.mem_cons_of_mem _ hz)
      rw [List.idxOf_cons_ne _ hxy, List.map_cons, List.set_cons_succ, hrest, h y (by simp) hxy,
        List.map_cons]

theorem map_eraseIdx_idxOf (f : α → β) :
    (l.map f).eraseIdx (l.idxOf x) = (l.erase x).map f := by
  rw [List.eraseIdx_map, ← List.erase_eq_eraseIdx_of_idxOf rfl]

end Names

/-! ## Changes of a tile at an index -/

namespace TileItems

variable {items : Items} {tile : TileItems} {index : Nat} {tree tree' : ItemTree}

theorem toList_set : (tile.set index tree).toList = tile.toList.set index tree := by
  unfold toList set
  rw [List.set_append]
  split_ifs with hle hlt hlt
  · omega
  · rw [List.set_eq_of_length_le (by omega)]
  · rfl
  · omega

theorem set_set : (tile.set index tree).set index tree' = tile.set index tree' := by
  unfold set
  simp only [List.set_set, List.length_set]
  split_ifs <;> simp

theorem removeThing_set : (tile.set index tree).removeThing index = tile.removeThing index := by
  unfold set removeThing
  simp only [List.eraseIdx_set_eq, List.length_set]
  split_ifs <;> simp [List.eraseIdx_set_eq]

theorem getElem?_set (h : index < tile.toList.length) :
    (tile.set index tree).toList[index]? = some tree := by
  rw [toList_set, List.getElem?_set_self h]

/-- An object that keeps its kind is turned where it lies, or goes to the other side. -/
theorem transformItem_set {newId : Nat} (h : index < tile.toList.length)
    (hturn : newId ≠ ItemTree.getID tree → (items.get newId).id ≠ 0 ∧
      (items.get (ItemTree.getID tree)).type = (items.get newId).type) :
    (tile.set index tree).transformItem items index newId =
      if (items.get (ItemTree.getID tree)).alwaysOnTop = (items.get newId).alwaysOnTop then
        tile.set index (ItemTree.of (HouseTile.turned items (ItemTree.item tree) newId) tree.children)
      else
        (tile.removeThing index).addThing items
          (ItemTree.of (HouseTile.turned items (ItemTree.item tree) newId) tree.children) := by
  unfold transformItem HouseTile.turned
  rw [getElem?_set h]
  simp only [ItemTree.getID] at hturn ⊢
  by_cases hid : (ItemTree.item tree).id = newId
  · rw [if_pos hid, if_pos hid, if_pos (by rw [hid]), of_item_children]
  · obtain ⟨hzero, htype⟩ := hturn (Ne.symm hid)
    rw [if_neg hid, if_neg hid, if_neg hzero]
    by_cases hside : (items.get (ItemTree.item tree).id).alwaysOnTop = (items.get newId).alwaysOnTop
    · rw [if_neg (not_not.mpr hside), if_neg (not_not.mpr hside), if_pos hside, if_pos htype, set_set]
    · rw [if_pos hside, if_pos hside, if_neg hside, removeThing_set]

end TileItems

/-! ## The tile between two entries -/

namespace HouseTile

variable {ι : Type} [DecidableEq ι] {env : HouseEnv} {Same : StoredItem → StoredItem → Prop}
  {tile : HouseTile ι} {loaded : ι → ItemTree} {x : ι} {l : List ι} {lists : List ι × List ι}

/-- What an item on the tile is when those of the list have been loaded. -/
def face (env : HouseEnv) (tile : HouseTile ι) (loaded : ι → ItemTree) (l : List ι) (x : ι) :
    ItemTree :=
  if x ∈ l ∧ tile.isSaved env x = true then loaded x else tile.mapTree x

def laid (env : HouseEnv) (tile : HouseTile ι) (loaded : ι → ItemTree) (l : List ι)
    (lists : List ι × List ι) : TileItems where
  down := lists.1.map (tile.face env loaded l)
  top := lists.2.map (tile.face env loaded l)

theorem face_of_ne {y : ι} (h : y ≠ x) :
    tile.face env loaded (x :: l) y = tile.face env loaded l y := by
  simp [face, h]

theorem face_self (h : tile.isSaved env x = true) : tile.face env loaded (x :: l) x = loaded x := by
  simp [face, h]

theorem face_of_not_mem (h : x ∉ l) : tile.face env loaded l x = tile.mapTree x := by
  simp [face, h]

theorem map_face_cons {names : List ι} (h : x ∉ names) :
    names.map (tile.face env loaded (x :: l)) = names.map (tile.face env loaded l) :=
  List.map_congr_left fun _ hy => face_of_ne fun heq => h (heq ▸ hy)

theorem toList_laid : (tile.laid env loaded l lists).toList =
    (lists.1 ++ lists.2).map (tile.face env loaded l) := by
  simp [laid, TileItems.toList]

theorem laid_nil : tile.laid env loaded [] (tile.mapDown, tile.mapTop) = tile.fresh := by
  simp [laid, fresh, face]

theorem laid_cons_of_unsaved (h : tile.isSaved env x = false) :
    tile.laid env loaded (x :: l) lists = tile.laid env loaded l lists := by
  have hface : tile.face env loaded (x :: l) = tile.face env loaded l := by
    funext y
    by_cases hy : y = x
    · simp [face, hy, h]
    · exact face_of_ne hy
  rw [laid, laid, hface]

section Index

variable (hnodup : (lists.1 ++ lists.2).Nodup)

include hnodup

/-- An item of the map is read onto the tile. -/
theorem set_laid (hsaved : tile.isSaved env x = true) :
    (tile.laid env loaded l lists).set ((lists.1 ++ lists.2).idxOf x) (loaded x) =
      tile.laid env loaded (x :: l) lists := by
  obtain ⟨hdown, htop, hdisjoint⟩ := List.nodup_append.mp hnodup
  have hset (names : List ι) (hnames : names.Nodup) :
      (names.map (tile.face env loaded l)).set (names.idxOf x) (loaded x) =
        names.map (tile.face env loaded (x :: l)) := by
    rw [← @face_self _ _ env tile loaded x l hsaved]
    exact map_set_idxOf hnames fun y _ hy => (face_of_ne hy).symm
  unfold laid TileItems.set
  by_cases hx : x ∈ lists.1
  · have hlt : lists.1.idxOf x < lists.1.length := List.idxOf_lt_length_of_mem hx
    have htop : x ∉ lists.2 := fun htop => hdisjoint x hx x htop rfl
    rw [List.idxOf_append_of_mem hx, if_neg (by simpa using hlt), hset _ hdown, map_face_cons htop]
  · rw [List.idxOf_append_of_notMem hx, if_pos (by simp), List.length_map, Nat.add_sub_cancel_left,
      hset _ htop, List.set_eq_of_length_le (by simp), map_face_cons hx]

/-- An item of the map is taken from its side. -/
theorem removeThing_laid :
    (tile.laid env loaded l lists).removeThing ((lists.1 ++ lists.2).idxOf x) =
      tile.laid env loaded l (lists.1.erase x, lists.2.erase x) := by
  have hdisjoint := (List.nodup_append.mp hnodup).2.2
  have hout (names : List ι) (n : Nat) :
      (names.map (tile.face env loaded l)).eraseIdx (names.length + n) =
        names.map (tile.face env loaded l) := List.eraseIdx_of_length_le (by simp)
  unfold laid TileItems.removeThing
  rw [← map_eraseIdx_idxOf, ← map_eraseIdx_idxOf]
  by_cases hx : x ∈ lists.1
  · have hlt : lists.1.idxOf x < lists.1.length := List.idxOf_lt_length_of_mem hx
    have htop : x ∉ lists.2 := fun htop => hdisjoint x hx x htop rfl
    rw [List.idxOf_append_of_mem hx, if_neg (by simpa using hlt), List.idxOf_of_notMem htop]
    exact congrArg _ (hout _ 0).symm
  · rw [List.idxOf_append_of_notMem hx, if_pos (by simp), List.length_map, Nat.add_sub_cancel_left,
      hout, List.idxOf_of_notMem hx]
    exact congrArg (TileItems.mk · _) (hout _ 0).symm

end Index

/-! ## What the objects that were loaded have kept -/

/-- The items that were saved are loaded as the same items again. -/
structure Loads (env : HouseEnv) (Same : StoredItem → StoredItem → Prop) (tile : HouseTile ι)
    (loaded : ι → ItemTree) : Prop where
  same : ∀ x ∈ tile.names, tile.isSaved env x = true → SameTree Same (tile.item x) (loaded x)
  id_lt : ∀ x ∈ tile.names, tile.isSaved env x = true → ItemTree.getID (tile.item x) < 2 ^ 16
  loadsAs : ∀ x ∈ tile.names, tile.isSaved env x = true → tile.LoadsAs env x (loaded x)

theorem Stores.exists_loads (h : tile.Stores env Same) : ∃ loaded, tile.Loads env Same loaded := by
  have hall (x : ι) : ∃ loaded, x ∈ tile.names → tile.isSaved env x = true →
      ItemTree.getID (tile.item x) < 2 ^ 16 ∧ SameTree Same (tile.item x) loaded ∧
        tile.LoadsAs env x loaded := by
    by_cases hx : x ∈ tile.names ∧ tile.isSaved env x = true
    · obtain ⟨hid, loaded, hloaded⟩ := exists_loadsAs h hx.1 hx.2
      exact ⟨loaded, fun _ _ => ⟨hid, hloaded⟩⟩
    · exact ⟨tile.item x, fun hnames hsaved => absurd ⟨hnames, hsaved⟩ hx⟩
  choose loaded hloaded using hall
  exact ⟨loaded, fun x hx hsaved => (hloaded x hx hsaved).2.1,
    fun x hx hsaved => (hloaded x hx hsaved).1, fun x hx hsaved => (hloaded x hx hsaved).2.2⟩

theorem sameTree_item {tree tree' : ItemTree} (h : SameTree Same tree tree') :
    Same (ItemTree.item tree) (ItemTree.item tree') := by
  cases tree <;> cases tree'
  · exact h
  · exact h.elim
  · exact h.elim
  · exact h.1

/-- What was loaded looks to the loader like what was saved. -/
theorem Loads.sameKind (h : tile.Loads env Same loaded) (hstores : tile.Stores env Same)
    (hl : l ⊆ tile.names) (x : ι) :
    SameKind (ItemTree.item (tile.now env l x)) (ItemTree.item (tile.face env loaded l x)) := by
  unfold now face
  split_ifs with hx
  · exact hstores.same_kind _ _ (sameTree_item (h.same x (hl hx.1) hx.2))
  · exact ⟨rfl, rfl, rfl⟩

theorem SameKind.typeOf {tree tree' : ItemTree}
    (h : SameKind (ItemTree.item tree) (ItemTree.item tree')) :
    HouseTile.typeOf env tree' = HouseTile.typeOf env tree := by
  rw [HouseTile.typeOf, HouseTile.typeOf, ItemTree.getID, ItemTree.getID, h.id]

theorem SameKind.isStationaryFor {tree tree' : ItemTree}
    (h : SameKind (ItemTree.item tree) (ItemTree.item tree')) (id : Nat) :
    IOMapSerialize.isStationaryFor env id tree' = IOMapSerialize.isStationaryFor env id tree := by
  have hid : ItemTree.getID tree' = ItemTree.getID tree := h.id
  rw [IOMapSerialize.isStationaryFor, IOMapSerialize.isStationaryFor, hid, h.door, h.bed]

/-! ## One entry -/

section Entry

variable (hvalid : tile.Valid env) (hstores : tile.Stores env Same)
  (hloads : tile.Loads env Same loaded) (hl : x :: l <:+ tile.names)
  (hplaced : Placed env tile l lists) (hsaved : tile.isSaved env x = true)

/-- A tile without an item of the house has room for it. -/
theorem Placed.length_lt (hplaced : Placed env tile l lists) (hvalid : tile.Valid env)
    (hl : l ⊆ tile.names) (hx : x ∈ tile.names) {names : List ι} (hnodup : (x :: names).Nodup)
    (hsubset : names ⊆ lists.1 ++ lists.2) : names.length < 0xFFFF := by
  have hnames : x :: names ⊆ tile.names := by
    refine List.cons_subset.mpr ⟨hx, fun y hy => ?_⟩
    exact ((hplaced.mem y).mp (hsubset hy)).elim (hvalid.map_subset y) fun hy => hl hy.1
  exact (hnodup.subperm hnames).length_le.trans hvalid.length_le

theorem readUInt_saveItem {tree : ItemTree} (hid : ItemTree.getID tree < 2 ^ 16)
    (rest : List UInt8) :
    (readUInt 2).run (saveItem env tree ++ rest) =
      (some (ItemTree.getID tree : Int), saveBody env tree ++ rest) := by
  rw [saveItem_eq, List.append_assoc, readUInt_writeInt 2 _ hid]

/-- An entry is read onto the item of the tile that it matches. -/
theorem loadItem_found {items : TileItems} {entry found tree : ItemTree} {index depth : Nat}
    {rest : List UInt8} (hid : ItemTree.getID entry < 2 ^ 16)
    (hstationary : ¬ ((env.items.get (ItemTree.getID entry)).moveable ||
      env.forceSerialize (ItemTree.getID entry)) = true)
    (hindex : items.toList.findIdx? (isStationaryFor env (ItemTree.getID entry)) = some index)
    (hfound : items.toList[index]? = some found)
    (hread : unserialize env (loadChild env depth) (ItemTree.item found) found.children
      (saveBody env entry ++ rest) = (.done, tree, rest)) :
    loadItem env depth (saveItem env entry ++ rest) items =
      (true, (items.set index tree).transformItem env.items index (ItemTree.getID entry), rest) := by
  rw [loadItem, readUInt_saveItem hid]
  simp only [Int.toNat_natCast]
  rw [if_neg hstationary, hindex]
  simp only [hfound, Option.getD_some, hread]

section Add

variable (hnew : x ∉ lists.1 ++ lists.2)

include hsaved hnew

theorem cons_laid : (⟨loaded x :: (tile.laid env loaded l lists).down,
      (tile.laid env loaded l lists).top⟩ : TileItems) =
    tile.laid env loaded (x :: l) (x :: lists.1, lists.2) := by
  rw [List.mem_append, not_or] at hnew
  simp only [laid, List.map_cons, face_self hsaved, map_face_cons hnew.1, map_face_cons hnew.2]

theorem insertTop_laid (later : ItemTree → Bool) :
    (⟨(tile.laid env loaded l lists).down,
      insertTop later (loaded x) (tile.laid env loaded l lists).top⟩ : TileItems) =
    tile.laid env loaded (x :: l)
      (lists.1, insertTop (fun y => later (tile.face env loaded l y)) x lists.2) := by
  rw [List.mem_append, not_or] at hnew
  have hne (y : ι) (hy : y ∈ lists.2) : y ≠ x := fun heq => hnew.2 (heq ▸ hy)
  have htop : (insertTop (fun y => later (tile.face env loaded l y)) x lists.2).map
      (tile.face env loaded (x :: l)) = insertTop later (tile.face env loaded (x :: l) x)
        (lists.2.map (tile.face env loaded (x :: l))) :=
    map_insertTop _ fun y hy => congrArg later (face_of_ne (hne y hy))
  rw [face_self hsaved, map_face_cons hnew.2] at htop
  simp only [laid, htop, map_face_cons hnew.1]

/-- `Tile::internalAddThing` for an item that is created. -/
theorem internalAddThing_laid {itemType : ItemType}
    (htype : typeOf env (loaded x) = itemType) (hground : itemType.isGroundTile = false)
    (hlength : (lists.1 ++ lists.2).length < 0xFFFF)
    (hface : ∀ y, typeOf env (tile.face env loaded l y) = typeOf env (tile.now env l y)) :
    (tile.laid env loaded l lists).internalAddThing env.items (loaded x) =
      tile.laid env loaded (x :: l)
        (if itemType.alwaysOnTop then
          (lists.1, insertTop (fun y => decide ((typeOf env (tile.now env l y)).alwaysOnTopOrder >
            itemType.alwaysOnTopOrder)) x lists.2)
        else (x :: lists.1, lists.2)) := by
  have hget : env.items.get (ItemTree.getID (loaded x)) = itemType := htype
  have hroom : ¬ (tile.laid env loaded l lists).toList.length ≥ 0xFFFF := by
    rw [toList_laid, List.length_map]
    omega
  unfold TileItems.internalAddThing
  rw [hget, if_neg (by simp [hground]), if_neg hroom]
  split_ifs
  · rw [insertTop_laid hsaved hnew]
    simp only [← hface]
    rfl
  · exact cons_laid hsaved hnew

/-- `Tile::addThing` for an item that changes sides. -/
theorem addThing_laid {itemType : ItemType} (htype : typeOf env (loaded x) = itemType)
    (hlength : (lists.1 ++ lists.2).length < 0xFFFF)
    (hface : ∀ y, typeOf env (tile.face env loaded l y) = typeOf env (tile.now env l y)) :
    (tile.laid env loaded l lists).addThing env.items (loaded x) =
      tile.laid env loaded (x :: l)
        (if itemType.alwaysOnTop then
          (lists.1, insertTop (fun y => decide (itemType.alwaysOnTopOrder ≤
            (typeOf env (tile.now env l y)).alwaysOnTopOrder)) x lists.2)
        else (x :: lists.1, lists.2)) := by
  have hget : env.items.get (ItemTree.getID (loaded x)) = itemType := htype
  have hroom : ¬ (tile.laid env loaded l lists).toList.length ≥ 0xFFFF := by
    rw [toList_laid, List.length_map]
    omega
  unfold TileItems.addThing
  rw [hget, if_neg hroom]
  split_ifs
  · rw [insertTop_laid hsaved hnew]
    simp only [← hface]
    rfl
  · exact cons_laid hsaved hnew

end Add

include hvalid hstores hloads hl hplaced hsaved

theorem loadItem_created (hmap : tile.isMapItem x = false) {depth : Nat}
    (hdepth : (tile.item x).size ≤ depth) (rest : List UInt8) :
    loadItem env depth (saveItem env (tile.item x) ++ rest) (tile.laid env loaded l lists) =
      (true, tile.laid env loaded (x :: l) (tile.put env x l lists), rest) := by
  have hx : x ∈ tile.names := hl.subset (by simp)
  have hlnames : l ⊆ tile.names := ((List.suffix_cons x l).trans hl).subset
  have hfresh : x ∉ l := (List.nodup_cons.mp (hvalid.nodup.sublist hl.sublist)).1
  have hnew := hplaced.not_mem hfresh hmap
  have hloadsAs := hloads.loadsAs x hx hsaved
  simp only [LoadsAs, hmap] at hloadsAs
  obtain ⟨onto, hcreate, hread⟩ := hloadsAs
  have hself : SameKind (ItemTree.item (tile.item x)) (ItemTree.item (loaded x)) :=
    hstores.same_kind _ _ (sameTree_item (hloads.same x hx hsaved))
  have hlength := hplaced.length_lt hvalid hlnames hx (List.nodup_cons.mpr ⟨hnew, hplaced.nodup⟩)
    (List.Subset.refl _)
  have hcreated : ((env.items.get (ItemTree.getID (tile.item x))).moveable ||
      env.forceSerialize (ItemTree.getID (tile.item x))) = true := hvalid.created x hx hmap
  rw [loadItem, readUInt_saveItem (hloads.id_lt x hx hsaved)]
  simp only [Int.toNat_natCast]
  rw [if_pos hcreated, hcreate]
  simp only [hread depth hdepth rest]
  rw [internalAddThing_laid hsaved hnew hself.typeOf (hvalid.no_ground x hx) hlength
    fun y => (hloads.sameKind hstores hlnames y).typeOf]
  simp [put, hsaved, hmap]

theorem put_filled (hmap : tile.isMapItem x = true) :
    (if (typeOf env (tile.mapTree x)).alwaysOnTop = (typeOf env (tile.item x)).alwaysOnTop then
        (tile.laid env loaded l lists).set ((lists.1 ++ lists.2).idxOf x) (loaded x)
      else
        ((tile.laid env loaded l lists).removeThing ((lists.1 ++ lists.2).idxOf x)).addThing
          env.items (loaded x)) =
      tile.laid env loaded (x :: l) (tile.put env x l lists) := by
  have hx : x ∈ tile.names := hl.subset (by simp)
  have hlnames : l ⊆ tile.names := ((List.suffix_cons x l).trans hl).subset
  have hfresh : x ∉ l := (List.nodup_cons.mp (hvalid.nodup.sublist hl.sublist)).1
  have hself : SameKind (ItemTree.item (tile.item x)) (ItemTree.item (loaded x)) :=
    hstores.same_kind _ _ (sameTree_item (hloads.same x hx hsaved))
  obtain ⟨hdown, htop, hdisjoint⟩ := List.nodup_append.mp hplaced.nodup
  by_cases hside : (typeOf env (tile.mapTree x)).alwaysOnTop = (typeOf env (tile.item x)).alwaysOnTop
  · rw [if_pos hside, set_laid hplaced.nodup hsaved]
    simp [put, hsaved, hmap, hside]
  · have hsublist : (lists.1.erase x ++ lists.2.erase x).Sublist (lists.1 ++ lists.2) :=
      List.erase_sublist.append List.erase_sublist
    have hnew : x ∉ lists.1.erase x ++ lists.2.erase x := by
      rw [List.mem_append, hdown.mem_erase_iff, htop.mem_erase_iff]
      simp
    have hlength := hplaced.length_lt hvalid hlnames hx
      (List.nodup_cons.mpr ⟨hnew, hplaced.nodup.sublist hsublist⟩) hsublist.subset
    rw [if_neg hside, removeThing_laid hplaced.nodup, addThing_laid hsaved hnew hself.typeOf hlength
      fun y => (hloads.sameKind hstores hlnames y).typeOf]
    congr 1
    cases htype : (typeOf env (tile.item x)).alwaysOnTop with
    | true =>
      have hmapSide : (typeOf env (tile.mapTree x)).alwaysOnTop = false := by
        simpa [htype] using hside
      have hleft := hplaced.mem_down hfresh ((hvalid.mem_mapDown_iff hmap).mpr hmapSide)
      have hright : x ∉ lists.2 := fun hright => hdisjoint x hleft x hright rfl
      simp [put, hsaved, hmap, htype, hmapSide, List.erase_of_not_mem hright]
    | false =>
      have hmapSide : (typeOf env (tile.mapTree x)).alwaysOnTop = true := by
        simpa [htype] using hside
      have hright :=
        hplaced.mem_top hvalid hfresh ((hvalid.mem_mapTop_iff hmap).mpr hmapSide)
      have hleft : x ∉ lists.1 := fun hleft => hdisjoint x hleft x hright rfl
      simp [put, hsaved, hmap, htype, hmapSide, List.erase_of_not_mem hleft]

theorem loadItem_filled (hmap : tile.isMapItem x = true) (hmatched : tile.Matched env)
    (hlists : lists = tile.replay env l) {depth : Nat} (hdepth : (tile.item x).size ≤ depth)
    (rest : List UInt8) :
    loadItem env depth (saveItem env (tile.item x) ++ rest) (tile.laid env loaded l lists) =
      (true, tile.laid env loaded (x :: l) (tile.put env x l lists), rest) := by
  have hx : x ∈ tile.names := hl.subset (by simp)
  have hlnames : l ⊆ tile.names := ((List.suffix_cons x l).trans hl).subset
  have hfresh : x ∉ l := (List.nodup_cons.mp (hvalid.nodup.sublist hl.sublist)).1
  have hmem : x ∈ lists.1 ++ lists.2 := (hplaced.mem x).mpr (.inl hmap)
  have hloadsAs := hloads.loadsAs x hx hsaved
  simp only [LoadsAs, hmap, if_true] at hloadsAs
  obtain ⟨tree, hid, hloaded, hread⟩ := hloadsAs
  have hself : SameKind (ItemTree.item (tile.item x)) (ItemTree.item (loaded x)) :=
    hstores.same_kind _ _ (sameTree_item (hloads.same x hx hsaved))
  -- the search of the loader
  have hindex : (tile.laid env loaded l lists).toList.findIdx?
      (isStationaryFor env (ItemTree.getID (tile.item x))) =
        some ((lists.1 ++ lists.2).idxOf x) := by
    rw [toList_laid, List.findIdx?_map]
    refine findIdx?_of_find? ?_
    rw [hlists, ← hmatched.first x l hl hsaved hmap]
    congr 1
    funext y
    exact (hloads.sameKind hstores hlnames y).isStationaryFor _
  have hlt := List.idxOf_lt_length_of_mem hmem
  have hfound : (tile.laid env loaded l lists).toList[(lists.1 ++ lists.2).idxOf x]? =
      some (tile.mapTree x) := by
    rw [toList_laid, List.getElem?_map, List.getElem?_eq_getElem hlt, List.getElem_idxOf hlt,
      Option.map_some, face_of_not_mem hfresh]
  have hstationary : ¬ ((env.items.get (ItemTree.getID (tile.item x))).moveable ||
      env.forceSerialize (ItemTree.getID (tile.item x))) = true := by
    have hmoveable : (env.items.get (ItemTree.getID (tile.item x))).moveable = false :=
      hvalid.stationary x hmap
    simp [hmoveable, hmatched.unforced x hmap]
  have hitem : ItemTree.item (tile.mapTree x) = tile.mapItem x := item_of _ _
  have hchildren : (tile.mapTree x).children = [] := by simp [mapTree, children_of]
  have hmapID : ItemTree.getID tree = ItemTree.getID (tile.mapTree x) := by
    rw [hid, ItemTree.getID, hitem]
  rw [loadItem_found (hloads.id_lt x hx hsaved) hstationary hindex hfound
    (by rw [hitem, hchildren, hread depth hdepth rest])]
  have hput := put_filled hvalid hstores hloads hl hplaced hsaved hmap
  rw [TileItems.transformItem_set (by rw [toList_laid, List.length_map]; exact hlt), ← hloaded,
    hmapID]
  · exact congrArg (fun tile => (true, tile, rest)) hput
  · intro hne
    rw [hmapID] at hne ⊢
    exact hstores.same_type x hmap hne

end Entry

/-! ## The whole stream -/

section Stream

variable (hvalid : tile.Valid env) (hstores : tile.Stores env Same)
  (hloads : tile.Loads env Same loaded) (hmatched : tile.Matched env)

include hvalid hstores hloads hmatched

/-- The entries of the last items of the tile take it from the map's to their own lists. -/
theorem loadItems_laid {depth : Nat}
    (hdepth : ∀ y ∈ tile.names, tile.isSaved env y = true → (tile.item y).size ≤ depth)
    {l : List ι} (hl : l <:+ tile.names) (n : Nat) (rest : List UInt8) :
    loadItems env depth ((l.filter (tile.isSaved env)).length + n)
        (saveReversed env ((l.filter (tile.isSaved env)).map tile.item) ++ rest) tile.fresh =
      loadItems env depth n rest (tile.laid env loaded l (tile.replay env l)) := by
  induction l generalizing n rest with
  | nil => simp [saveReversed, replay, laid_nil]
  | cons x l ih =>
    have hl' := (List.suffix_cons x l).trans hl
    have hx : x ∈ tile.names := hl.subset (by simp)
    have hplaced := placed_replay env hvalid hl'
    cases hsaved : tile.isSaved env x with
    | false =>
      have hput : tile.put env x l (tile.replay env l) = tile.replay env l := by simp [put, hsaved]
      rw [List.filter_cons_of_neg (by simp [hsaved]), ih hl', replay, hput,
        laid_cons_of_unsaved hsaved]
    | true =>
      have hentry : loadItem env depth (saveItem env (tile.item x) ++ rest)
          (tile.laid env loaded l (tile.replay env l)) =
            (true, tile.laid env loaded (x :: l) (tile.replay env (x :: l)), rest) := by
        cases hmap : tile.isMapItem x with
        | false =>
          exact loadItem_created hvalid hstores hloads hl hplaced hsaved hmap (hdepth x hx hsaved)
            rest
        | true =>
          exact loadItem_filled hvalid hstores hloads hl hplaced hsaved hmap hmatched rfl
            (hdepth x hx hsaved) rest
      rw [List.filter_cons_of_pos hsaved, List.map_cons, saveReversed, List.append_assoc,
        List.length_cons, Nat.add_assoc, Nat.add_comm 1 n, ih hl', loadItems]
      simp only [hentry]

end Stream

theorem size_le_sizeList {tree : ItemTree} {itemlist : List ItemTree} (h : tree ∈ itemlist) :
    tree.size ≤ Tree.sizeList itemlist := by
  induction itemlist with
  | nil => cases h
  | cons other itemlist ih =>
    rw [Tree.sizeList]
    rcases List.mem_cons.mp h with rfl | hmem
    · exact Nat.le_add_right _ _
    · exact (ih hmem).trans (Nat.le_add_left _ _)

omit [DecidableEq ι] in
theorem sameTrees_map {f g : ι → ItemTree} {names : List ι}
    (h : ∀ y ∈ names, SameTree Same (f y) (g y)) :
    SameTrees Same (names.map f) (names.map g) := by
  induction names with
  | nil => trivial
  | cons y names ih => exact ⟨h y (by simp), ih fun z hz => h z (List.mem_cons_of_mem _ hz)⟩

omit [DecidableEq ι] in
theorem filter_saved : tile.saved.toList.filter (IOMapSerialize.isSaved env) =
    (tile.names.filter (tile.isSaved env)).map tile.item := by
  rw [saved, TileItems.toList, ← List.map_append, List.filter_map]
  rfl

theorem loadTile_header {x y : UInt16} {z : UInt8} {n : Nat} (hn : n < 2 ^ 16)
    (entries : List UInt8) (fresh : TileItems) :
    let data := writeInt 2 x.toNat ++ writeInt 2 y.toNat ++ writeInt 1 z.toNat ++
      writeInt 4 (n % 2 ^ 16 : Nat) ++ entries
    loadTile env data fresh = (loadItems env data.length n entries fresh).1 := by
  have hx := readUInt_writeInt 2 x.toNat x.toNat_lt
  have hy := readUInt_writeInt 2 y.toNat y.toNat_lt
  have hz := readUInt_writeInt 1 z.toNat z.toNat_lt
  have hcount := readUInt_writeInt 4 n (by omega)
  simp only [Nat.mod_eq_of_lt hn, List.append_assoc, loadTile, hx, hy, hz, hcount,
    Int.toNat_natCast]

omit [DecidableEq ι] in
/-- What is written for a tile is read as its entries. -/
theorem loadTile_saveTile (hlength : tile.names.length ≤ 0xFFFF) (x y : UInt16) (z : UInt8)
    (fresh : TileItems) : ∃ depth,
      (∀ y ∈ tile.names, tile.isSaved env y = true → (tile.item y).size ≤ depth) ∧
      loadTile env (saveTile env x y z tile.saved) fresh =
        (loadItems env depth (tile.names.filter (tile.isSaved env)).length
          (saveReversed env ((tile.names.filter (tile.isSaved env)).map tile.item)) fresh).1 := by
  have hcount : (tile.names.filter (tile.isSaved env)).length < 2 ^ 16 :=
    (List.length_filter_le _ _).trans_lt (hlength.trans_lt (by decide))
  rw [saveTile, filter_saved]
  cases hempty : (tile.names.filter (tile.isSaved env)).isEmpty with
  | true =>
    have hnil := List.isEmpty_iff.mp hempty
    refine ⟨0, fun w hw hsaved => ?_, ?_⟩
    · have hmem := List.mem_filter.mpr ⟨hw, hsaved⟩
      rw [hnil] at hmem
      cases hmem
    · rw [hnil]
      rfl
  | false =>
    have hcons : ((tile.names.filter (tile.isSaved env)).map tile.item).isEmpty = false := by
      rw [List.isEmpty_map, hempty]
    rw [hcons, List.length_map]
    refine ⟨_, fun w hw hsaved => ?_, loadTile_header hcount _ fresh⟩
    have hmem : tile.item w ∈ (tile.names.filter (tile.isSaved env)).map tile.item :=
      List.mem_map_of_mem (List.mem_filter.mpr ⟨hw, hsaved⟩)
    rw [List.length_append]
    exact ((size_le_sizeList hmem).trans (sizeList_le_length _)).trans (Nat.le_add_left _ _)

end HouseTile

open HouseTile in
/-- When every stored item of the map is the first that its entry matches and the items of the map
lie behind those of the house, loading what was saved of a tile gives the tile again. -/
theorem HouseTile.restored_of_ordered {ι : Type} [DecidableEq ι] (env : HouseEnv)
    (Same : StoredItem → StoredItem → Prop) (tile : HouseTile ι) (hvalid : tile.Valid env)
    (hstores : tile.Stores env Same) (hordered : tile.Ordered env) (hmatched : tile.Matched env) :
    tile.Restored env Same := by
  obtain ⟨loaded, hloads⟩ := hstores.exists_loads
  intro x y z
  obtain ⟨depth, hdepth, hload⟩ := loadTile_saveTile hvalid.length_le x y z tile.fresh
  have hrun := loadItems_laid hvalid hstores hloads hmatched hdepth (List.suffix_refl _) 0 []
  rw [Nat.add_zero, List.append_nil, hordered.replay_names hvalid, loadItems] at hrun
  have hface (y : ι) (hy : y ∈ tile.names) :
      SameTree Same (tile.item y) (tile.face env loaded tile.names y) := by
    cases hsaved : tile.isSaved env y with
    | true => simpa [face, hy, hsaved] using hloads.same y hy hsaved
    | false => simpa [face, hsaved] using hstores.unsaved y hy hsaved
  rw [hload, hrun]
  exact ⟨sameTrees_map fun y hy => hface y (List.mem_append_left _ hy),
    sameTrees_map fun y hy => hface y (List.mem_append_right _ hy)⟩

namespace HouseTile

/-! ### A furnished tile -/

def furnishedEnv : HouseEnv where
  items := .ofEntries [
    { ItemType.default with id := 1987, group := .container, moveable := true },
    { ItemType.default with id := 1950, moveable := true },
    { ItemType.default with id := 1718, group := .container },
    { ItemType.default with id := 1219, type := .door },
    { ItemType.default with id := 1220, type := .door, alwaysOnTop := true, alwaysOnTopOrder := 3 }]
  addUniqueItem := fun _ => true
  getNameByGuid := fun _ => []
  forceSerialize := fun _ => false
  canWriteText := fun _ => false

def newItem (id : Nat) (cls : StoredClass) : StoredItem :=
  { id := id, count := 1, attributes := .empty, cls := cls }

def bagItem : StoredItem := newItem 1987 (.container 0)
def bookItem : StoredItem := newItem 1950 .item
def bookcaseItem : StoredItem := newItem 1718 (.container 0)
def doorItem : StoredItem := newItem 1219 .door
def openDoorItem : StoredItem := newItem 1220 .door

def bag (itemlist : List ItemTree) : ItemTree := .branch ⟨bagItem, rfl⟩ itemlist
def book : ItemTree := .leaf ⟨bookItem, rfl⟩
def openDoor : ItemTree := .leaf ⟨openDoorItem, rfl⟩
def bookcase (itemlist : List ItemTree) : ItemTree := .branch ⟨bookcaseItem, rfl⟩ itemlist

/-- A bag in front of the bookcase of the map, and a door of the map that has been opened. -/
def furnishedTile : HouseTile (Fin 3) where
  item
    | 0 => bag [bag [book], book]
    | 1 => bookcase [book]
    | 2 => openDoor
  mapItem
    | 0 => bagItem
    | 1 => bookcaseItem
    | 2 => doorItem
  down := [0, 1]
  top := [2]
  mapDown := [2, 1]
  mapTop := []

theorem reloads_new {item : StoredItem} (hid : item.id < 2 ^ 16)
    (hbytes : item.serializeAttr furnishedEnv.items = [])
    (hcreate : createItem furnishedEnv.items item.id 0 = some item)
    (hcls : item.isContainer = true → item.cls = .container 0) :
    Reloads furnishedEnv.toStreamEnv Eq item := by
  refine ⟨hid, item, item, hcreate, ⟨?_, rfl, rfl, hcls⟩, rfl⟩
  rw [hbytes]
  exact reads_nil

/-- The constructor of a type without charges and duration. -/
theorem construct_newItem {items : Items} {type : Nat} (hsub : (items.get type).hasSubType = false)
    (hdecay : (items.get type).decayTime = 0) (count : UInt16) (cls : StoredClass) :
    construct items type count cls = newItem type cls := by
  simp only [ItemType.hasSubType, Bool.or_eq_false_iff] at hsub
  simp_all [construct, newItem, getDefaultDuration]

theorem removeAttribute_empty (type : AttrType) :
    ItemAttributes.empty.removeAttribute type = .empty := by
  simp [ItemAttributes.removeAttribute, ItemAttributes.empty]

theorem setID_newItem {items : Items} {newid : Nat} (hdecay : (items.get newid).decayTime = 0)
    (id : Nat) (cls : StoredClass) : (newItem id cls).setID items newid = newItem newid cls := by
  simp [StoredItem.setID, newItem, StoredItem.removeAttribute, removeAttribute_empty, hdecay]

theorem reloads_bagItem : Reloads furnishedEnv.toStreamEnv Eq bagItem := by
  have hnew : createItem furnishedEnv.items 1987 0 =
      some (construct furnishedEnv.items 1987 0 (.container 0)) := rfl
  refine reloads_new (by decide) (by decide) ?_ fun _ => rfl
  rw [construct_newItem rfl rfl] at hnew
  exact hnew

theorem reloads_bookItem : Reloads furnishedEnv.toStreamEnv Eq bookItem := by
  have hnew : createItem furnishedEnv.items 1950 0 =
      some (construct furnishedEnv.items 1950 0 .item) := rfl
  refine reloads_new (by decide) (by decide) ?_ (by decide)
  rw [construct_newItem rfl rfl] at hnew
  exact hnew

theorem valid_furnishedTile : furnishedTile.Valid furnishedEnv where
  nodup := by decide
  map_nodup := by decide
  map_subset := by decide
  length_le := by decide
  down_side := by decide
  top_side := by decide
  mapDown_side := by decide
  mapTop_side := by decide
  mapTop_sorted := by decide
  created := by decide
  stationary := by decide
  unsaved := by decide
  no_ground := by decide

theorem readsOnto_self {item : StoredItem} (hbytes : item.serializeAttr furnishedEnv.items = [])
    (hcls : item.isContainer = true → item.cls = .container 0) :
    ReadsOnto furnishedEnv.toStreamEnv item item item := by
  refine ⟨?_, rfl, rfl, hcls⟩
  rw [hbytes]
  exact reads_nil

theorem storable_book : book.All (Storable furnishedEnv.toStreamEnv Eq) := by
  have hitem : ItemTree.item book = bookItem := by rw [book, ItemTree.item]
  have hself : Storable furnishedEnv.toStreamEnv Eq book := by
    rw [Storable, hitem, book, Tree.children]
    exact ⟨reloads_bookItem, Nat.two_pow_pos 32⟩
  exact hself

theorem storable_bag {itemlist : List ItemTree} (hlen : itemlist.length < 2 ^ 32)
    (h : Tree.AllList (Storable furnishedEnv.toStreamEnv Eq) itemlist) :
    (bag itemlist).All (Storable furnishedEnv.toStreamEnv Eq) := by
  have hitem : ItemTree.item (bag itemlist) = bagItem := by rw [bag, ItemTree.item]
  have hself : Storable furnishedEnv.toStreamEnv Eq (bag itemlist) := by
    rw [Storable, hitem, bag, Tree.children]
    exact ⟨reloads_bagItem, hlen⟩
  exact ⟨hself, h⟩

theorem isSaved_furnishedTile (x : Fin 3) : furnishedTile.isSaved furnishedEnv x = true := by
  revert x
  decide

theorem stores_furnishedTile : furnishedTile.Stores furnishedEnv Eq where
  same_kind src dst h := h ▸ ⟨rfl, rfl, rfl⟩
  created := by
    intro x _ hmap
    match x with
    | 0 =>
      have hinner : (bag [book]).All (Storable furnishedEnv.toStreamEnv Eq) :=
        storable_bag (by simp) ⟨storable_book, trivial⟩
      exact storable_bag (by simp) ⟨hinner, storable_book, trivial⟩
    | 1 => cases hmap
    | 2 => cases hmap
  filled := by
    rintro x hmap -
    match x with
    | 0 => cases hmap
    | 1 =>
      exact ⟨by decide, by simp [furnishedTile, bookcase, Tree.children], ⟨storable_book, trivial⟩,
        bookcaseItem, readsOnto_self (by decide) fun _ => rfl, rfl, rfl⟩
    | 2 =>
      have hturned : turned furnishedEnv.items doorItem (ItemTree.getID (furnishedTile.item 2)) =
          openDoorItem := by
        unfold turned
        rw [if_neg (by decide), if_pos (by decide)]
        exact setID_newItem rfl 1219 .door
      exact ⟨by decide, by decide, trivial, doorItem,
        ⟨fun _ => rfl, rfl, rfl, fun h => absurd h Bool.false_ne_true⟩, by rw [hturned]; rfl, hturned.symm⟩
  unsaved x _ hsaved := by simp [isSaved_furnishedTile] at hsaved
  same_type := by decide

theorem ordered_furnishedTile : furnishedTile.Ordered furnishedEnv where
  down := by decide
  top := by decide
  mapTop := by decide
  mapTop_order := by decide

theorem matched_furnishedTile : furnishedTile.Matched furnishedEnv where
  first := by
    intro x l hl
    have hcases : x :: l = [0, 1, 2] ∨ x :: l = [1, 2] ∨ x :: l = [2] := by
      simpa [names, furnishedTile, List.suffix_cons_iff] using hl
    rcases hcases with h | h | h <;> obtain ⟨rfl, rfl⟩ := List.cons.inj h <;> decide
  unforced := by decide

theorem restored_furnishedTile : furnishedTile.Restored furnishedEnv Eq :=
  restored_of_ordered furnishedEnv Eq furnishedTile valid_furnishedTile stores_furnishedTile
    ordered_furnishedTile matched_furnishedTile

/-! ### Two bookcases -/

/-- Two bookcases of the map, with something in both. -/
def twoBookcases : HouseTile Bool where
  item
    | false => bookcase [book]
    | true => bookcase [bag []]
  mapItem _ := bookcaseItem
  down := [false, true]
  top := []
  mapDown := [false, true]
  mapTop := []

theorem storable_contents (x : Bool) :
    Tree.AllList (Storable furnishedEnv.toStreamEnv Eq) (twoBookcases.item x).children := by
  cases x
  · exact ⟨storable_book, trivial⟩
  · exact ⟨storable_bag (Nat.two_pow_pos 32) trivial, trivial⟩

theorem valid_twoBookcases : twoBookcases.Valid furnishedEnv where
  nodup := by decide
  map_nodup := by decide
  map_subset := by decide
  length_le := by decide
  down_side := by decide
  top_side := by decide
  mapDown_side := by decide
  mapTop_side := by decide
  mapTop_sorted := by decide
  created := by decide
  stationary := by decide
  unsaved := by decide
  no_ground := by decide

theorem readsOnto_bookcaseItem :
    ReadsOnto furnishedEnv.toStreamEnv bookcaseItem bookcaseItem bookcaseItem :=
  readsOnto_self (by decide) fun _ => rfl

theorem turned_bookcaseItem : turned furnishedEnv.items bookcaseItem 1718 = bookcaseItem := rfl

theorem item_twoBookcases (x : Bool) : ItemTree.item (twoBookcases.item x) = bookcaseItem := by
  cases x <;> rfl

theorem getID_twoBookcases (x : Bool) : ItemTree.getID (twoBookcases.item x) = 1718 := by
  rw [ItemTree.getID, item_twoBookcases]
  rfl

theorem length_contents (x : Bool) : (twoBookcases.item x).children.length = 1 := by
  cases x <;> rfl

theorem stores_twoBookcases : twoBookcases.Stores furnishedEnv Eq where
  same_kind src dst h := h ▸ ⟨rfl, rfl, rfl⟩
  created x _ hmap := by cases x <;> cases hmap
  filled := by
    rintro x - -
    rw [getID_twoBookcases, item_twoBookcases, length_contents]
    exact ⟨by decide, Nat.one_lt_two_pow (by decide), storable_contents x, bookcaseItem,
      readsOnto_bookcaseItem, by rw [turned_bookcaseItem], turned_bookcaseItem.symm⟩
  unsaved x _ hsaved := by cases x <;> cases hsaved
  same_type := by decide

/-- Whatever was saved of a bookcase goes into the first one on the tile. -/
theorem loadItem_first {x : Bool} {depth : Nat} (hdepth : (twoBookcases.item x).size ≤ depth)
    (first second : List ItemTree) (rest : List UInt8) :
    ∃ itemlist, itemlist.length = 1 ∧
      loadItem furnishedEnv depth (saveItem furnishedEnv (twoBookcases.item x) ++ rest)
          ⟨[bookcase first, bookcase second], []⟩ =
        (true, ⟨[bookcase (itemlist ++ first), bookcase second], []⟩, rest) := by
  have hid := getID_twoBookcases x
  obtain ⟨loaded, hfst, -, hloads⟩ := exists_loadChildren _ (storable_contents x)
  rw [size_eq] at hdepth
  have hread : unserialize furnishedEnv (loadChild furnishedEnv depth)
      (ItemTree.item (bookcase first)) (bookcase first).children
      (saveBody furnishedEnv (twoBookcases.item x) ++ rest) =
        (.done, bookcase (loaded.map Prod.snd ++ first), rest) :=
    unserialize_saveBody (by rw [item_twoBookcases]; exact readsOnto_bookcaseItem) hfst
      (hloads depth (by omega)) (by rw [length_contents]; exact Nat.one_lt_two_pow (by decide))
      first rest
  have hfound : (⟨[bookcase first, bookcase second], []⟩ : TileItems).toList[0]? =
      some (bookcase first) := rfl
  have hlength : (loaded.map Prod.snd).length = 1 := by
    rw [List.length_map, ← length_contents x, ← hfst, List.length_map]
  refine ⟨loaded.map Prod.snd, hlength, ?_⟩
  rw [loadItem_found (by rw [hid]; decide) (by rw [hid]; decide) (by rw [hid]; rfl) hfound hread,
    hid]
  rfl

theorem sameTrees_length {itemlist itemlist' : List ItemTree}
    (h : SameTrees Same itemlist itemlist') : itemlist.length = itemlist'.length := by
  induction itemlist generalizing itemlist' with
  | nil =>
    cases itemlist' with
    | nil => rfl
    | cons tree' itemlist' => exact h.elim
  | cons tree itemlist ih =>
    cases itemlist' with
    | nil => exact h.elim
    | cons tree' itemlist' => rw [List.length_cons, List.length_cons, ih h.2]

theorem not_restored_twoBookcases : ¬ twoBookcases.Restored furnishedEnv Eq := by
  intro hrestored
  obtain ⟨depth, hdepth, hload⟩ :=
    @loadTile_saveTile Bool furnishedEnv twoBookcases (by decide) 0 0 0 twoBookcases.fresh
  have hfilter : twoBookcases.names.filter (twoBookcases.isSaved furnishedEnv) = [false, true] := by
    decide
  obtain ⟨second, hsecond, hlast⟩ := loadItem_first (hdepth true (by decide) (by decide)) [] []
    (saveItem furnishedEnv (twoBookcases.item false) ++ [])
  obtain ⟨first, hfirst, hnext⟩ := loadItem_first (hdepth false (by decide) (by decide))
    (second ++ []) [] []
  have hentries : saveReversed furnishedEnv ([false, true].map twoBookcases.item) =
      saveItem furnishedEnv (twoBookcases.item true) ++
        (saveItem furnishedEnv (twoBookcases.item false) ++ []) := by
    simp [saveReversed]
  have hfresh : twoBookcases.fresh = ⟨[bookcase [], bookcase []], []⟩ := rfl
  rw [hfilter, hentries, hfresh] at hload
  simp only [List.length_cons, List.length_nil, loadItems, hlast, hnext] at hload
  have hdown := (hrestored 0 0 0).1
  simp only [hfresh, hload] at hdown
  have hcontents : SameTrees Eq [book] (first ++ (second ++ [])) := hdown.1.2
  have hlength := sameTrees_length hcontents
  simp [hfirst, hsecond] at hlength

end HouseTile

/-- Loading does not always give the items of the tile again. -/
theorem HouseTile.exists_not_restored :
    ¬ ∀ (env : HouseEnv) (Same : StoredItem → StoredItem → Prop) (tile : HouseTile Bool),
      tile.Valid env → tile.Stores env Same → tile.Restored env Same :=
  fun h => not_restored_twoBookcases
    (h furnishedEnv Eq twoBookcases valid_twoBookcases stores_twoBookcases)

end Eloth
