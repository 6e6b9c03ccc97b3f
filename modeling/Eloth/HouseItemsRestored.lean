import Eloth.HouseTile
import Eloth.ItemRoundTrip

/-!
# House tiles come back

What is saved of one item is read back into an object of its kind, with everything that lies in it.
On the tile, the items that are created and those that change sides go to the front or to their
place among the top items, so the order depends on where the map has its own items.
-/

namespace Eloth

open PropStream RowForest StoredItem

namespace IOMapSerialize

/-! ## One item -/

/-- Trees of one shape with related items. -/
def SameTree (Same : StoredItem → StoredItem → Prop) : ItemTree → ItemTree → Prop :=
  Tree.Rel (fun src dst => Same src.1 dst.1) fun src dst => Same src.1 dst.1

def SameTrees (Same : StoredItem → StoredItem → Prop) : List ItemTree → List ItemTree → Prop :=
  Tree.RelList (fun src dst => Same src.1 dst.1) fun src dst => Same src.1 dst.1

/-- The attributes of an item, read onto an object, make it `dst`. A container must be a
`Container` itself, for the stream of a locker has no field for items. -/
structure ReadsOnto (env : StreamEnv) (onto src dst : StoredItem) : Prop where
  reads : Reads env onto (src.serializeAttr env.items) dst
  id : dst.id = onto.id
  isContainer : dst.isContainer = src.isContainer
  cls : src.isContainer = true → dst.cls = .container 0

/-- The item comes back on its own. -/
structure Reloads (env : StreamEnv) (Same : StoredItem → StoredItem → Prop) (src : StoredItem) :
    Prop where
  id_lt : src.id < 2 ^ 16
  back : ∃ onto dst, createItem env.items src.id 0 = some onto ∧ ReadsOnto env onto src dst ∧
    Same src dst

/-- The item comes back on its own, and the number of its items fits into the stream. -/
def Storable (env : StreamEnv) (Same : StoredItem → StoredItem → Prop) (tree : ItemTree) : Prop :=
  Reloads env Same (ItemTree.item tree) ∧ tree.children.length < 2 ^ 32

variable {env : HouseEnv} {Same : StoredItem → StoredItem → Prop}

theorem readUInt_writeInt (size n : Nat) (h : n < 256 ^ size) (rest : List UInt8) :
    (readUInt size).run (writeInt size n ++ rest) = (some (n : Int), rest) := by
  have hread := decodes_readUInt size n rest
  have hmod : (n : Int) % ((256 ^ size : Nat) : Int) = n := by
    rw [← Int.natCast_emod, Nat.mod_eq_of_lt h]
  rwa [hmod] at hread

theorem item_of (item : StoredItem) (itemlist : List ItemTree) :
    ItemTree.item (ItemTree.of item itemlist) = item := by
  unfold ItemTree.of
  split <;> rfl

theorem children_of (item : StoredItem) (itemlist : List ItemTree) :
    (ItemTree.of item itemlist).children = if item.isContainer = true then itemlist else [] := by
  unfold ItemTree.of
  split <;> simp_all [Tree.children]

theorem children_of_not_isContainer {tree : ItemTree}
    (h : (ItemTree.item tree).isContainer = false) : tree.children = [] := by
  cases tree with
  | leaf item => rfl
  | branch container itemlist => exact absurd container.2 (by simpa [ItemTree.item] using h)

theorem of_item_children (tree : ItemTree) :
    ItemTree.of (ItemTree.item tree) tree.children = tree := by
  unfold ItemTree.of
  cases tree with
  | leaf item => exact dif_neg (by simp [ItemTree.item, item.2])
  | branch container itemlist => exact dif_pos container.2

theorem unserialize_leaf {load : List UInt8 → Bool × Option ItemTree × List UInt8}
    {onto src dst : StoredItem} (h : ReadsOnto env.toStreamEnv onto src dst)
    (hsrc : src.isContainer = false) (itemlist : List ItemTree) (rest : List UInt8) :
    unserialize env load onto itemlist (src.serializeAttr env.items ++ [0] ++ rest) =
      (.done, ItemTree.of dst itemlist, rest) := by
  have hend : dst.unserializeAttr env.toStreamEnv ([0] ++ rest) = (true, dst, rest) := by
    rw [List.singleton_append, unserializeAttr, if_pos rfl]
  rw [unserialize, List.append_assoc, h.reads, hend]
  simp [h.isContainer, hsrc]

theorem unserializeAttr_containerItems {item : StoredItem} {m : UInt32}
    (h : item.cls = .container m) (n : Nat) (hn : n < 2 ^ 32) (rest : List UInt8) :
    item.unserializeAttr env.toStreamEnv
        (AttrCode.containerItems.byte :: (writeInt 4 n ++ rest)) =
      (true, { item with cls := .container (UInt32.ofNat n) }, rest) := by
  have hread := readUInt_writeInt 4 n hn rest
  have hattr : (item.readAttr env.toStreamEnv .containerItems).run (writeInt 4 n ++ rest) =
      ((.end, { item with cls := .container (UInt32.ofInt n) }), rest) := by
    unfold readAttr
    rw [h]
    simp only [Reader.map, Reader.bind, Reader.pure, hread]
  have hcast : UInt32.ofInt n = UInt32.ofNat n := by
    rw [UInt32.ofInt]
    congr 1
    omega
  rw [unserializeAttr, if_neg (AttrCode.byte_ne_zero _), AttrCode.ofByte_byte]
  simp only [hattr, hcast]

/-- The items of a container are read in the order in which they were saved, each to the front. -/
theorem loadContainer_saveReversed {load : List UInt8 → Bool × Option ItemTree × List UInt8}
    {loaded : List (ItemTree × ItemTree)}
    (h : ∀ pair ∈ loaded, ∀ rest, load (saveItem env pair.1 ++ rest) = (true, some pair.2, rest))
    (n : Nat) (itemlist : List ItemTree) (rest : List UInt8) :
    loadContainer load (loaded.length + n) itemlist
        (saveReversed env (loaded.map Prod.fst) ++ rest) =
      loadContainer load n (loaded.map Prod.snd ++ itemlist) rest := by
  induction loaded generalizing n itemlist rest with
  | nil => simp [saveReversed]
  | cons pair loaded ih =>
    have hrest := ih (fun pair hpair => h pair (List.mem_cons_of_mem _ hpair)) (n + 1) itemlist
      (saveItem env pair.1 ++ rest)
    rw [List.map_cons, saveReversed, List.append_assoc, List.length_cons, Nat.add_assoc,
      Nat.add_comm 1 n, hrest, loadContainer, h pair (by simp) rest]
    rfl

theorem unserialize_branch {load : List UInt8 → Bool × Option ItemTree × List UInt8}
    {onto src dst : StoredItem} (h : ReadsOnto env.toStreamEnv onto src dst)
    (hsrc : src.isContainer = true) {loaded : List (ItemTree × ItemTree)}
    (hload : ∀ pair ∈ loaded, ∀ rest,
      load (saveItem env pair.1 ++ rest) = (true, some pair.2, rest))
    (hlen : loaded.length < 2 ^ 32) (itemlist : List ItemTree) (rest : List UInt8) :
    unserialize env load onto itemlist
        (src.serializeAttr env.items ++ AttrCode.containerItems.byte ::
          (writeInt 4 loaded.length ++ (saveReversed env (loaded.map Prod.fst) ++ ([0] ++ rest)))) =
      (.done, ItemTree.of dst (loaded.map Prod.snd ++ itemlist), rest) := by
  have hcls := h.cls hsrc
  have hcount : (UInt32.ofNat loaded.length).toNat = loaded.length := by
    rw [UInt32.toNat_ofNat']
    exact Nat.mod_eq_of_lt hlen
  have hzero : (readUInt 1).run ([0] ++ rest) = (some 0, rest) :=
    readUInt_writeInt 1 0 (by decide) rest
  have hitems := loadContainer_saveReversed hload 0 itemlist ([0] ++ rest)
  rw [loadContainer, hzero, Nat.add_zero] at hitems
  rw [unserialize, h.reads, unserializeAttr_containerItems hcls _ hlen]
  simp only [isContainer, serializationCount, hcount, hitems, setSerializationCount, if_true]
  have hback : { dst with cls := .container (UInt32.ofNat 0) } = dst := by
    rw [show UInt32.ofNat 0 = 0 from rfl, ← hcls]
  rw [hback]

/-- What is saved of an item after its id. -/
def saveBody (env : HouseEnv) : ItemTree → List UInt8
  | .leaf item => item.1.serializeAttr env.items ++ [0]
  | .branch container itemlist =>
    container.1.serializeAttr env.items ++ AttrCode.containerItems.byte ::
      (writeInt 4 itemlist.length ++ (saveReversed env itemlist ++ [0]))

theorem saveItem_eq (tree : ItemTree) :
    saveItem env tree = writeInt 2 (ItemTree.getID tree) ++ saveBody env tree := by
  cases tree <;> simp [saveItem, saveBody, ItemTree.getID, ItemTree.item]

/-- Reading what was saved of a tree onto an object, when its items are loaded. -/
theorem unserialize_saveBody {load : List UInt8 → Bool × Option ItemTree × List UInt8}
    {onto dst : StoredItem} {tree : ItemTree}
    (h : ReadsOnto env.toStreamEnv onto (ItemTree.item tree) dst)
    {loaded : List (ItemTree × ItemTree)} (hfst : loaded.map Prod.fst = tree.children)
    (hload : ∀ pair ∈ loaded, ∀ rest,
      load (saveItem env pair.1 ++ rest) = (true, some pair.2, rest))
    (hlen : tree.children.length < 2 ^ 32) (itemlist : List ItemTree) (rest : List UInt8) :
    unserialize env load onto itemlist (saveBody env tree ++ rest) =
      (.done, ItemTree.of dst (loaded.map Prod.snd ++ itemlist), rest) := by
  cases tree with
  | leaf src =>
    have hnil : loaded = [] := List.map_eq_nil_iff.mp hfst
    subst hnil
    exact unserialize_leaf h src.2 itemlist rest
  | branch src children =>
    have hfst' : loaded.map Prod.fst = children := hfst
    subst hfst'
    have hlen' : loaded.length < 2 ^ 32 := by simpa [Tree.children] using hlen
    have hread := unserialize_branch h src.2 hload hlen' itemlist rest
    simpa [saveBody, ItemTree.item] using hread

/-- An object with the items of a tree is the same tree again. -/
theorem sameTree_of {tree : ItemTree} {dst : StoredItem}
    (hkind : dst.isContainer = (ItemTree.item tree).isContainer)
    (h : Same (ItemTree.item tree) dst) {itemlist : List ItemTree}
    (hlist : SameTrees Same tree.children itemlist) :
    SameTree Same tree (ItemTree.of dst itemlist) := by
  unfold ItemTree.of
  cases tree with
  | leaf src =>
    rw [dif_neg (by rw [hkind]; simp [ItemTree.item, src.2])]
    exact h
  | branch src children =>
    rw [dif_pos (hkind.trans src.2)]
    exact ⟨h, hlist⟩

/-! ## Containers in containers -/

theorem loadChild_of_unserialize {depth id : Nat} (hid : id < 2 ^ 16) {onto : StoredItem}
    (hcreate : createItem env.items id 0 = some onto) {body rest : List UInt8} {tree : ItemTree}
    (h : unserialize env (loadChild env depth) onto [] (body ++ rest) = (.done, tree, rest)) :
    loadChild env (depth + 1) (writeInt 2 id ++ body ++ rest) = (true, some tree, rest) := by
  rw [loadChild, List.append_assoc, readUInt_writeInt 2 id hid]
  simp only [Int.toNat_natCast, hcreate, h]

theorem size_eq (tree : ItemTree) : tree.size = 1 + Tree.sizeList tree.children := by
  cases tree <;> rfl

theorem allList_children {P : ItemTree → Prop} {tree : ItemTree} (h : tree.All P) :
    Tree.AllList P tree.children := h.children

mutual

/-- What was saved of an item is loaded as the same item again, if containers may lie in each
other deep enough. -/
theorem exists_loadChild (t : ItemTree) (h : t.All (Storable env.toStreamEnv Same)) :
    ∃ t', SameTree Same t t' ∧ ∀ depth, t.size ≤ depth → ∀ rest,
      loadChild env depth (saveItem env t ++ rest) = (true, some t', rest) := by
  obtain ⟨⟨hid, onto, dst, hcreate, honto, hsame⟩, hlen⟩ := h.self
  obtain ⟨loaded, hfst, hsames, hloads⟩ : ∃ loaded : List (ItemTree × ItemTree),
      loaded.map Prod.fst = t.children ∧ SameTrees Same t.children (loaded.map Prod.snd) ∧
        ∀ depth, Tree.sizeList t.children ≤ depth → ∀ pair ∈ loaded, ∀ rest,
          loadChild env depth (saveItem env pair.1 ++ rest) = (true, some pair.2, rest) := by
    match t with
    | .leaf _ => exact ⟨[], rfl, trivial, by simp⟩
    | .branch _ l => exact exists_loadChildren l h.2
  refine ⟨ItemTree.of dst (loaded.map Prod.snd ++ []),
    sameTree_of honto.isContainer hsame (by rwa [List.append_nil]), ?_⟩
  intro depth hdepth rest
  rw [size_eq] at hdepth
  obtain ⟨depth, rfl⟩ : ∃ k, depth = k + 1 := ⟨depth - 1, by omega⟩
  rw [saveItem_eq]
  exact loadChild_of_unserialize hid hcreate
    (unserialize_saveBody honto hfst (hloads depth (by omega)) hlen [] rest)

theorem exists_loadChildren (l : List ItemTree)
    (h : Tree.AllList (Storable env.toStreamEnv Same) l) :
    ∃ loaded : List (ItemTree × ItemTree), loaded.map Prod.fst = l ∧
      SameTrees Same l (loaded.map Prod.snd) ∧ ∀ depth, Tree.sizeList l ≤ depth →
        ∀ pair ∈ loaded, ∀ rest,
          loadChild env depth (saveItem env pair.1 ++ rest) = (true, some pair.2, rest) := by
  match l with
  | [] => exact ⟨[], rfl, trivial, by simp⟩
  | t :: ts =>
    obtain ⟨t', hsame, hload⟩ := exists_loadChild t h.1
    obtain ⟨loaded, hfst, hsames, hloads⟩ := exists_loadChildren ts h.2
    refine ⟨(t, t') :: loaded, by rw [List.map_cons, hfst], ⟨hsame, hsames⟩, ?_⟩
    intro depth hdepth pair hpair
    have hsize : t.size + Tree.sizeList ts ≤ depth := hdepth
    rcases List.mem_cons.mp hpair with rfl | hpair
    · exact hload depth (by omega)
    · exact hloads depth (by omega) pair hpair

end

mutual

theorem size_le_length (t : ItemTree) : t.size ≤ (saveItem env t).length := by
  have hid : (writeInt 2 (ItemTree.getID t)).length = 2 := LittleEndian.length_bytes _ _
  match t with
  | .leaf _ =>
    simp only [saveItem, Tree.size, List.length_append, List.length_singleton]
    omega
  | .branch _ l =>
    have hlist := sizeList_le_length l
    simp only [saveItem, Tree.size, List.length_append, List.length_cons, List.length_nil]
    omega

theorem sizeList_le_length (l : List ItemTree) :
    Tree.sizeList l ≤ (saveReversed env l).length := by
  match l with
  | [] => exact Nat.zero_le _
  | t :: ts =>
    have ht := size_le_length t
    have hts := sizeList_le_length ts
    simp only [saveReversed, Tree.sizeList, List.length_append]
    omega

end

end IOMapSerialize

/-! ## One item of a tile -/

namespace HouseTile

open IOMapSerialize

/-- What `transformItem` leaves of an item that keeps its kind. -/
def turned (items : Items) (item : StoredItem) (newId : Nat) : StoredItem :=
  let newType := items.get newId
  let curType := items.get item.id
  if item.id = newId then item
  else if curType.alwaysOnTop ≠ newType.alwaysOnTop then item.setID items newId
  else
    let count := item.getSubType items
    let item := if newType.group ≠ curType.group then item.setDefaultSubtype items else item
    (item.setID items newId).setSubType items count

/-- What the search for a stationary item and the order of top items look at. -/
structure SameKind (src dst : StoredItem) : Prop where
  id : dst.id = src.id
  door : dst.isDoorObject = src.isDoorObject
  bed : dst.isBedObject = src.isBedObject

variable {ι : Type} [DecidableEq ι]

/-- The attributes of every item come back, read onto a new object or onto that of the map. -/
structure Stores (env : HouseEnv) (Same : StoredItem → StoredItem → Prop) (tile : HouseTile ι) :
    Prop where
  same_kind : ∀ src dst, Same src dst → SameKind src dst
  created : ∀ x ∈ tile.names, tile.isMapItem x = false →
    (tile.item x).All (Storable env.toStreamEnv Same)
  filled : ∀ x, tile.isMapItem x = true → tile.isSaved env x = true →
    ItemTree.getID (tile.item x) < 2 ^ 16 ∧ (tile.item x).children.length < 2 ^ 32 ∧
      Tree.AllList (Storable env.toStreamEnv Same) (tile.item x).children ∧
      ∃ dst, ReadsOnto env.toStreamEnv (tile.mapItem x) (ItemTree.item (tile.item x)) dst ∧
        (turned env.items dst (ItemTree.getID (tile.item x))).isContainer = dst.isContainer ∧
        Same (ItemTree.item (tile.item x)) (turned env.items dst (ItemTree.getID (tile.item x)))
  unsaved : ∀ x ∈ tile.names, tile.isSaved env x = false →
    SameTree Same (tile.item x) (tile.mapTree x)
  /-- The map's items only turn into types of their kind. -/
  same_type : ∀ x, tile.isMapItem x = true →
    ItemTree.getID (tile.item x) ≠ ItemTree.getID (tile.mapTree x) →
      (typeOf env (tile.item x)).id ≠ 0 ∧
        (typeOf env (tile.mapTree x)).type = (typeOf env (tile.item x)).type

/-- Loading finds for every item of the map the one it was saved from: the first on the tile, as
loaded so far, with the id, or the first door or bed when it is a door or bed. -/
structure Matched (env : HouseEnv) (tile : HouseTile ι) : Prop where
  first : ∀ x l, x :: l <:+ tile.names → tile.isSaved env x = true → tile.isMapItem x = true →
    ((tile.replay env l).1 ++ (tile.replay env l).2).find?
      (fun y => isStationaryFor env (ItemTree.getID (tile.item x)) (tile.now env l y)) = some x
  unforced : ∀ x, tile.isMapItem x = true →
    env.forceSerialize (ItemTree.getID (tile.item x)) = false

/-- Loading what was saved onto the tile of the map gives the saved tile. -/
def Restored (env : HouseEnv) (Same : StoredItem → StoredItem → Prop) (tile : HouseTile ι) : Prop :=
  ∀ x y z, let loaded := loadTile env (saveTile env x y z tile.saved) tile.fresh
    SameTrees Same tile.saved.down loaded.down ∧ SameTrees Same tile.saved.top loaded.top

/-- What loading makes of an item, for containers in containers up to its size. -/
def LoadsAs (env : HouseEnv) (tile : HouseTile ι) (x : ι) (loaded : ItemTree) : Prop :=
  if tile.isMapItem x = true then
    ∃ tree, ItemTree.getID tree = (tile.mapItem x).id ∧
      loaded = ItemTree.of (turned env.items (ItemTree.item tree) (ItemTree.getID (tile.item x)))
        tree.children ∧
      ∀ depth, (tile.item x).size ≤ depth → ∀ rest,
        unserialize env (loadChild env depth) (tile.mapItem x) []
          (saveBody env (tile.item x) ++ rest) = (.done, tree, rest)
  else
    ∃ onto, createItem env.items (ItemTree.getID (tile.item x)) 0 = some onto ∧
      ∀ depth, (tile.item x).size ≤ depth → ∀ rest,
        unserialize env (loadChild env depth) onto [] (saveBody env (tile.item x) ++ rest) =
          (.done, loaded, rest)

variable {env : HouseEnv} {Same : StoredItem → StoredItem → Prop} {tile : HouseTile ι}

theorem exists_loadsAs (h : tile.Stores env Same) {x : ι} (hx : x ∈ tile.names)
    (hsaved : tile.isSaved env x = true) :
    ItemTree.getID (tile.item x) < 2 ^ 16 ∧
      ∃ loaded, SameTree Same (tile.item x) loaded ∧ tile.LoadsAs env x loaded := by
  unfold LoadsAs
  cases hmap : tile.isMapItem x with
  | false =>
    have hall := h.created x hx hmap
    obtain ⟨⟨hid, onto, dst, hcreate, honto, hsame⟩, hlen⟩ := hall.self
    obtain ⟨loaded, hfst, hsames, hloads⟩ := exists_loadChildren _ (allList_children hall)
    refine ⟨hid, ItemTree.of dst (loaded.map Prod.snd ++ []),
      sameTree_of honto.isContainer hsame (by rwa [List.append_nil]), onto, hcreate, ?_⟩
    intro depth hdepth rest
    rw [size_eq] at hdepth
    exact unserialize_saveBody honto hfst (hloads depth (by omega)) hlen [] rest
  | true =>
    obtain ⟨hid, hlen, hall, dst, honto, hkind, hsame⟩ := h.filled x hmap hsaved
    obtain ⟨loaded, hfst, hsames, hloads⟩ := exists_loadChildren _ hall
    have hitem := item_of dst (loaded.map Prod.snd ++ [])
    have hchildren : (ItemTree.of dst (loaded.map Prod.snd ++ [])).children = loaded.map Prod.snd := by
      rw [children_of, List.append_nil]
      split_ifs with hcontainer
      · rfl
      · have hnil := children_of_not_isContainer
          (honto.isContainer.symm.trans (by simpa using hcontainer))
        rw [← hfst, List.map_eq_nil_iff] at hnil
        rw [hnil, List.map_nil]
    refine ⟨hid, ItemTree.of (turned env.items dst (ItemTree.getID (tile.item x)))
        (loaded.map Prod.snd), sameTree_of (hkind.trans honto.isContainer) hsame hsames,
      ItemTree.of dst (loaded.map Prod.snd ++ []), ?_, by rw [hitem, hchildren], ?_⟩
    · rw [ItemTree.getID, hitem, honto.id]
    · intro depth hdepth rest
      rw [size_eq] at hdepth
      exact unserialize_saveBody honto hfst (hloads depth (by omega)) hlen [] rest

end HouseTile

end Eloth
