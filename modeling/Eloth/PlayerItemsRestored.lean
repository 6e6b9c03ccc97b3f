import Eloth.PlayerItems
import Eloth.Sample

/-!
# The items of a player come back

The rows of one table give back its forest: the map lists the objects in the order of the rows, the
loop over it backwards collects the children of every container in their order, and the parents
that are no container are the slots and depots.
-/

namespace Eloth

open RowForest

/-- What an item is when its row is read again. -/
def StoredItem.reload (env : StreamEnv) (item : StoredItem) : Option StoredItem :=
  ItemHeap.loadItem env (PlayerItems.itemRow env.items 0 0 item)

/-- The item comes back as an object of the same kind that `Same` relates to it. -/
def StoredItem.Reloads (env : StreamEnv) (Same : StoredItem → StoredItem → Prop)
    (item : StoredItem) : Prop :=
  ∃ item', item.reload env = some item' ∧ item'.isContainer = item.isContainer ∧ Same item item'

namespace ItemTree

theorem isContainer_item (tree : ItemTree) :
    tree.item.isContainer = false ∧ tree.children = [] ∨ tree.item.isContainer = true := by
  cases tree with
  | leaf item => exact .inl ⟨item.2, rfl⟩
  | branch container l => exact .inr container.2

end ItemTree

namespace ItemHeap

/-- The object with this number is the item of the tree, read again. -/
def HoldsItem (heap : ItemHeap) (Same : StoredItem → StoredItem → Prop) (sid : Nat)
    (tree : ItemTree) : Prop :=
  ∃ item' pid, heap.itemMap[sid]? = some (item', pid) ∧
    item'.isContainer = tree.item.isContainer ∧ Same tree.item item'

/-- The objects and all that lies in them are the trees. -/
def HoldsTrees (heap : ItemHeap) (Same : StoredItem → StoredItem → Prop) (sids : List Nat)
    (trees : List ItemTree) : Prop :=
  HoldsList (heap.HoldsItem Same) heap.itemlist sids trees

/-- The objects met on the way through the trees. -/
def walkTrees (heap : ItemHeap) (sids : List Nat) (trees : List ItemTree) : List Nat :=
  walkList heap.itemlist sids trees

/-! ## The map -/

section Map

abbrev TreeRow :=
  Row { item : StoredItem // item.isContainer = false }
    { item : StoredItem // item.isContainer = true }

variable {env : StreamEnv} {Same : StoredItem → StoredItem → Prop}

def loadedEntry (env : StreamEnv) (row : ItemRow) : Option (Nat × StoredItem × Nat) :=
  (loadItem env row).map fun item => (row.sid, item, row.pid)

theorem loadItems_eq_assign (result : List ItemRow) :
    loadItems env result = TreeMaps.assign ∅ (result.filterMap (loadedEntry env)) := by
  unfold loadItems TreeMaps.assign
  rw [List.foldl_filterMap]
  congr 1
  funext itemMap row
  unfold loadedEntry
  cases loadItem env row <;> rfl

/-- The entry of a row whose item comes back. -/
def entryOf (env : StreamEnv) (row : TreeRow) : Nat × StoredItem × Nat :=
  (row.sid, ((ItemTree.item row.tree).reload env).getD (ItemTree.item row.tree), row.pid)

theorem loadedEntries_eq {written : List TreeRow}
    (h : ∀ row ∈ written, (ItemTree.item row.tree).Reloads env Same) :
    (written.map fun row => PlayerItems.itemRow env.items row.pid row.sid
      (ItemTree.item row.tree)).filterMap (loadedEntry env) = written.map (entryOf env) := by
  rw [List.filterMap_map, ← List.filterMap_eq_map]
  refine List.filterMap_congr fun row hrow => ?_
  obtain ⟨item', hitem, -⟩ := h row hrow
  have hload : loadItem env (PlayerItems.itemRow env.items row.pid row.sid
      (ItemTree.item row.tree)) = some item' := hitem
  simp only [Function.comp_apply, loadedEntry, entryOf, hload, hitem, Option.map_some,
    Option.getD_some]
  rfl

variable {groups : List (List ItemTree × Nat)} {result : List ItemRow}

/-- Every item of the forest comes back on its own. -/
def AllReload (env : StreamEnv) (Same : StoredItem → StoredItem → Prop)
    (groups : List (List ItemTree × Nat)) : Prop :=
  ∀ group ∈ groups, Tree.AllList (fun tree => (ItemTree.item tree).Reloads env Same) group.1

theorem toList_loadItems (hrooted : Rooted 101 groups) (hall : AllReload env Same groups)
    (hresult : result.Perm (PlayerItems.itemRows env.items (rootEntries groups))) :
    (loadItems env result).toList = (rows 101 (rootEntries groups)).map (entryOf env) := by
  have hentries := @loadedEntries_eq env Same (rows 101 (rootEntries groups))
    fun row hrow => (all_of_mem_rows hall hrow).self
  rw [loadItems_eq_assign]
  refine TreeMaps.toList_assign_empty (hentries ▸ hresult.filterMap _) ?_
  rw [List.map_map]
  have hsids : (fun row : TreeRow => row.sid) = Prod.fst ∘ entryOf env := rfl
  rw [← hsids, hrooted.sids]
  exact List.pairwise_lt_range'

end Map

/-! ## The loop -/

section Rebuild

variable {ρ : Type} (isRoot : Nat → Bool) (addRoot : Nat → Nat → ρ → ρ)

/-- An item whose `pid` is this number goes into a container. -/
def isParent (itemMap : ItemMap) (pid : Nat) : Bool :=
  !isRoot pid && (itemMap[pid]?).any fun parent => parent.1.isContainer

variable {isRoot addRoot} {itemMap : ItemMap} {state : ρ × ItemHeap}

variable (isRoot addRoot) in
theorem place_spec (hmap : state.2.itemMap = itemMap) (entry : Nat × StoredItem × Nat) :
    let state' := place isRoot addRoot state entry
    state'.2.itemMap = itemMap ∧
      state'.1 = (if isRoot entry.2.2 then addRoot entry.2.2 entry.1 state.1 else state.1) ∧
      ∀ pid, state'.2.itemlist pid =
        if entry.2.2 = pid ∧ isParent isRoot itemMap pid then entry.1 :: state.2.itemlist pid
        else state.2.itemlist pid := by
  obtain ⟨roots, heap⟩ := state
  obtain ⟨sid, item, parent⟩ := entry
  subst hmap
  cases hroot : isRoot parent with
  | true =>
    refine ⟨by simp [place, hroot], by simp [place, hroot], fun pid => ?_⟩
    rw [if_neg (by rintro ⟨rfl, h⟩; simp [isParent, hroot] at h)]
    simp [place, hroot]
  | false =>
    cases hparent : isParent isRoot heap.itemMap parent with
    | false =>
      have hstay : place isRoot addRoot (roots, heap) (sid, item, parent) = (roots, heap) := by
        simp only [isParent, hroot, Bool.not_false, Bool.true_and] at hparent
        cases hfind : heap.itemMap[parent]? with
        | none => simp [place, hroot, hfind]
        | some found =>
          rw [hfind, Option.any_some] at hparent
          simp [place, hroot, hfind, hparent]
      rw [hstay]
      refine ⟨rfl, by simp, fun pid => ?_⟩
      rw [if_neg (by rintro ⟨rfl, h⟩; simp [hparent] at h)]
    | true =>
      have hgo : place isRoot addRoot (roots, heap) (sid, item, parent) =
          (roots, heap.internalAddThing parent sid) := by
        simp only [isParent, hroot, Bool.not_false, Bool.true_and, Option.any_eq_true] at hparent
        obtain ⟨found, hfind, hcontainer⟩ := hparent
        simp [place, hroot, hfind, hcontainer]
      rw [hgo]
      refine ⟨rfl, by simp, fun pid => ?_⟩
      by_cases hpid : parent = pid
      · subst hpid
        simp [internalAddThing, hparent]
      · simp [internalAddThing, hpid, Function.update_of_ne (Ne.symm hpid)]

/-- The entries are pushed to the front from the last to the first. -/
theorem place_entries (roots : ρ) (entries : List (Nat × StoredItem × Nat)) :
    let state := entries.reverse.foldl (place isRoot addRoot) (roots, ⟨itemMap, fun _ => []⟩)
    state.2.itemMap = itemMap ∧
      state.1 = (entries.filter fun entry => isRoot entry.2.2).foldr
        (fun entry => addRoot entry.2.2 entry.1) roots ∧
      ∀ pid, state.2.itemlist pid =
        if isParent isRoot itemMap pid then
          (entries.filter fun entry => entry.2.2 = pid).map (·.1)
        else [] := by
  rw [List.foldl_reverse]
  induction entries with
  | nil => simp
  | cons entry entries ih =>
    obtain ⟨hmap, hroots, hlist⟩ := ih
    obtain ⟨hmap', hroots', hlist'⟩ := place_spec isRoot addRoot hmap entry
    refine ⟨hmap', ?_, fun pid => ?_⟩
    · rw [List.foldr_cons, hroots', hroots]
      cases hroot : isRoot entry.2.2 <;> simp [hroot]
    · rw [List.foldr_cons, hlist', hlist]
      cases hparent : isParent isRoot itemMap pid with
      | false => simp
      | true => by_cases hpid : entry.2.2 = pid <;> simp [hpid]

end Rebuild

/-! ## One table -/

section Table

variable {env : StreamEnv} {Same : StoredItem → StoredItem → Prop} {ρ : Type}
  {isRoot : Nat → Bool} {addRoot : Nat → Nat → ρ → ρ} {groups : List (List ItemTree × Nat)}
  {result : List ItemRow}

/-- The numbers of the rows that the groups write at a slot or depot. -/
def rootSids (groups : List (List ItemTree × Nat)) (pid : Nat) : List Nat :=
  childrenOf (rows 101 (rootEntries groups)) pid

theorem getElem?_loadItems (hrooted : Rooted 101 groups) (hall : AllReload env Same groups)
    (hresult : result.Perm (PlayerItems.itemRows env.items (rootEntries groups))) {row : TreeRow}
    (hrow : row ∈ rows 101 (rootEntries groups)) :
    (loadItems env result)[row.sid]? = some (entryOf env row).2 := by
  rw [← Std.TreeMap.mem_toList_iff_getElem?_eq_some, toList_loadItems hrooted hall hresult]
  exact List.mem_map_of_mem (f := entryOf env) hrow

/-- The loop gives every object its children, in the order of their rows. -/
theorem itemlist_rebuild (hrooted : Rooted 101 groups) (hall : AllReload env Same groups)
    (hresult : result.Perm (PlayerItems.itemRows env.items (rootEntries groups)))
    (hsid : ∀ sid, 101 ≤ sid → isRoot sid = false) (roots : ρ) {row : TreeRow}
    (hrow : row ∈ rows 101 (rootEntries groups)) :
    (rebuild isRoot addRoot (loadItems env result) roots).2.itemlist row.sid =
      childrenOf (rows 101 (rootEntries groups)) row.sid := by
  have hle : 101 ≤ row.sid := by
    have hmem : row.sid ∈ (rows 101 (rootEntries groups)).map (·.sid) := List.mem_map_of_mem hrow
    rw [hrooted.sids] at hmem
    exact (List.mem_range'_1.mp hmem).1
  obtain ⟨item', hitem, hkind, -⟩ := (all_of_mem_rows hall hrow).self
  have hfind := getElem?_loadItems hrooted hall hresult hrow
  have hparent : isParent isRoot (loadItems env result) row.sid =
      (ItemTree.item row.tree).isContainer := by
    simp [isParent, hsid row.sid hle, hfind, entryOf, hitem, hkind]
  unfold rebuild
  rw [(place_entries roots _).2.2, hparent, toList_loadItems hrooted hall hresult]
  rcases ItemTree.isContainer_item row.tree with ⟨hitem, hnone⟩ | hcontainer
  · have htrees := hrooted.trees_below_row hrow
    rw [hnone, List.map_eq_nil_iff] at htrees
    rw [if_neg (by simp [hitem]), childrenOf, htrees, List.map_nil]
  · rw [if_pos hcontainer, List.filter_map, List.map_map]
    rfl

theorem holdsItem_rebuild (hrooted : Rooted 101 groups) (hall : AllReload env Same groups)
    (hresult : result.Perm (PlayerItems.itemRows env.items (rootEntries groups))) (roots : ρ)
    {row : TreeRow} (hrow : row ∈ rows 101 (rootEntries groups)) :
    (rebuild isRoot addRoot (loadItems env result) roots).2.HoldsItem Same row.sid row.tree := by
  obtain ⟨item', hitem, hkind, hsame⟩ := (all_of_mem_rows hall hrow).self
  refine ⟨item', row.pid, ?_, hkind, hsame⟩
  unfold rebuild
  rw [(place_entries roots _).1, getElem?_loadItems hrooted hall hresult hrow, entryOf, hitem]
  rfl

/-- Under the number of a slot or depot stand the trees that were there. -/
theorem holdsTrees_rebuild (hrooted : Rooted 101 groups) (hall : AllReload env Same groups)
    (hresult : result.Perm (PlayerItems.itemRows env.items (rootEntries groups)))
    (hsid : ∀ sid, 101 ≤ sid → isRoot sid = false) (roots : ρ) :
    ∀ group ∈ groups, (rebuild isRoot addRoot (loadItems env result) roots).2.HoldsTrees Same
      (rootSids groups group.2) group.1 := by
  intro group hgroup
  refine holdsList_of_rows
    (fun row hrow => holdsItem_rebuild hrooted hall hresult roots hrow) (fun row hrow => ?_)
    (below (rows 101 (rootEntries groups)) group.2) List.filter_sublist group.1
    (hrooted.trees_below_root group hgroup)
  exact ⟨_, List.filter_sublist, (itemlist_rebuild hrooted hall hresult hsid roots hrow).symm,
    hrooted.trees_below_row hrow⟩

variable (isRoot addRoot) in
/-- Every object of the map is met once. -/
theorem walkTrees_rebuild (hrooted : Rooted 101 groups) (hall : AllReload env Same groups)
    (hresult : result.Perm (PlayerItems.itemRows env.items (rootEntries groups)))
    (hsid : ∀ sid, 101 ≤ sid → isRoot sid = false) (roots : ρ) :
    let heap := (rebuild isRoot addRoot (loadItems env result) roots).2
    (groups.flatMap fun group => heap.walkTrees (rootSids groups group.2) group.1).Perm
      heap.itemMap.keys := by
  intro heap
  have hkeys : heap.itemMap.keys = (rows 101 (rootEntries groups)).map (·.sid) := by
    have hmap : heap.itemMap = loadItems env result := (place_entries roots _).1
    rw [hmap, ← Std.TreeMap.map_fst_toList_eq_keys, toList_loadItems hrooted hall hresult,
      List.map_map]
    rfl
  rw [hkeys]
  exact hrooted.walk fun row hrow => itemlist_rebuild hrooted hall hresult hsid roots hrow

variable (isRoot addRoot) in
theorem roots_rebuild (hrooted : Rooted 101 groups) (hall : AllReload env Same groups)
    (hresult : result.Perm (PlayerItems.itemRows env.items (rootEntries groups))) (roots : ρ) :
    (rebuild isRoot addRoot (loadItems env result) roots).1 =
      ((rows 101 (rootEntries groups)).filter fun row => isRoot row.pid).foldr
        (fun row => addRoot row.pid row.sid) roots := by
  unfold rebuild
  rw [(place_entries roots _).2.1, toList_loadItems hrooted hall hresult, List.filter_map,
    List.foldr_map]
  rfl

theorem rootSids_eq_nil {pid : Nat} (hpid : pid ∉ groups.map (·.2)) (hlt : pid < 101) :
    rootSids groups pid = [] := by
  rw [rootSids, childrenOf, rows_rootEntries, below_eq_nil, List.map_nil]
  rintro row hrow rfl
  rcases pid_of_mem_spread hrow with hmem | hle
  · exact hpid hmem
  · omega

end Table

end ItemHeap

/-! ## Slots and depots -/

def LockerThing.getItem {ι : Type} : LockerThing ι → Option ι
  | depotChest => none
  | item i => some i

theorem LoadedItems.foldr_addToInventory (written : List ItemHeap.TreeRow) (slot : Nat) :
    written.foldr (fun row => addToInventory row.pid row.sid) (fun _ => none) slot =
      (childrenOf written slot).getLast? := by
  induction written with
  | nil => rfl
  | cons row written ih =>
    rw [List.foldr_cons]
    generalize List.foldr _ _ written = inventory at ih ⊢
    unfold addToInventory childrenOf below at *
    by_cases hpid : row.pid = slot
    · subst hpid
      cases hlist : (written.filter fun other => other.pid = row.pid).map (·.sid) with
      | nil => simp [ih, hlist]
      | cons sid sids => simp [ih, hlist, List.getLast?_cons_cons]
    · cases (inventory row.pid).isSome <;> simp [hpid, ih, Function.update_of_ne (Ne.symm hpid)]

namespace LoadedDepots

variable (depots : LoadedDepots) (depotId sid other : Nat)

theorem depotLockerMap_getDepotChest :
    (depots.getDepotChest depotId).2.depotLockerMap = depots.depotLockerMap := by
  unfold getDepotChest
  cases depots.depotChests depotId <;> rfl

theorem getDepotLocker_congr {depots depots' : LoadedDepots}
    (h : depots'.depotLockerMap other = depots.depotLockerMap other) :
    (depots'.getDepotLocker other).1 = (depots.getDepotLocker other).1 := by
  unfold getDepotLocker
  rw [h]
  cases depots.depotLockerMap other <;> rfl

theorem getDepotChest_congr {depots depots' : LoadedDepots}
    (h : depots'.depotChests other = depots.depotChests other) :
    (depots'.getDepotChest other).1 = (depots.getDepotChest other).1 := by
  unfold getDepotChest
  rw [h]
  cases depots.depotChests other <;> rfl

/-- A chest that is only opened stays empty. -/
theorem getDepotChest_getDepotChest :
    ((depots.getDepotChest depotId).2.getDepotChest other).1 =
      (depots.getDepotChest other).1 := by
  by_cases heq : other = depotId
  · subst heq
    unfold getDepotChest
    cases h : depots.depotChests other <;> simp [h]
  · apply getDepotChest_congr
    unfold getDepotChest
    cases depots.depotChests depotId <;> simp [Function.update_of_ne heq]

theorem getDepotLocker_addToLocker :
    ((depots.addToLocker depotId sid).getDepotLocker other).1 =
      if depotId = other then .item sid :: (depots.getDepotLocker other).1
      else (depots.getDepotLocker other).1 := by
  by_cases heq : depotId = other
  · subst heq
    rw [if_pos rfl]
    conv_lhs => unfold getDepotLocker
    simp [addToLocker]
  · rw [if_neg heq]
    apply getDepotLocker_congr
    unfold addToLocker getDepotLocker
    cases depots.depotLockerMap depotId with
    | some locker => simp [Function.update_of_ne (Ne.symm heq)]
    | none => simp [Function.update_of_ne (Ne.symm heq), depotLockerMap_getDepotChest]

theorem getDepotChest_addToLocker :
    ((depots.addToLocker depotId sid).getDepotChest other).1 =
      (depots.getDepotChest other).1 := by
  rw [← getDepotChest_getDepotChest depots depotId other]
  unfold addToLocker getDepotLocker
  cases depots.depotLockerMap depotId with
  | some locker =>
    rw [getDepotChest_getDepotChest]
    exact getDepotChest_congr other rfl
  | none => exact getDepotChest_congr other rfl

theorem getDepotChest_addToChest :
    ((depots.addToChest depotId sid).getDepotChest other).1 =
      if depotId = other then sid :: (depots.getDepotChest other).1
      else (depots.getDepotChest other).1 := by
  by_cases heq : depotId = other
  · subst heq
    rw [if_pos rfl]
    conv_lhs => unfold getDepotChest
    simp [addToChest]
  · rw [if_neg heq, ← getDepotChest_getDepotChest depots depotId other]
    apply getDepotChest_congr
    simp [addToChest, Function.update_of_ne (Ne.symm heq)]

theorem getDepotLocker_addToChest :
    ((depots.addToChest depotId sid).getDepotLocker other).1 =
      (depots.getDepotLocker other).1 := by
  apply getDepotLocker_congr
  rw [← depotLockerMap_getDepotChest depots depotId]
  rfl

theorem foldr_addToLocker (written : List ItemHeap.TreeRow) (depots : LoadedDepots) (d : Nat) :
    let depots' := written.foldr (fun row => addToLocker row.pid row.sid) depots
    (depots'.getDepotLocker d).1 =
        (childrenOf written d).map .item ++ (depots.getDepotLocker d).1 ∧
      (depots'.getDepotChest d).1 = (depots.getDepotChest d).1 := by
  induction written with
  | nil => exact ⟨rfl, rfl⟩
  | cons row written ih =>
    obtain ⟨hlocker, hchest⟩ := ih
    refine ⟨?_, ?_⟩
    · rw [List.foldr_cons, getDepotLocker_addToLocker, hlocker]
      by_cases hpid : row.pid = d <;> simp [childrenOf, below, hpid]
    · rw [List.foldr_cons, getDepotChest_addToLocker, hchest]

theorem foldr_addToChest (written : List ItemHeap.TreeRow) (depots : LoadedDepots) (d : Nat) :
    let depots' := written.foldr (fun row => addToChest row.pid row.sid) depots
    (depots'.getDepotChest d).1 = childrenOf written d ++ (depots.getDepotChest d).1 ∧
      (depots'.getDepotLocker d).1 = (depots.getDepotLocker d).1 := by
  induction written with
  | nil => exact ⟨rfl, rfl⟩
  | cons row written ih =>
    obtain ⟨hchest, hlocker⟩ := ih
    refine ⟨?_, ?_⟩
    · rw [List.foldr_cons, getDepotChest_addToChest, hchest]
      by_cases hpid : row.pid = d <;> simp [childrenOf, below, hpid]
    · rw [List.foldr_cons, getDepotLocker_addToChest, hlocker]

end LoadedDepots

/-! ## The whole player -/

namespace PlayerItems

section Groups

variable (player : PlayerItems)

def inventoryGroups : List (List ItemTree × Nat) :=
  inventorySlots.map fun slot => ((player.inventory slot).toList, slot)

def lockerGroups : List (List ItemTree × Nat) :=
  player.depotLockerMap.toList.map fun entry => (entry.2.items, entry.1)

def chestGroups : List (List ItemTree × Nat) :=
  player.depotChests.toList.map fun entry => (entry.2, entry.1)

/-- What lies in a locker besides the chest, and what lies in a chest. -/
def lockerItems (depotId : Nat) : List ItemTree :=
  (player.depotLockerMap[depotId]?).elim [] DepotLocker.items

def chestItems (depotId : Nat) : List ItemTree :=
  (player.depotChests[depotId]?).elim [] id

theorem inventoryList_eq : player.inventoryList = rootEntries player.inventoryGroups := by
  unfold inventoryList rootEntries inventoryGroups
  rw [List.flatMap_map, List.filterMap_eq_flatMap_toList]
  refine List.flatMap_congr fun slot _ => ?_
  cases player.inventory slot <;> rfl

theorem lockerList_eq : player.lockerList = rootEntries player.lockerGroups := by
  unfold lockerList rootEntries lockerGroups
  rw [List.flatMap_map]
  refine List.flatMap_congr fun entry _ => ?_
  obtain ⟨depotId, locker⟩ := entry
  simp only [DepotLocker.getItemList, List.filterMap_append, List.filterMap_map]
  have hitems : locker.items.filterMap (fun tree => if tree.getID ≠ ITEM_DEPOT then
      some (depotId, tree) else none) = locker.items.map fun tree => (depotId, tree) := by
    rw [← List.filterMap_eq_map]
    refine List.filterMap_congr fun tree htree => ?_
    rw [if_pos (locker.no_depot tree htree)]
    rfl
  simpa [under, Function.comp_def] using hitems

theorem chestList_eq : player.chestList = rootEntries player.chestGroups := by
  unfold chestList rootEntries chestGroups
  rw [List.flatMap_map]
  rfl

theorem inventory_rooted : Rooted 101 player.inventoryGroups where
  nodup := by
    simpa [inventoryGroups, Function.comp_def] using inventorySlots_nodup
  lt := by
    intro group hgroup
    obtain ⟨slot, hslot, rfl⟩ := List.mem_map.mp hgroup
    have := (mem_inventorySlots.mp hslot).2
    simp only
    omega

theorem rooted_of_map {β : Type} {m : Std.TreeMap Nat β} (trees : β → List ItemTree)
    (hlt : ∀ entry ∈ m.toList, entry.1 < 100) :
    Rooted 101 (m.toList.map fun entry => (trees entry.2, entry.1)) where
  nodup := by
    have h : m.keys.Nodup := Std.TreeMap.ordered_keys.imp fun h =>
      Nat.ne_of_lt (Nat.compare_eq_lt.mp h)
    simpa [Function.comp_def] using h
  lt := by
    intro group hgroup
    obtain ⟨entry, hentry, rfl⟩ := List.mem_map.mp hgroup
    exact Nat.lt_of_lt_of_le (hlt entry hentry) (by decide)

theorem locker_rooted : Rooted 101 player.lockerGroups := rooted_of_map _ player.locker_lt

theorem chest_rooted : Rooted 101 player.chestGroups :=
  rooted_of_map id player.chest_lt

end Groups

/-- Every item of the player comes back on its own. -/
structure AllReload (env : StreamEnv) (Same : StoredItem → StoredItem → Prop)
    (player : PlayerItems) : Prop where
  inventory : ItemHeap.AllReload env Same player.inventoryGroups
  lockers : ItemHeap.AllReload env Same player.lockerGroups
  chests : ItemHeap.AllReload env Same player.chestGroups

section Saved

variable [RowText ItemRow] {items : Items} {db : Database ItemRow} {query : String}
  {itemList : List (Nat × ItemTree)} {table table' : List ItemRow}

theorem saveTable_eq (h : saveTable items db query itemList table = some table') :
    table' = itemRows items itemList := by
  simp only [saveTable, saveItems, Option.bind_eq_bind, Option.bind_eq_some_iff,
    Option.some.injEq, Database.deleteFrom] at h
  obtain ⟨cleared, hclear, ⟨insert, sent⟩, hrows, ⟨insert', done⟩, hexecute, rfl⟩ := h
  have hempty : cleared = [] := by
    split_ifs at hclear
    exact (Option.some.inj hclear).symm
  subst hempty
  rw [(DBInsert.execute_written hexecute).1, DBInsert.addRows_written hrows]
  simp [DBInsert.written, DBInsert.new]

theorem savePlayer_eq {player : PlayerItems} {tables tables' : ItemTables}
    (h : player.savePlayer items db true tables = some tables') :
    tables'.playerItems = itemRows items player.inventoryList ∧
      tables'.depotLockerItems = itemRows items player.lockerList ∧
      tables'.depotItems = itemRows items player.chestList := by
  simp only [savePlayer, if_true, Option.bind_eq_bind, Option.bind_eq_some_iff,
    Option.some.injEq] at h
  obtain ⟨playerItems, hplayer, lockerItems, hlocker, depotItems, hdepot, rfl⟩ := h
  exact ⟨saveTable_eq hplayer, saveTable_eq hlocker, saveTable_eq hdepot⟩

theorem saveTable_isSome (hdeletes : ∀ table, db.deletes table = true)
    (hinserts : ∀ rows table, db.inserts rows table = true) (itemList : List (Nat × ItemTree))
    (table : List ItemRow) : (saveTable items db query itemList table).isSome := by
  obtain ⟨⟨insert, sent⟩, hrows⟩ := Option.isSome_iff_exists.mp
    (DBInsert.addRows_isSome hinserts (.new query) (itemRows items itemList) [])
  obtain ⟨⟨insert', done⟩, hexecute⟩ := Option.isSome_iff_exists.mp
    (DBInsert.execute_isSome hinserts insert sent)
  simp [saveTable, saveItems, Database.deleteFrom, hdeletes, hrows, hexecute]

theorem savePlayer_isSome (hdeletes : ∀ table, db.deletes table = true)
    (hinserts : ∀ rows table, db.inserts rows table = true) {player : PlayerItems}
    (tables : ItemTables) : (player.savePlayer items db true tables).isSome := by
  have hsave (query : String) (itemList : List (Nat × ItemTree)) (table : List ItemRow) :=
    Option.isSome_iff_exists.mp (@saveTable_isSome _ items db query hdeletes hinserts itemList table)
  unfold savePlayer
  obtain ⟨playerItems, hplayer⟩ :=
    hsave (insertQuery "player_items") player.inventoryList tables.playerItems
  obtain ⟨lockerItems, hlocker⟩ :=
    hsave (insertQuery "player_depotlockeritems") player.lockerList tables.depotLockerItems
  obtain ⟨depotItems, hdepot⟩ :=
    hsave (insertQuery "player_depotitems") player.chestList tables.depotItems
  simp only [hplayer, hlocker, hdepot, if_true, Option.bind_eq_bind, Option.bind_some,
    Option.isSome_some]

end Saved

end PlayerItems

/-- The loaded player has the items of the saved one: at the same slots, in the same lockers and
chests and in the same order, and every loaded object is met once among them. -/
structure LoadedItems.Restored (Same : StoredItem → StoredItem → Prop) (player : PlayerItems)
    (loaded : LoadedItems) : Prop where
  inventory : ∀ slot, loaded.inventoryHeap.HoldsTrees Same (loaded.inventory slot).toList
    (player.inventory slot).toList
  locker : ∀ depotId, ∃ sids,
    (loaded.depots.getDepotLocker depotId).1 = sids.map .item ++ [.depotChest] ∧
      loaded.lockerHeap.HoldsTrees Same sids (player.lockerItems depotId)
  chest : ∀ depotId, loaded.chestHeap.HoldsTrees Same (loaded.depots.getDepotChest depotId).1
    (player.chestItems depotId)
  inventory_once : (inventorySlots.flatMap fun slot =>
    loaded.inventoryHeap.walkTrees (loaded.inventory slot).toList
      (player.inventory slot).toList).Perm loaded.inventoryHeap.itemMap.keys
  locker_once : (player.depotLockerMap.keys.flatMap fun depotId =>
    loaded.lockerHeap.walkTrees
      ((loaded.depots.getDepotLocker depotId).1.filterMap LockerThing.getItem)
      (player.lockerItems depotId)).Perm loaded.lockerHeap.itemMap.keys
  chest_once : (player.depotChests.keys.flatMap fun depotId =>
    loaded.chestHeap.walkTrees (loaded.depots.getDepotChest depotId).1
      (player.chestItems depotId)).Perm loaded.chestHeap.itemMap.keys

namespace LoadedItems

open ItemHeap

section Restored

variable {env : StreamEnv} {Same : StoredItem → StoredItem → Prop} {player : PlayerItems}
  {inventoryResult lockerResult chestResult : List ItemRow}

theorem isSlot_iff {slot : Nat} : isSlot slot = true ↔ slot ∈ inventorySlots := by
  rw [mem_inventorySlots, isSlot, Bool.and_eq_true, decide_eq_true_eq, decide_eq_true_eq]
  rfl

theorem isSlot_eq_false {sid : Nat} (h : 101 ≤ sid) : isSlot sid = false := by
  rw [← Bool.not_eq_true, isSlot_iff, mem_inventorySlots]
  omega

theorem isDepot_eq_false {sid : Nat} (h : 101 ≤ sid) : isDepot sid = false := by
  simp only [isDepot, decide_eq_false_iff_not]
  omega

theorem childrenOf_filter {isRoot : Nat → Bool} (written : List TreeRow) {pid : Nat}
    (h : isRoot pid = true) :
    childrenOf (written.filter fun row => isRoot row.pid) pid = childrenOf written pid := by
  unfold childrenOf below
  rw [List.filter_filter]
  congr 1
  refine List.filter_congr fun row _ => ?_
  by_cases hpid : row.pid = pid <;> simp [hpid, h]

theorem childrenOf_filter_eq_nil {isRoot : Nat → Bool} (written : List TreeRow) {pid : Nat}
    (h : isRoot pid = false) : childrenOf (written.filter fun row => isRoot row.pid) pid = [] := by
  rw [childrenOf, below_eq_nil, List.map_nil]
  rintro row hrow rfl
  simp [h] at hrow

/-! ### The inventory -/

theorem length_rootSids {groups : List (List ItemTree × Nat)} (hrooted : Rooted 101 groups)
    {group : List ItemTree × Nat} (hgroup : group ∈ groups) :
    (rootSids groups group.2).length = group.1.length := by
  rw [← hrooted.trees_below_root group hgroup, rootSids, childrenOf, List.length_map,
    List.length_map]

variable (player) in
theorem mem_inventoryGroups {slot : Nat} (h : isSlot slot = true) :
    ((player.inventory slot).toList, slot) ∈ player.inventoryGroups := by
  exact List.mem_map_of_mem (f := fun slot => ((player.inventory slot).toList, slot))
    (isSlot_iff.mp h)

theorem inventory_eq (hall : ItemHeap.AllReload env Same player.inventoryGroups)
    (hresult : inventoryResult.Perm (PlayerItems.itemRows env.items player.inventoryList))
    {slot : Nat} (hslot : isSlot slot = true) :
    ((loadPlayer env inventoryResult lockerResult chestResult).inventory slot).toList =
      rootSids player.inventoryGroups slot := by
  rw [player.inventoryList_eq] at hresult
  have hroots := roots_rebuild isSlot addToInventory
    player.inventory_rooted hall hresult fun _ => none
  have hloaded : (loadPlayer env inventoryResult lockerResult chestResult).inventory =
      (rebuild isSlot addToInventory (loadItems env inventoryResult) fun _ => none).1 := rfl
  rw [hloaded, hroots, foldr_addToInventory, childrenOf_filter _ hslot]
  have hlen := length_rootSids player.inventory_rooted (mem_inventoryGroups player hslot)
  have hle : (rootSids player.inventoryGroups slot).length ≤ 1 := by
    rw [hlen]
    cases player.inventory slot <;> simp
  change (rootSids player.inventoryGroups slot).getLast?.toList = _
  match hsids : rootSids player.inventoryGroups slot with
  | [] => rfl
  | [sid] => rfl
  | _ :: _ :: _ => simp [hsids] at hle

theorem restored_inventory (hall : ItemHeap.AllReload env Same player.inventoryGroups)
    (hresult : inventoryResult.Perm (PlayerItems.itemRows env.items player.inventoryList))
    (slot : Nat) :
    let loaded := loadPlayer env inventoryResult lockerResult chestResult
    loaded.inventoryHeap.HoldsTrees Same (loaded.inventory slot).toList
      (player.inventory slot).toList := by
  intro loaded
  cases hslot : isSlot slot with
  | true =>
    rw [inventory_eq hall hresult hslot]
    rw [player.inventoryList_eq] at hresult
    exact holdsTrees_rebuild player.inventory_rooted hall hresult (fun _ => isSlot_eq_false)
      (fun _ => none) _ (mem_inventoryGroups player hslot)
  | false =>
    have hnone : player.inventory slot = none := by
      by_contra hsome
      have hrange := player.slot_range slot (Option.isSome_iff_ne_none.mpr hsome)
      simp [isSlot, hrange] at hslot
    rw [player.inventoryList_eq] at hresult
    have hroots := roots_rebuild isSlot addToInventory
      player.inventory_rooted hall hresult fun _ => none
    have hloaded : loaded.inventory =
        (rebuild isSlot addToInventory (loadItems env inventoryResult) fun _ => none).1 := rfl
    rw [hloaded, hroots, foldr_addToInventory, childrenOf_filter_eq_nil _ hslot, hnone]
    trivial

theorem inventory_once (hall : ItemHeap.AllReload env Same player.inventoryGroups)
    (hresult : inventoryResult.Perm (PlayerItems.itemRows env.items player.inventoryList)) :
    let loaded := loadPlayer env inventoryResult lockerResult chestResult
    (inventorySlots.flatMap fun slot =>
      loaded.inventoryHeap.walkTrees (loaded.inventory slot).toList
        (player.inventory slot).toList).Perm loaded.inventoryHeap.itemMap.keys := by
  intro loaded
  have hwalk := walkTrees_rebuild isSlot addToInventory
    player.inventory_rooted hall (player.inventoryList_eq ▸ hresult) (fun _ => isSlot_eq_false)
    fun _ => none
  refine List.Perm.trans (.of_eq ?_) hwalk
  rw [PlayerItems.inventoryGroups, List.flatMap_map]
  refine List.flatMap_congr fun slot hslot => ?_
  rw [inventory_eq hall hresult (isSlot_iff.mpr hslot)]
  rfl

/-! ### The depots -/

/-- The groups of a map, looked up by a depot id. -/
theorem holdsTrees_of_map {β : Type} {m : Std.TreeMap Nat β} {trees : β → List ItemTree}
    {heap : ItemHeap} {groups : List (List ItemTree × Nat)}
    (hgroups : groups = m.toList.map fun entry => (trees entry.2, entry.1))
    (hholds : ∀ group ∈ groups, heap.HoldsTrees Same (rootSids groups group.2) group.1)
    {depotId : Nat} (hlt : depotId < 101) :
    heap.HoldsTrees Same (rootSids groups depotId) ((m[depotId]?).elim [] trees) := by
  cases hfind : m[depotId]? with
  | some found =>
    have hmem : (trees found, depotId) ∈ groups := by
      rw [hgroups]
      exact List.mem_map_of_mem (f := fun entry => (trees entry.2, entry.1))
        (Std.TreeMap.mem_toList_iff_getElem?_eq_some.mpr hfind)
    exact hholds _ hmem
  | none =>
    have hnone : depotId ∉ groups.map (·.2) := by
      rw [hgroups, List.map_map]
      intro hmem
      obtain ⟨⟨key, found⟩, hentry, rfl⟩ := List.mem_map.mp hmem
      have hmissing : m[key]? = none := hfind
      rw [Std.TreeMap.mem_toList_iff_getElem?_eq_some, hmissing] at hentry
      cases hentry
    rw [rootSids_eq_nil hnone hlt]
    trivial

theorem getElem?_eq_none_of_le {β : Type} {m : Std.TreeMap Nat β}
    (hlt : ∀ entry ∈ m.toList, entry.1 < 100) {depotId : Nat} (h : 100 ≤ depotId) :
    m[depotId]? = none := by
  cases hfind : m[depotId]? with
  | none => rfl
  | some found =>
    have := hlt _ (Std.TreeMap.mem_toList_iff_getElem?_eq_some.mpr hfind)
    omega

/-- What the rows of a table leave under a depot id. -/
def depotSids (groups : List (List ItemTree × Nat)) (depotId : Nat) : List Nat :=
  childrenOf ((rows 101 (rootEntries groups)).filter fun row => isDepot row.pid) depotId

theorem depotSids_of_lt {groups : List (List ItemTree × Nat)} {depotId : Nat}
    (h : depotId < 100) : depotSids groups depotId = rootSids groups depotId :=
  childrenOf_filter _ (by simpa [isDepot] using h)

theorem holdsTrees_depotSids {β : Type} {m : Std.TreeMap Nat β} (trees : β → List ItemTree)
    {heap : ItemHeap} {groups : List (List ItemTree × Nat)}
    (hgroups : groups = m.toList.map fun entry => (trees entry.2, entry.1))
    (hlt : ∀ entry ∈ m.toList, entry.1 < 100)
    (hholds : ∀ group ∈ groups, heap.HoldsTrees Same (rootSids groups group.2) group.1)
    (depotId : Nat) :
    heap.HoldsTrees Same (depotSids groups depotId) ((m[depotId]?).elim [] trees) := by
  by_cases hdepot : depotId < 100
  · rw [depotSids_of_lt hdepot]
    exact holdsTrees_of_map hgroups hholds (by omega)
  · rw [getElem?_eq_none_of_le hlt (by omega), depotSids,
      childrenOf_filter_eq_nil _ (by simpa [isDepot] using hdepot)]
    trivial

variable (inventoryResult) in
theorem getDepotLocker_loadPlayer (hlockers : ItemHeap.AllReload env Same player.lockerGroups)
    (hchests : ItemHeap.AllReload env Same player.chestGroups)
    (hlocker : lockerResult.Perm (PlayerItems.itemRows env.items player.lockerList))
    (hchest : chestResult.Perm (PlayerItems.itemRows env.items player.chestList))
    (depotId : Nat) :
    let loaded := loadPlayer env inventoryResult lockerResult chestResult
    (loaded.depots.getDepotLocker depotId).1 =
        (depotSids player.lockerGroups depotId).map .item ++ [.depotChest] ∧
      (loaded.depots.getDepotChest depotId).1 = depotSids player.chestGroups depotId := by
  rw [player.lockerList_eq] at hlocker
  rw [player.chestList_eq] at hchest
  have hafterLockers := roots_rebuild isDepot LoadedDepots.addToLocker
    player.locker_rooted hlockers hlocker .empty
  have hafterChests := fun depots => roots_rebuild isDepot
    LoadedDepots.addToChest player.chest_rooted hchests hchest depots
  simp only [loadPlayer, hafterChests, hafterLockers]
  constructor
  · rw [(LoadedDepots.foldr_addToChest _ _ depotId).2,
      (LoadedDepots.foldr_addToLocker _ _ depotId).1]
    rfl
  · rw [(LoadedDepots.foldr_addToChest _ _ depotId).1,
      (LoadedDepots.foldr_addToLocker _ _ depotId).2]
    exact List.append_nil _

theorem depots_once {β ρ : Type} {m : Std.TreeMap Nat β} (trees : β → List ItemTree)
    {groups : List (List ItemTree × Nat)} {addRoot : Nat → Nat → ρ → ρ} {result : List ItemRow}
    (hgroups : groups = m.toList.map fun entry => (trees entry.2, entry.1))
    (hlt : ∀ entry ∈ m.toList, entry.1 < 100) (hrooted : Rooted 101 groups)
    (hall : ItemHeap.AllReload env Same groups)
    (hresult : result.Perm (PlayerItems.itemRows env.items (rootEntries groups))) (roots : ρ) :
    let heap := (rebuild isDepot addRoot (loadItems env result) roots).2
    (m.keys.flatMap fun depotId => heap.walkTrees (depotSids groups depotId)
      ((m[depotId]?).elim [] trees)).Perm heap.itemMap.keys := by
  intro heap
  have hwalk := walkTrees_rebuild isDepot addRoot hrooted hall hresult
    (fun _ => isDepot_eq_false) roots
  refine List.Perm.trans (.of_eq ?_) hwalk
  have hflat : groups.flatMap (fun group => heap.walkTrees (rootSids groups group.2) group.1) =
      m.toList.flatMap fun entry =>
        heap.walkTrees (rootSids groups entry.1) (trees entry.2) := by
    rw [hgroups, List.flatMap_map]
  rw [hflat, ← Std.TreeMap.map_fst_toList_eq_keys, List.flatMap_map]
  refine List.flatMap_congr fun entry hentry => ?_
  rw [depotSids_of_lt (hlt entry hentry), Std.TreeMap.mem_toList_iff_getElem?_eq_some.mp hentry]
  rfl

/-- Loading what `savePlayer` wrote restores the items of the player. -/
theorem restored_loadPlayer [RowText ItemRow] {db : Database ItemRow} {tables tables' : ItemTables}
    (hsave : player.savePlayer env.items db true tables = some tables')
    (hinventory : inventoryResult.Perm tables'.playerItems)
    (hlocker : lockerResult.Perm tables'.depotLockerItems)
    (hchest : chestResult.Perm tables'.depotItems) (hall : player.AllReload env Same) :
    (loadPlayer env inventoryResult lockerResult chestResult).Restored Same player := by
  obtain ⟨hinventoryRows, hlockerRows, hchestRows⟩ := PlayerItems.savePlayer_eq hsave
  rw [hinventoryRows] at hinventory
  rw [hlockerRows] at hlocker
  rw [hchestRows] at hchest
  have hdepots := getDepotLocker_loadPlayer inventoryResult hall.lockers
    hall.chests hlocker hchest
  rw [player.lockerList_eq] at hlocker
  rw [player.chestList_eq] at hchest
  have hsids (sids : List Nat) : (sids.map LockerThing.item ++ [LockerThing.depotChest]).filterMap
      LockerThing.getItem = sids := by
    simp [List.filterMap_append, List.filterMap_map, Function.comp_def, LockerThing.getItem]
  constructor
  · exact restored_inventory hall.inventory hinventory
  · intro depotId
    refine ⟨_, (hdepots depotId).1, ?_⟩
    exact holdsTrees_depotSids _ rfl player.locker_lt
      (holdsTrees_rebuild player.locker_rooted hall.lockers hlocker (fun _ => isDepot_eq_false) _)
      depotId
  · intro depotId
    rw [(hdepots depotId).2, PlayerItems.chestItems]
    exact holdsTrees_depotSids id rfl player.chest_lt
      (holdsTrees_rebuild player.chest_rooted hall.chests hchest (fun _ => isDepot_eq_false) _)
      depotId
  · exact inventory_once hall.inventory hinventory
  · simp only [hdepots, hsids]
    exact depots_once _ rfl player.locker_lt player.locker_rooted hall.lockers hlocker _
  · simp only [hdepots, PlayerItems.chestItems]
    exact depots_once id rfl player.chest_lt player.chest_rooted hall.chests hchest _

end Restored

/-! ### A player with a backpack -/

def backpackEnv : StreamEnv where
  items := .ofEntries [{ ItemType.default with id := 1988, group := .container, moveable := true },
    { ItemType.default with id := 2400, moveable := true, pickupable := true }]
  addUniqueItem := fun _ => true
  getNameByGuid := fun _ => []

def swordItem : StoredItem := StoredItem.construct backpackEnv.items 2400 1 .item

def backpackItem : StoredItem := StoredItem.construct backpackEnv.items 1988 0 (.container 0)

def sword : ItemTree := .leaf ⟨swordItem, rfl⟩

def backpack (itemlist : List ItemTree) : ItemTree := .branch ⟨backpackItem, rfl⟩ itemlist

def backpackPlayer : PlayerItems where
  inventory := fun slot => if slot = CONST_SLOT_BACKPACK then
    some (backpack [backpack [sword], sword]) else none
  depotLockerMap := (∅ : Std.TreeMap Nat DepotLocker).insert 7 ⟨[sword], by decide⟩
  depotChests := (∅ : Std.TreeMap Nat (List ItemTree)).insert 7 [backpack [sword], sword]
  slot_range := by
    intro slot h
    by_cases hslot : slot = CONST_SLOT_BACKPACK
    · subst hslot
      decide
    · simp [hslot] at h
  locker_lt := by
    intro entry h
    rw [Std.TreeMap.mem_toList_iff_getElem?_eq_some, Std.TreeMap.getElem?_insert] at h
    split_ifs at h with hkey
    · have := Nat.compare_eq_eq.mp hkey
      omega
    · simp at h
  chest_lt := by
    intro entry h
    rw [Std.TreeMap.mem_toList_iff_getElem?_eq_some, Std.TreeMap.getElem?_insert] at h
    split_ifs at h with hkey
    · have := Nat.compare_eq_eq.mp hkey
      omega
    · simp at h

/-- A new item without attributes comes back as it is. -/
theorem reloads_of_new {env : StreamEnv} {item : StoredItem}
    (hbytes : item.serializeAttr env.items = [])
    (hcreate : StoredItem.createItem env.items item.id (UInt16.ofInt (item.getSubType env.items)) =
      some item) : item.Reloads env Eq := by
  refine ⟨item, ?_, rfl, rfl⟩
  have hcreated : StoredItem.createItem env.items (PlayerItems.itemRow env.items 0 0 item).itemtype
      (PlayerItems.itemRow env.items 0 0 item).count = some item := hcreate
  have hstream : (PlayerItems.itemRow env.items 0 0 item).attributes = [] := hbytes
  rw [StoredItem.reload, loadItem, hcreated, hstream, Option.map_some, StoredItem.unserializeAttr]

set_option maxRecDepth 2000 in
theorem reloads_swordItem : swordItem.Reloads backpackEnv Eq := by
  refine reloads_of_new (by decide) ?_
  have hid : swordItem.id = 2400 := by decide
  have hcount : UInt16.ofInt (swordItem.getSubType backpackEnv.items) = 1 := by decide
  rw [hid, hcount]
  rfl

set_option maxRecDepth 2000 in
theorem reloads_backpackItem : backpackItem.Reloads backpackEnv Eq := by
  refine reloads_of_new (by decide) ?_
  have hid : backpackItem.id = 1988 := by decide
  have hcount : UInt16.ofInt (backpackItem.getSubType backpackEnv.items) = 1 := by decide
  rw [hid, hcount]
  rfl

theorem all_reload (tree : ItemTree)
    (h : tree ∈ [backpack [backpack [sword], sword], backpack [sword], sword]) :
    tree.All fun tree => (ItemTree.item tree).Reloads backpackEnv Eq := by
  simp only [List.mem_cons, List.not_mem_nil, or_false] at h
  rcases h with rfl | rfl | rfl <;>
    simp only [backpack, sword, Tree.All, Tree.AllList, ItemTree.item, reloads_swordItem,
      reloads_backpackItem, and_self]

theorem restored_backpackPlayer :
    ∃ tables, @backpackPlayer.savePlayer ⟨fun _ => ""⟩ backpackEnv.items
        ⟨1048576, true, fun _ => true, fun _ _ => true, fun _ => true⟩ true ⟨[], [], []⟩ =
          some tables ∧
      (loadPlayer backpackEnv tables.playerItems.reverse tables.depotLockerItems.reverse
        tables.depotItems.reverse).Restored Eq backpackPlayer := by
  let _ : RowText ItemRow := ⟨fun _ => ""⟩
  have hsave : (backpackPlayer.savePlayer backpackEnv.items
      ⟨1048576, true, fun _ => true, fun _ _ => true, fun _ => true⟩ true
      ⟨[], [], []⟩).isSome := PlayerItems.savePlayer_isSome (fun _ => rfl) (fun _ _ => rfl) _
  obtain ⟨tables, hsave⟩ := Option.isSome_iff_exists.mp hsave
  refine ⟨tables, hsave, restored_loadPlayer hsave (List.reverse_perm _) (List.reverse_perm _)
    (List.reverse_perm _) ⟨?_, ?_, ?_⟩⟩
  · intro group hgroup
    obtain ⟨slot, -, rfl⟩ := List.mem_map.mp hgroup
    refine Tree.allList_iff.mpr fun tree htree => all_reload tree ?_
    by_cases hslot : slot = CONST_SLOT_BACKPACK
    · simp_all [backpackPlayer]
    · simp [backpackPlayer, hslot] at htree
  · intro group hgroup
    obtain ⟨⟨depotId, locker⟩, hentry, rfl⟩ := List.mem_map.mp hgroup
    have hlocker : locker.items = [sword] := by
      rw [Std.TreeMap.mem_toList_iff_getElem?_eq_some] at hentry
      simp only [backpackPlayer, Std.TreeMap.getElem?_insert] at hentry
      split_ifs at hentry
      · cases hentry
        rfl
      · simp at hentry
    refine Tree.allList_iff.mpr fun tree htree => all_reload tree ?_
    rw [hlocker] at htree
    simp_all
  · intro group hgroup
    obtain ⟨⟨depotId, chest⟩, hentry, rfl⟩ := List.mem_map.mp hgroup
    have hchest : chest = [backpack [sword], sword] := by
      rw [Std.TreeMap.mem_toList_iff_getElem?_eq_some] at hentry
      simp only [backpackPlayer, Std.TreeMap.getElem?_insert] at hentry
      split_ifs at hentry
      · exact (Option.some.inj hentry).symm
      · simp at hentry
    refine Tree.allList_iff.mpr fun tree htree => all_reload tree ?_
    subst hchest
    exact List.mem_cons_of_mem _ htree

end LoadedItems

end Eloth
