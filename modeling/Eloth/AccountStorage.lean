import Mathlib.Data.List.AList
import Eloth.Database

/-!
# Account storage

The values that scripts keep for an account, and their copy in the table `account_storage`. The
entries of an association list stand in the order in which the server iterates over the map.
-/

namespace Eloth

abbrev StorageMap := AList fun _ : UInt32 => Int32

/-- No value is `-1`: writing that value erases the key. -/
structure AccountStorage where
  accountStorageMap : AList fun _ : UInt32 => StorageMap
  stored : ∀ account ∈ accountStorageMap.entries, ∀ storage ∈ account.2.entries, storage.2 ≠ -1

structure AccountStorage.Row where
  accountId : UInt32
  key : UInt32
  value : Int32
  deriving DecidableEq

namespace AccountStorage

instance : RowText Row where
  text row := toString row.accountId ++ ", " ++ toString row.key ++ ", " ++ toString row.value

/-- `accountStorageMap[accountId]`, which adds an empty map for a new account. -/
def storages (s : AccountStorage) (accountId : UInt32) : StorageMap :=
  (s.accountStorageMap.lookup accountId).getD ∅

theorem storages_stored (s : AccountStorage) (accountId : UInt32) :
    ∀ storage ∈ (s.storages accountId).entries, storage.2 ≠ -1 := by
  intro storage hstorage
  unfold storages at hstorage
  cases h : s.accountStorageMap.lookup accountId with
  | none => simp [h] at hstorage
  | some storages =>
    rw [h] at hstorage
    exact s.stored ⟨accountId, storages⟩ (AList.mem_lookup_iff.mp h) storage hstorage

def assign (s : AccountStorage) (accountId : UInt32) (replaced : StorageMap)
    (h : ∀ storage ∈ replaced.entries, storage.2 ≠ -1) : AccountStorage where
  accountStorageMap := s.accountStorageMap.insert accountId replaced
  stored := by
    intro account haccount
    rw [AList.entries_insert, List.mem_cons] at haccount
    rcases haccount with rfl | haccount
    · exact h
    · exact s.stored account ((List.kerase_sublist accountId _).subset haccount)

def setAccountStorageValue (s : AccountStorage) (accountId key : UInt32) (value : Int32) :
    AccountStorage :=
  if hvalue : value = -1 then
    s.assign accountId ((s.storages accountId).erase key) fun storage hstorage =>
      s.storages_stored accountId storage ((List.kerase_sublist key _).subset hstorage)
  else
    s.assign accountId ((s.storages accountId).insert key value) (by
      intro storage hstorage
      rw [AList.entries_insert, List.mem_cons] at hstorage
      rcases hstorage with rfl | hstorage
      · exact hvalue
      · exact s.storages_stored accountId storage ((List.kerase_sublist key _).subset hstorage))

def find (s : AccountStorage) (accountId key : UInt32) : Option Int32 :=
  (s.accountStorageMap.lookup accountId).bind (·.lookup key)

def getAccountStorageValue (s : AccountStorage) (accountId key : UInt32) : Int32 :=
  (s.find accountId key).getD (-1)

def empty : AccountStorage where
  accountStorageMap := ∅
  stored := by simp

def loadAccountStorageValues (s : AccountStorage) (result : List Row) : AccountStorage :=
  result.foldl (fun s row => s.setAccountStorageValue row.accountId row.key row.value) s

def rowsOf (account : Sigma fun _ : UInt32 => StorageMap) : List Row :=
  account.2.entries.map fun storage => ⟨account.1, storage.1, storage.2⟩

def insertQuery : String := "INSERT INTO `account_storage` (`account_id`, `key`, `value`) VALUES"

/-- The loop over the accounts, which ends at the first account with an empty map. -/
def saveAccounts (db : Database Row) :
    List (Sigma fun _ : UInt32 => StorageMap) → List Row → Option (List Row)
  | [], table => some table
  | account :: accounts, table =>
    if account.2.entries.isEmpty then some table
    else do
      let (insert, table) ← (DBInsert.new insertQuery).addRows db (rowsOf account) table
      let (_, table) ← insert.execute db table
      saveAccounts db accounts table

/-- A failure before the end of the transaction rolls it back. -/
def saveAccountStorageValues (db : Database Row) (s : AccountStorage) (table : List Row) :
    Bool × List Row :=
  if !db.begins then (false, table)
  else
    match (db.deleteFrom table).bind (saveAccounts db s.accountStorageMap.entries) with
    | none => (false, table)
    | some saved => if db.commits saved then (true, saved) else (false, table)

variable {s : AccountStorage} {accountId key : UInt32} {row : Row}

/-! ## Reading what was set -/

theorem find_eq_some {value : Int32} :
    s.find accountId key = some value ↔
      ∃ storages, (⟨accountId, storages⟩ : Sigma _) ∈ s.accountStorageMap.entries ∧
        (⟨key, value⟩ : Sigma _) ∈ storages.entries := by
  simp only [find, Option.bind_eq_some_iff, AList.mem_lookup_iff.symm, Option.mem_def]

theorem find_eq_storages : s.find accountId key = (s.storages accountId).lookup key := by
  unfold find storages
  cases s.accountStorageMap.lookup accountId <;> simp

theorem find_assign_self {replaced : StorageMap}
    {h : ∀ storage ∈ replaced.entries, storage.2 ≠ -1} :
    (s.assign accountId replaced h).find accountId key = replaced.lookup key := by
  simp [find, assign]

theorem find_assign_ne {replaced : StorageMap} {other : UInt32}
    {h : ∀ storage ∈ replaced.entries, storage.2 ≠ -1} (hne : other ≠ accountId) :
    (s.assign accountId replaced h).find other key = s.find other key := by
  simp [find, assign, AList.lookup_insert_ne hne]

theorem find_set_self {value : Int32} (hvalue : value ≠ -1) :
    (s.setAccountStorageValue accountId key value).find accountId key = some value := by
  simp [setAccountStorageValue, hvalue, find_assign_self]

theorem find_set_ne {other otherKey : UInt32} {value : Int32}
    (hne : (other, otherKey) ≠ (accountId, key)) :
    (s.setAccountStorageValue accountId key value).find other otherKey =
      s.find other otherKey := by
  by_cases hid : other = accountId
  · have hkey : otherKey ≠ key := by
      rintro rfl
      exact hne (by rw [hid])
    subst hid
    unfold setAccountStorageValue
    split_ifs
    · rw [find_assign_self, AList.lookup_erase_ne hkey, find_eq_storages]
    · rw [find_assign_self, AList.lookup_insert_ne hkey, find_eq_storages]
  · unfold setAccountStorageValue
    split_ifs
    · exact find_assign_ne hid
    · exact find_assign_ne hid

/-! ## Loading -/

theorem find_load_of_forall_ne {result : List Row}
    (h : ∀ row ∈ result, (accountId, key) ≠ (row.accountId, row.key)) :
    (s.loadAccountStorageValues result).find accountId key = s.find accountId key := by
  induction result generalizing s with
  | nil => rfl
  | cons row result ih =>
    rw [loadAccountStorageValues, List.foldl_cons, ← loadAccountStorageValues,
      ih fun r hr => h r (List.mem_cons_of_mem _ hr),
      find_set_ne (h row List.mem_cons_self)]

/-- The table has at most one row for an account and a key, and no row with the value `-1`. -/
def Keyed (result : List Row) : Prop :=
  (result.map fun row => (row.accountId, row.key)).Nodup ∧ ∀ row ∈ result, row.value ≠ -1

theorem Keyed.perm {result saved : List Row} (h : Keyed saved) (hperm : result.Perm saved) :
    Keyed result :=
  ⟨(hperm.map _).nodup_iff.mpr h.1, fun row hrow => h.2 row (hperm.mem_iff.mp hrow)⟩

theorem find_load_of_mem {result : List Row} (h : Keyed result) (hrow : row ∈ result) :
    (s.loadAccountStorageValues result).find row.accountId row.key = some row.value := by
  obtain ⟨hnodup, hvalue⟩ := h
  induction result generalizing s with
  | nil => cases hrow
  | cons head result ih =>
    rw [loadAccountStorageValues, List.foldl_cons, ← loadAccountStorageValues]
    rw [List.map_cons, List.nodup_cons] at hnodup
    rcases List.mem_cons.mp hrow with rfl | hrow
    · rw [find_load_of_forall_ne, find_set_self (hvalue row List.mem_cons_self)]
      intro r hr heq
      exact hnodup.1 (List.mem_map.mpr ⟨r, hr, heq.symm⟩)
    · exact ih hrow hnodup.2 fun r hr => hvalue r (List.mem_cons_of_mem _ hr)

theorem find_load_empty {result : List Row} (h : Keyed result) {value : Int32} :
    (empty.loadAccountStorageValues result).find accountId key = some value ↔
      (⟨accountId, key, value⟩ : Row) ∈ result := by
  constructor
  · intro hfind
    by_cases hrow : ∃ row ∈ result, (accountId, key) = (row.accountId, row.key)
    · obtain ⟨row, hrow, heq⟩ := hrow
      obtain ⟨rfl, rfl⟩ := Prod.mk.inj heq
      rw [find_load_of_mem h hrow] at hfind
      cases hfind
      exact hrow
    · push Not at hrow
      rw [find_load_of_forall_ne hrow] at hfind
      cases hfind
  · intro hrow
    exact find_load_of_mem h hrow

/-! ## Saving -/

/-- The rows that the loop over the accounts reaches. -/
def rowsKept (accounts : List (Sigma fun _ : UInt32 => StorageMap)) : List Row :=
  (accounts.takeWhile fun account => !account.2.entries.isEmpty).flatMap rowsOf

variable {db : Database Row} {table saved : List Row}
  {accounts : List (Sigma fun _ : UInt32 => StorageMap)}

theorem saveAccounts_rowsKept (h : saveAccounts db accounts table = some saved) :
    saved = table ++ rowsKept accounts := by
  induction accounts generalizing table with
  | nil =>
    cases h
    simp [rowsKept]
  | cons account accounts ih =>
    by_cases hempty : account.2.entries.isEmpty = true
    · simp only [saveAccounts, hempty, if_pos] at h
      cases h
      simp [rowsKept, hempty]
    · rw [saveAccounts, if_neg hempty] at h
      simp only [Option.bind_eq_bind, Option.bind_eq_some_iff] at h
      obtain ⟨⟨insert, between⟩, hrows, ⟨flushed, sent⟩, hexecute, hrest⟩ := h
      obtain ⟨hsent, -⟩ := DBInsert.execute_written hexecute
      rw [DBInsert.addRows_written hrows] at hsent
      have hkept : rowsKept (account :: accounts) = rowsOf account ++ rowsKept accounts := by
        simp [rowsKept, hempty]
      rw [ih hrest, hsent, hkept]
      simp [DBInsert.written, DBInsert.new]

theorem saveAccountStorageValues_eq (h : s.saveAccountStorageValues db table = (true, saved)) :
    saved = rowsKept s.accountStorageMap.entries := by
  unfold saveAccountStorageValues at h
  split_ifs at h
  · cases h
  split at h
  · cases h
  · next sent hsent =>
    obtain ⟨cleared, hcleared, hrows⟩ := Option.bind_eq_some_iff.mp hsent
    unfold Database.deleteFrom at hcleared
    split_ifs at hcleared
    cases hcleared
    split_ifs at h <;> cases h
    rw [saveAccounts_rowsKept hrows, List.nil_append]

theorem saveAccountStorageValues_failed (h : s.saveAccountStorageValues db table = (false, saved)) :
    saved = table := by
  unfold saveAccountStorageValues at h
  split_ifs at h
  · cases h
    rfl
  · split at h
    · cases h
      rfl
    · split_ifs at h <;> cases h
      rfl

/-- Every account after one with an empty map has an empty map as well. -/
def EmptyLast (s : AccountStorage) : Prop :=
  s.accountStorageMap.entries.Pairwise fun account later =>
    account.2.entries = [] → later.2.entries = []

theorem rowsKept_initial : rowsKept accounts <+: accounts.flatMap rowsOf := by
  obtain ⟨rest, hrest⟩ := List.takeWhile_prefix (l := accounts)
    fun account : Sigma fun _ : UInt32 => StorageMap => !account.2.entries.isEmpty
  refine ⟨rest.flatMap rowsOf, ?_⟩
  rw [rowsKept, ← List.flatMap_append, hrest]

theorem rowsOf_eq_nil {account : Sigma fun _ : UInt32 => StorageMap} :
    rowsOf account = [] ↔ account.2.entries = [] := by
  simp [rowsOf]

theorem rowsKept_eq_iff :
    rowsKept accounts = accounts.flatMap rowsOf ↔
      accounts.Pairwise fun account later => account.2.entries = [] → later.2.entries = [] := by
  induction accounts with
  | nil => simp [rowsKept]
  | cons account accounts ih =>
    rw [List.pairwise_cons, ← ih]
    by_cases hempty : account.2.entries = []
    · have hnone : rowsKept (account :: accounts) = [] := by simp [rowsKept, hempty]
      rw [hnone, List.flatMap_cons, rowsOf_eq_nil.mpr hempty, List.nil_append, eq_comm,
        List.flatMap_eq_nil_iff]
      constructor
      · intro hall
        have hnil : accounts.flatMap rowsOf = [] := List.flatMap_eq_nil_iff.mpr hall
        exact ⟨fun later hlater _ => rowsOf_eq_nil.mp (hall later hlater),
          (List.prefix_nil.mp (hnil ▸ rowsKept_initial)).trans hnil.symm⟩
      · exact fun ⟨hall, _⟩ later hlater => rowsOf_eq_nil.mpr (hall later hlater hempty)
    · have hkept : rowsKept (account :: accounts) = rowsOf account ++ rowsKept accounts := by
        simp [rowsKept, hempty]
      rw [hkept, List.flatMap_cons, List.append_cancel_left_eq]
      exact ⟨fun h => ⟨fun _ _ hnil => absurd hnil hempty, h⟩, And.right⟩

theorem mem_rows_iff :
    row ∈ s.accountStorageMap.entries.flatMap rowsOf ↔
      s.find row.accountId row.key = some row.value := by
  rw [find_eq_some, List.mem_flatMap]
  constructor
  · rintro ⟨account, haccount, hrow⟩
    obtain ⟨storage, hstorage, rfl⟩ := List.mem_map.mp hrow
    exact ⟨account.2, haccount, hstorage⟩
  · rintro ⟨storages, haccount, hstorage⟩
    exact ⟨⟨row.accountId, storages⟩, haccount,
      List.mem_map.mpr ⟨⟨row.key, row.value⟩, hstorage, rfl⟩⟩

theorem keyed_rows (s : AccountStorage) : Keyed (s.accountStorageMap.entries.flatMap rowsOf) := by
  refine ⟨?_, fun row hrow => ?_⟩
  · rw [List.map_flatMap, List.nodup_flatMap]
    constructor
    · intro account _
      have hkeys := List.nodupKeys_iff_pairwise.mp account.2.nodupKeys
      rw [rowsOf, List.map_map]
      exact List.pairwise_map.mpr (hkeys.imp fun hne heq => hne (Prod.mk.inj heq).2)
    · have hkeys := List.nodupKeys_iff_pairwise.mp s.accountStorageMap.nodupKeys
      refine hkeys.imp fun {account later} hne => ?_
      simp only [List.disjoint_left, rowsOf, List.map_map, List.mem_map, Function.comp,
        Function.onFun, not_exists, not_and]
      rintro _ ⟨storage, _, rfl⟩ other _ heq
      exact hne (Prod.mk.inj heq).1.symm
  · obtain ⟨account, haccount, hmem⟩ := List.mem_flatMap.mp hrow
    obtain ⟨storage, hstorage, rfl⟩ := List.mem_map.mp hmem
    exact s.stored account haccount storage hstorage

/-- A save and a load in a fresh server restore the mapping exactly when the accounts with an empty
map come last. -/
theorem find_load_save_iff {result : List Row}
    (hsave : s.saveAccountStorageValues db table = (true, saved)) (hresult : result.Perm saved) :
    (∀ accountId key, (empty.loadAccountStorageValues result).find accountId key =
      s.find accountId key) ↔ s.EmptyLast := by
  have hsaved := saveAccountStorageValues_eq hsave
  have hkeyed : Keyed saved := by
    rw [hsaved]
    exact ⟨((rowsKept_initial.sublist.map _).nodup (keyed_rows s).1),
      fun row hrow => (keyed_rows s).2 row (rowsKept_initial.subset hrow)⟩
  have hload : ∀ row : Row, (empty.loadAccountStorageValues result).find row.accountId row.key =
      some row.value ↔ row ∈ saved := fun row =>
    (find_load_empty (hkeyed.perm hresult)).trans hresult.mem_iff
  rw [EmptyLast, ← rowsKept_eq_iff, ← hsaved]
  constructor
  · intro hsame
    have hprefix : saved <+: s.accountStorageMap.entries.flatMap rowsOf :=
      hsaved ▸ rowsKept_initial
    refine hprefix.eq_of_length_le ?_
    refine (List.Nodup.of_map _ (keyed_rows s).1).length_le_of_subset ?_
    intro row hrow
    rw [← hload row, hsame]
    exact mem_rows_iff.mp hrow
  · intro heq accountId key
    ext value
    have h := hload ⟨accountId, key, value⟩
    rw [heq] at h
    exact h.trans mem_rows_iff

def servingDatabase : Database Row where
  maxPacketSize := 1048576
  begins := true
  deletes _ := true
  inserts _ _ := true
  commits _ := true

def emptyAccountLast : AccountStorage :=
  (empty.setAccountStorageValue 1 5 (-1)).setAccountStorageValue 2 5 7

def emptyAccountFirst : AccountStorage :=
  (empty.setAccountStorageValue 2 5 7).setAccountStorageValue 1 5 (-1)

theorem find_load_save_of_emptyAccountLast :
    emptyAccountLast.saveAccountStorageValues servingDatabase [] = (true, [⟨2, 5, 7⟩]) ∧
      ((∀ accountId key, (empty.loadAccountStorageValues [⟨2, 5, 7⟩]).find accountId key =
        emptyAccountLast.find accountId key) ↔ emptyAccountLast.EmptyLast) := by
  have hsave : emptyAccountLast.saveAccountStorageValues servingDatabase [] =
      (true, [⟨2, 5, 7⟩]) := by decide
  exact ⟨hsave, find_load_save_iff hsave (.refl _)⟩

/-- The value of the second account is lost when the first one holds no value any more. -/
theorem find_load_save_of_emptyAccountFirst :
    ¬ ∀ (db : Database Row) (s : AccountStorage) (table saved result : List Row),
      s.saveAccountStorageValues db table = (true, saved) → result.Perm saved →
      ∀ accountId key, (empty.loadAccountStorageValues result).find accountId key =
        s.find accountId key := by
  intro h
  have hsave : emptyAccountFirst.saveAccountStorageValues servingDatabase [] = (true, []) := by
    decide
  have hfind := h servingDatabase emptyAccountFirst [] [] [] hsave (.refl _) 2 5
  revert hfind
  decide

end AccountStorage

end Eloth
