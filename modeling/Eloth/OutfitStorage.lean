import Mathlib.Algebra.Group.Nat.Defs
import Mathlib.Data.List.Sort
import Eloth.AccountStorage
import Eloth.Lib.Run

/-!
# Outfits in the player storage

The outfits of a player are saved in the table `player_storage`, under the keys of a reserved range
that `Player::genReservedStorageRange` writes to the storage map of the player.
-/

namespace Eloth

def PSTRG_RESERVED_RANGE_START : UInt32 := 10000000

def PSTRG_RESERVED_RANGE_SIZE : UInt32 := 10000000

def PSTRG_OUTFITS_RANGE_START : UInt32 := PSTRG_RESERVED_RANGE_START + 1000

def PSTRG_OUTFITS_RANGE_SIZE : UInt32 := 500

/-- `IS_IN_KEYRANGE`. -/
def isInKeyRange (key start size : UInt32) : Bool := key ≥ start && key - start ≤ size

structure OutfitEntry where
  lookType : UInt16
  addons : UInt8
  deriving DecidableEq

namespace OutfitEntry

/-- The value in the storage map. -/
def stored (entry : OutfitEntry) : Int32 :=
  (entry.lookType.toUInt32.toInt32 <<< 16) ||| entry.addons.toUInt32.toInt32

def ofStored (value : Int32) : OutfitEntry :=
  ⟨(value >>> 16).toUInt32.toUInt16, (value &&& 0xFF).toUInt32.toUInt8⟩

theorem ofStored_stored (entry : OutfitEntry) : ofStored entry.stored = entry := by
  obtain ⟨lookType, addons⟩ := entry
  have hlook : ((stored ⟨lookType, addons⟩) >>> 16).toUInt32.toUInt16 = lookType := by
    apply UInt16.toBitVec_inj.mp
    ext i hi
    have hlast : 32 > 16 + i := by omega
    have hword : ¬ 32 ≤ i := by omega
    have haddons : addons.toBitVec.getLsbD (16 + i) = false :=
      BitVec.getLsbD_of_ge _ _ (by omega)
    simp [stored, BitVec.getLsbD_sshiftRight, hlast, hi, hword, haddons]
  have hadd : ((stored ⟨lookType, addons⟩) &&& 0xFF).toUInt32.toUInt8 = addons := by
    apply UInt8.toBitVec_inj.mp
    ext i hi
    have hmask : (255#8)[i] = true := BitVec.getElem_allOnes i hi
    simp [stored, hmask]
  exact congrArg₂ mk hlook hadd

end OutfitEntry

/-- What the storage map and the outfits of a player hold. -/
structure StoringPlayer where
  storageMap : StorageMap
  outfits : List OutfitEntry

namespace StoringPlayer

/-- A row of `player_storage`. -/
structure Row where
  playerId : UInt32
  key : UInt32
  value : Int32
  deriving DecidableEq

instance : RowText Row where
  text row := toString row.playerId ++ ", " ++ toString row.key ++ ", " ++ toString row.value

variable (self : StoringPlayer)

def addStorageValue (key : UInt32) (value : Int32) : StoringPlayer :=
  if isInKeyRange key PSTRG_RESERVED_RANGE_START PSTRG_RESERVED_RANGE_SIZE then
    if isInKeyRange key PSTRG_OUTFITS_RANGE_START PSTRG_OUTFITS_RANGE_SIZE then
      { self with outfits := self.outfits ++ [.ofStored value] }
    else self
  else if value ≠ -1 then { self with storageMap := self.storageMap.insert key value }
  else { self with storageMap := self.storageMap.erase key }

/-- The first outfit of the look type with other addons, if there is one. -/
def changeAddons (lookType : UInt16) (f : UInt8 → UInt8) :
    List OutfitEntry → Option (List OutfitEntry)
  | [] => none
  | entry :: outfits =>
    if entry.lookType = lookType then some ({ entry with addons := f entry.addons } :: outfits)
    else (changeAddons lookType f outfits).map (entry :: ·)

def addOutfit (lookType : UInt16) (addons : UInt8) : StoringPlayer :=
  match changeAddons lookType (· ||| addons) self.outfits with
  | some outfits => { self with outfits := outfits }
  | none => { self with outfits := self.outfits ++ [⟨lookType, addons⟩] }

def removeOutfit (lookType : UInt16) : Bool × StoringPlayer :=
  if self.outfits.any (·.lookType = lookType) then
    (true, { self with outfits := self.outfits.eraseP (·.lookType = lookType) })
  else (false, self)

def removeOutfitAddon (lookType : UInt16) (addons : UInt8) : Bool × StoringPlayer :=
  match changeAddons lookType (· &&& ~~~ addons) self.outfits with
  | some outfits => (true, { self with outfits := outfits })
  | none => (false, self)

/-- The loop of `genReservedStorageRange`. -/
def reserve : UInt32 → List OutfitEntry → StorageMap → StorageMap
  | _, [], storageMap => storageMap
  | base_key, entry :: outfits, storageMap =>
    reserve (base_key + 1) outfits (storageMap.insert (base_key + 1) entry.stored)

def genReservedStorageRange : StoringPlayer :=
  { self with storageMap := reserve PSTRG_OUTFITS_RANGE_START self.outfits self.storageMap }

/-- The rows of the map in the order of the keys. -/
def rows (playerId : UInt32) : List Row :=
  (self.storageMap.entries.insertionSort fun a b => a.1 ≤ b.1).map fun storage =>
    ⟨playerId, storage.1, storage.2⟩

def insertQuery : String := "INSERT INTO `player_storage` (`player_id`, `key`, `value`) VALUES "

/-- The part of `IOLoginData::savePlayer` for the rows of the player. A failure rolls the
transaction back, but the player keeps the new keys. -/
def savePlayer (db : Database Row) (playerId : UInt32) (table : List Row) :
    Bool × StoringPlayer × List Row :=
  if !db.begins then (false, self, table)
  else
    match db.deleteFrom table with
    | none => (false, self, table)
    | some cleared =>
      let self := self.genReservedStorageRange
      let sent := do
        let (insert, table) ← (DBInsert.new insertQuery).addRows db (self.rows playerId) cleared
        let (_, table) ← insert.execute db table
        pure table
      match sent with
      | none => (false, self, table)
      | some saved => if db.commits saved then (true, self, saved) else (false, self, table)

/-- A player before `IOLoginData::loadPlayer`. -/
def fresh : StoringPlayer := ⟨∅, []⟩

def loadPlayer (result : List Row) : StoringPlayer :=
  result.foldl (fun player row => player.addStorageValue row.key row.value) fresh

end StoringPlayer

/-! ## Loading -/

theorem isInKeyRange_iff {key start size : UInt32} :
    isInKeyRange key start size = true ↔
      start.toNat ≤ key.toNat ∧ key.toNat ≤ start.toNat + size.toNat := by
  unfold isInKeyRange
  rw [Bool.and_eq_true, decide_eq_true_eq, decide_eq_true_eq, ge_iff_le, UInt32.le_iff_toNat_le]
  refine and_congr_right fun hstart => ?_
  rw [UInt32.le_iff_toNat_le, UInt32.toNat_sub_of_le _ _ (UInt32.le_iff_toNat_le.mpr hstart)]
  omega

/-- The key stands for an outfit when a row is loaded. -/
abbrev IsOutfitKey (key : UInt32) : Prop :=
  isInKeyRange key PSTRG_OUTFITS_RANGE_START PSTRG_OUTFITS_RANGE_SIZE = true

theorem isOutfitKey_iff {key : UInt32} :
    IsOutfitKey key ↔ 10001000 ≤ key.toNat ∧ key.toNat ≤ 10001500 :=
  isInKeyRange_iff

theorem reserved_of_isOutfitKey {key : UInt32} (h : IsOutfitKey key) :
    isInKeyRange key PSTRG_RESERVED_RANGE_START PSTRG_RESERVED_RANGE_SIZE = true := by
  obtain ⟨hlow, hhigh⟩ := isOutfitKey_iff.mp h
  rw [isInKeyRange_iff]
  have hstart : PSTRG_RESERVED_RANGE_START.toNat = 10000000 := rfl
  have hsize : PSTRG_RESERVED_RANGE_SIZE.toNat = 10000000 := rfl
  omega

namespace StoringPlayer

/-- The outfit of a row. -/
def outfitOf (key : UInt32) (value : Int32) : Option OutfitEntry :=
  if IsOutfitKey key then some (.ofStored value) else none

theorem outfits_addStorageValue {self : StoringPlayer} {key : UInt32} {value : Int32} :
    (self.addStorageValue key value).outfits = self.outfits ++ (outfitOf key value).toList := by
  unfold addStorageValue outfitOf
  by_cases hkey : IsOutfitKey key
  · rw [if_pos (reserved_of_isOutfitKey hkey), if_pos hkey, if_pos hkey]
    rfl
  · rw [if_neg hkey, if_neg hkey]
    split_ifs <;> exact (List.append_nil _).symm

theorem outfits_loadPlayer (result : List Row) :
    (loadPlayer result).outfits = result.filterMap fun row => outfitOf row.key row.value := by
  have hfold : ∀ player : StoringPlayer, (result.foldl (fun player row =>
      player.addStorageValue row.key row.value) player).outfits =
        player.outfits ++ result.filterMap fun row => outfitOf row.key row.value := by
    induction result with
    | nil => exact fun player => (List.append_nil _).symm
    | cons row result ih =>
      intro player
      rw [List.foldl_cons, ih, outfits_addStorageValue, List.append_assoc, List.filterMap_cons]
      cases outfitOf row.key row.value <;> rfl
  exact hfold fresh

theorem loadPlayer_perm {result saved : List Row} (h : result.Perm saved) :
    (loadPlayer result).outfits.Perm (loadPlayer saved).outfits := by
  rw [outfits_loadPlayer, outfits_loadPlayer]
  exact h.filterMap _

/-- The keys of outfits in the storage map come from the reservation of so many keys. -/
def Reserves (self : StoringPlayer) (most : Nat) : Prop :=
  ∀ key ∈ self.storageMap, IsOutfitKey key → 10001000 < key.toNat ∧ key.toNat ≤ 10001000 + most

variable {self : StoringPlayer} {most : Nat}

theorem Reserves.mono {most' : Nat} (h : self.Reserves most) (hle : most ≤ most') :
    self.Reserves most' := fun key hkey houtfit =>
  ⟨(h key hkey houtfit).1, (h key hkey houtfit).2.trans (Nat.add_le_add_left hle _)⟩

theorem Reserves.of_same {self' : StoringPlayer} (h : self.Reserves most)
    (hsame : self'.storageMap = self.storageMap) : self'.Reserves most := by
  unfold Reserves
  rw [hsame]
  exact h

theorem Reserves.addStorageValue (h : self.Reserves most) (key : UInt32) (value : Int32) :
    (self.addStorageValue key value).Reserves most := by
  unfold StoringPlayer.addStorageValue
  split_ifs with hreserved houtfit hvalue
  · exact h
  · exact h
  · intro k hk houtfit
    rcases (AList.mem_insert _).mp hk with rfl | hk
    · exact absurd (reserved_of_isOutfitKey houtfit) hreserved
    · exact h k hk houtfit
  · intro k hk houtfit
    exact h k (AList.mem_erase.mp hk).2 houtfit

theorem reserves_loadPlayer (result : List Row) : (loadPlayer result).Reserves 0 := by
  have hfold : ∀ player : StoringPlayer, player.Reserves 0 →
      (result.foldl (fun player row => player.addStorageValue row.key row.value)
        player).Reserves 0 := by
    induction result with
    | nil => exact fun player h => h
    | cons row result ih => exact fun player h => ih _ (h.addStorageValue row.key row.value)
  exact hfold fresh fun key hkey => absurd hkey (AList.notMem_empty key)

/-! ## Saving -/

/-- The entries that the loop writes. -/
def numbered : UInt32 → List OutfitEntry → List (Sigma fun _ : UInt32 => Int32)
  | _, [] => []
  | base_key, entry :: outfits => ⟨base_key + 1, entry.stored⟩ :: numbered (base_key + 1) outfits

variable {base : UInt32} {outfits : List OutfitEntry} {storageMap : StorageMap}

theorem toNat_add_one {key : UInt32} (h : key.toNat + 1 < 2 ^ 32) :
    (key + 1).toNat = key.toNat + 1 := by
  rw [UInt32.toNat_add]
  exact Nat.mod_eq_of_lt h

theorem key_of_mem_numbered {entry : Sigma fun _ : UInt32 => Int32}
    (hfits : base.toNat + outfits.length < 2 ^ 32) (h : entry ∈ numbered base outfits) :
    base.toNat < entry.1.toNat ∧ entry.1.toNat ≤ base.toNat + outfits.length := by
  induction outfits generalizing base with
  | nil => cases h
  | cons outfit outfits ih =>
    rw [List.length_cons] at hfits ⊢
    have hnext := @toNat_add_one base (by omega)
    rcases List.mem_cons.mp h with rfl | h
    · dsimp only
      omega
    · have hrest := ih (by omega) h
      omega

theorem nodup_numbered (hfits : base.toNat + outfits.length < 2 ^ 32) :
    (numbered base outfits).Nodup := by
  induction outfits generalizing base with
  | nil => exact List.nodup_nil
  | cons outfit outfits ih =>
    rw [List.length_cons] at hfits
    have hnext := @toNat_add_one base (by omega)
    refine List.nodup_cons.mpr ⟨fun hmem => ?_, ih (by omega)⟩
    exact absurd (key_of_mem_numbered (by omega) hmem).1 (lt_irrefl _)

theorem mem_reserve {key : UInt32} {value : Int32}
    (hfits : base.toNat + outfits.length < 2 ^ 32) :
    value ∈ (reserve base outfits storageMap).lookup key ↔
      (⟨key, value⟩ : Sigma _) ∈ numbered base outfits ∨
        ¬ (base.toNat < key.toNat ∧ key.toNat ≤ base.toNat + outfits.length) ∧
          value ∈ storageMap.lookup key := by
  induction outfits generalizing base storageMap with
  | nil =>
    rw [reserve, numbered, List.length_nil, Nat.add_zero]
    have hnone : ¬ (base.toNat < key.toNat ∧ key.toNat ≤ base.toNat) := by omega
    rw [and_iff_right hnone]
    exact ⟨.inr, fun h => h.resolve_left List.not_mem_nil⟩
  | cons outfit outfits ih =>
    rw [List.length_cons] at hfits ⊢
    have hnext := @toNat_add_one base (by omega)
    rw [reserve, ih (by omega), numbered, List.mem_cons, or_assoc, hnext]
    by_cases hkey : key = base + 1
    · subst hkey
      have hout : ∀ entry ∈ numbered (base + 1) outfits, entry.1 ≠ base + 1 := by
        rintro entry hmem heq
        have hlt := (key_of_mem_numbered (by omega) hmem).1
        rw [heq] at hlt
        exact lt_irrefl _ hlt
      rw [AList.lookup_insert, hnext, Option.mem_some_iff]
      constructor
      · rintro (hmem | ⟨-, rfl⟩)
        · exact absurd rfl (hout _ hmem)
        · exact .inl rfl
      · rintro (heq | hmem | ⟨hoff, -⟩)
        · cases heq
          exact .inr ⟨by omega, rfl⟩
        · exact absurd rfl (hout _ hmem)
        · omega
    · have hne : key.toNat ≠ base.toNat + 1 := fun h =>
        hkey (UInt32.toNat_inj.mp (h.trans hnext.symm))
      have hrange : (base.toNat + 1 < key.toNat ∧
          key.toNat ≤ base.toNat + 1 + outfits.length) ↔
          base.toNat < key.toNat ∧ key.toNat ≤ base.toNat + (outfits.length + 1) := by omega
      rw [AList.lookup_insert_ne hkey, hrange]
      refine ⟨.inr, fun h => h.resolve_left fun heq => hkey ?_⟩
      cases heq
      rfl

theorem filterMap_numbered (hlow : 10001000 ≤ base.toNat)
    (hhigh : base.toNat + outfits.length ≤ 10001500) :
    (numbered base outfits).filterMap (fun entry => outfitOf entry.1 entry.2) = outfits := by
  induction outfits generalizing base with
  | nil => rfl
  | cons outfit outfits ih =>
    rw [List.length_cons] at hhigh
    have hnext := @toNat_add_one base (by omega)
    have hkey : IsOutfitKey (base + 1) := isOutfitKey_iff.mpr (by omega)
    have hhead : outfitOf (base + 1) outfit.stored = some outfit := by
      rw [outfitOf, if_pos hkey, OutfitEntry.ofStored_stored]
    rw [numbered, List.filterMap_cons, hhead]
    exact congrArg (outfit :: ·) (ih (by omega) (by omega))

theorem Reserves.genReservedStorageRange (h : self.Reserves most)
    (hfits : self.outfits.length < 2 ^ 31) :
    self.genReservedStorageRange.Reserves (max most self.outfits.length) := by
  intro key hkey houtfit
  have hbase : PSTRG_OUTFITS_RANGE_START.toNat = 10001000 := rfl
  obtain ⟨value, hvalue⟩ := Option.isSome_iff_exists.mp (AList.lookup_isSome.mpr hkey)
  have hin := (mem_reserve (by omega)).mp (Option.mem_def.mpr hvalue)
  rcases hin with hnew | ⟨-, hold⟩
  · have hbounds := key_of_mem_numbered (by omega) hnew
    dsimp only at hbounds
    omega
  · have hbounds := h key (AList.lookup_isSome.mp (Option.isSome_iff_exists.mpr ⟨value, hold⟩))
      houtfit
    omega

/-- The rows of the map restore the outfits, when no key of an outfit remains behind them. -/
theorem outfits_restored_perm (playerId : UInt32) (h : self.Reserves most)
    (hroom : self.outfits.length ≤ 500) (hmost : min most 500 ≤ self.outfits.length) :
    (loadPlayer (self.genReservedStorageRange.rows playerId)).outfits.Perm self.outfits := by
  have hbase : PSTRG_OUTFITS_RANGE_START.toNat = 10001000 := rfl
  have hfits : PSTRG_OUTFITS_RANGE_START.toNat + self.outfits.length < 2 ^ 32 := by omega
  let written := self.genReservedStorageRange.storageMap.entries
  have hnodup : written.Nodup := self.genReservedStorageRange.storageMap.nodupKeys.nodup
  have hkept : (written.filter fun entry => decide (IsOutfitKey entry.1)).Perm
      (numbered PSTRG_OUTFITS_RANGE_START self.outfits) := by
    refine (List.perm_ext_iff_of_nodup (hnodup.filter _) (nodup_numbered hfits)).mpr ?_
    rintro ⟨key, value⟩
    rw [List.mem_filter, decide_eq_true_eq, ← AList.mem_lookup_iff,
      StoringPlayer.genReservedStorageRange, mem_reserve hfits]
    constructor
    · rintro ⟨hnew | ⟨hout, hold⟩, houtfit⟩
      · exact hnew
      · have hkey := h key (AList.lookup_isSome.mp (Option.isSome_iff_exists.mpr ⟨value, hold⟩))
          houtfit
        have hrange := (@isOutfitKey_iff key).mp houtfit
        exact absurd (by omega) hout
    · intro hnew
      have hbounds := key_of_mem_numbered hfits hnew
      dsimp only at hbounds
      exact ⟨.inl hnew, (@isOutfitKey_iff key).mpr (by omega)⟩
  have hrows : (loadPlayer (self.genReservedStorageRange.rows playerId)).outfits.Perm
      (written.filterMap fun entry => outfitOf entry.1 entry.2) := by
    rw [outfits_loadPlayer, rows, List.filterMap_map]
    exact (List.perm_insertionSort _ written).filterMap _
  have hdrop : written.filterMap (fun entry => outfitOf entry.1 entry.2) =
      (written.filter fun entry => decide (IsOutfitKey entry.1)).filterMap
        fun entry => outfitOf entry.1 entry.2 := by
    rw [List.filterMap_filter]
    refine List.filterMap_congr fun entry _ => ?_
    unfold outfitOf
    by_cases houtfit : IsOutfitKey entry.1
    · rw [if_pos houtfit, if_pos (decide_eq_true houtfit)]
    · rw [if_neg houtfit, ite_self]
  rw [hdrop] at hrows
  refine hrows.trans ((hkept.filterMap _).trans ?_)
  rw [filterMap_numbered (by omega) (by omega)]

end StoringPlayer

/-! ## Runs -/

/-- The player and its rows. -/
structure OutfitSession where
  player : StoringPlayer
  rows : List StoringPlayer.Row
  /-- The largest number of outfits at a save since the player was loaded. -/
  most : Nat
  /-- The outfits at the last save that went through. -/
  saved : Option (List OutfitEntry)

inductive OutfitOperation where
  | addOutfit (lookType : UInt16) (addons : UInt8)
  | removeOutfit (lookType : UInt16)
  | removeOutfitAddon (lookType : UInt16) (addons : UInt8)
  | addStorageValue (key : UInt32) (value : Int32)
  | savePlayer (db : Database StoringPlayer.Row)
  | failedSave (db : Database StoringPlayer.Row)
  | loadPlayer (result : List StoringPlayer.Row)

namespace OutfitSession

def step (playerId : UInt32) (s : OutfitSession) : OutfitOperation → OutfitSession → Prop
  | .addOutfit lookType addons, s' => s' = { s with player := s.player.addOutfit lookType addons }
  | .removeOutfit lookType, s' => s' = { s with player := (s.player.removeOutfit lookType).2 }
  | .removeOutfitAddon lookType addons, s' =>
    s' = { s with player := (s.player.removeOutfitAddon lookType addons).2 }
  | .addStorageValue key value, s' => s' = { s with player := s.player.addStorageValue key value }
  | .savePlayer db, s' => ∃ player rows,
    s.player.savePlayer db playerId s.rows = (true, player, rows) ∧
      s' = ⟨player, rows, max s.most s.player.outfits.length, some s.player.outfits⟩
  | .failedSave db, s' => ∃ player rows,
    s.player.savePlayer db playerId s.rows = (false, player, rows) ∧
      s' = ⟨player, rows, max s.most s.player.outfits.length, s.saved⟩
  | .loadPlayer result, s' => result.Perm s.rows ∧
    s' = { s with player := .loadPlayer result, most := 0 }

/-- A player who has just been loaded, and any rows. -/
def system (playerId : UInt32) : Run.System OutfitSession OutfitOperation where
  init s := (∃ result, s.player = .loadPlayer result) ∧ s.most = 0 ∧ s.saved = none
  step := step playerId

/-- At a save there are not fewer outfits than at an earlier one, and no more than keys. -/
def Grows (s : OutfitSession) : OutfitOperation → Prop
  | .savePlayer _ => s.player.outfits.length ≤ 500 ∧ min s.most 500 ≤ s.player.outfits.length
  | .failedSave _ => s.player.outfits.length < 2 ^ 31
  | _ => True

structure Kept (s : OutfitSession) : Prop where
  reserves : s.player.Reserves s.most
  restores : ∀ saved ∈ s.saved, (StoringPlayer.loadPlayer s.rows).outfits.Perm saved

end OutfitSession

namespace StoringPlayer

variable {self player : StoringPlayer} {db : Database Row} {playerId : UInt32}
  {table rows : List Row}

theorem storageMap_addOutfit {lookType : UInt16} {addons : UInt8} :
    (self.addOutfit lookType addons).storageMap = self.storageMap := by
  unfold addOutfit
  split <;> rfl

theorem storageMap_removeOutfit {lookType : UInt16} :
    (self.removeOutfit lookType).2.storageMap = self.storageMap := by
  unfold removeOutfit
  split <;> rfl

theorem storageMap_removeOutfitAddon {lookType : UInt16} {addons : UInt8} :
    (self.removeOutfitAddon lookType addons).2.storageMap = self.storageMap := by
  unfold removeOutfitAddon
  split <;> rfl

theorem savePlayer_true (h : self.savePlayer db playerId table = (true, player, rows)) :
    player = self.genReservedStorageRange ∧ rows = player.rows playerId := by
  unfold savePlayer at h
  split_ifs at h
  · cases h
  split at h
  · cases h
  · next cleared hcleared =>
    unfold Database.deleteFrom at hcleared
    split_ifs at hcleared
    cases hcleared
    dsimp only at h
    split at h
    · cases h
    · next sent hsent =>
      split_ifs at h
      · cases h
        simp only [Option.bind_eq_bind, Option.bind_eq_some_iff] at hsent
        obtain ⟨⟨insert, between⟩, hrows, ⟨flushed, written⟩, hexecute, hpure⟩ := hsent
        cases hpure
        refine ⟨rfl, ?_⟩
        rw [(DBInsert.execute_written hexecute).1, DBInsert.addRows_written hrows]
        rfl
      · cases h

theorem savePlayer_false (h : self.savePlayer db playerId table = (false, player, rows)) :
    (player = self ∨ player = self.genReservedStorageRange) ∧ rows = table := by
  unfold savePlayer at h
  split_ifs at h
  · cases h
    exact ⟨.inl rfl, rfl⟩
  split at h
  · cases h
    exact ⟨.inl rfl, rfl⟩
  · dsimp only at h
    split at h
    · cases h
      exact ⟨.inr rfl, rfl⟩
    · split_ifs at h
      · cases h
      · cases h
        exact ⟨.inr rfl, rfl⟩

end StoringPlayer

namespace OutfitSession

open StoringPlayer

variable {s s' : OutfitSession} {playerId : UInt32} {operation : OutfitOperation}

theorem Kept.of_player (h : s.Kept) {player : StoringPlayer}
    (hsame : player.storageMap = s.player.storageMap) : Kept { s with player := player } :=
  ⟨h.reserves.of_same hsame, h.restores⟩

theorem Kept.step (h : s.Kept) (hgrows : s.Grows operation) (hstep : step playerId s operation s') :
    s'.Kept := by
  cases operation with
  | addOutfit lookType addons =>
    subst hstep
    exact h.of_player storageMap_addOutfit
  | removeOutfit lookType =>
    subst hstep
    exact h.of_player storageMap_removeOutfit
  | removeOutfitAddon lookType addons =>
    subst hstep
    exact h.of_player storageMap_removeOutfitAddon
  | addStorageValue key value =>
    subst hstep
    exact ⟨h.reserves.addStorageValue key value, h.restores⟩
  | savePlayer db =>
    obtain ⟨player, rows, hsave, rfl⟩ := hstep
    obtain ⟨rfl, rfl⟩ := savePlayer_true hsave
    refine ⟨h.reserves.genReservedStorageRange (hgrows.1.trans_lt (by decide)), ?_⟩
    rintro _ ⟨⟩
    exact outfits_restored_perm playerId h.reserves hgrows.1 hgrows.2
  | failedSave db =>
    obtain ⟨player, rows, hsave, rfl⟩ := hstep
    obtain ⟨hplayer, rfl⟩ := savePlayer_false hsave
    refine ⟨?_, h.restores⟩
    rcases hplayer with rfl | rfl
    · exact h.reserves.mono (le_max_left _ _)
    · exact h.reserves.genReservedStorageRange hgrows
  | loadPlayer result =>
    obtain ⟨-, rfl⟩ := hstep
    exact ⟨reserves_loadPlayer result, h.restores⟩

theorem kept_of_reachableBy (h : Run.ReachableBy (system playerId) Grows s) : s.Kept := by
  refine h.invariant (fun s hinit => ?_) fun s operation s' hs hgrows hstep =>
    hs.step hgrows hstep
  obtain ⟨⟨result, hplayer⟩, hmost, hsaved⟩ := hinit
  refine ⟨?_, fun saved hmem => ?_⟩
  · rw [hplayer, hmost]
    exact reserves_loadPlayer result
  · rw [hsaved] at hmem
    cases hmem

/-- As long as the number of outfits does not fall between saves, the rows of the last save bring
back the outfits of that save. -/
theorem outfits_restored (h : Run.ReachableBy (system playerId) Grows s) {saved : List OutfitEntry}
    (hsaved : s.saved = some saved) {result : List StoringPlayer.Row}
    (hresult : result.Perm s.rows) : (StoringPlayer.loadPlayer result).outfits.Perm saved :=
  (loadPlayer_perm hresult).trans ((kept_of_reachableBy h).restores saved hsaved)

def serving : Database StoringPlayer.Row where
  maxPacketSize := 1048576
  begins := true
  deletes _ := true
  inserts _ _ := true
  commits _ := true

/-- A player with the outfit 128, saved once. -/
def savedOnce : OutfitSession :=
  ⟨⟨(∅ : StorageMap).insert 10001001 8388608, [⟨128, 0⟩]⟩, [⟨1, 10001001, 8388608⟩], 1,
    some [⟨128, 0⟩]⟩

theorem savedOnce_reachableBy : Run.ReachableBy (system 1) Grows savedOnce := by
  have hinit : Run.ReachableBy (system 1) Grows ⟨fresh, [], 0, none⟩ := .init ⟨⟨[], rfl⟩, rfl, rfl⟩
  have hadd : Run.ReachableBy (system 1) Grows ⟨⟨∅, [⟨128, 0⟩]⟩, [], 0, none⟩ :=
    .step (i := .addOutfit 128 0) hinit trivial rfl
  exact .step (i := .savePlayer serving) hadd ⟨by decide, by decide⟩ ⟨_, _, rfl, rfl⟩

theorem outfits_restored_once :
    (StoringPlayer.loadPlayer [⟨1, 10001001, 8388608⟩]).outfits.Perm [⟨128, 0⟩] :=
  outfits_restored savedOnce_reachableBy rfl (.refl _)

/-- Two outfits are saved, the second one is removed, and the player is saved again. -/
theorem removed_outfit_comes_back :
    ¬ ∀ (playerId : UInt32) (s : OutfitSession) (saved : List OutfitEntry)
      (result : List StoringPlayer.Row), Run.Reachable (system playerId) s →
      s.saved = some saved → result.Perm s.rows →
        (StoringPlayer.loadPlayer result).outfits.Perm saved := by
  intro h
  have hinit : Run.Reachable (system 1)
      ⟨StoringPlayer.loadPlayer [⟨1, 10001001, 8388608⟩, ⟨1, 10001002, 8454144⟩], [], 0, none⟩ :=
    .init ⟨⟨_, rfl⟩, rfl, rfl⟩
  have hsave : Run.Reachable (system 1) _ :=
    hinit.step' (i := .savePlayer serving) ⟨_, _, rfl, rfl⟩
  have hremove : Run.Reachable (system 1) _ := hsave.step' (i := .removeOutfit 129) rfl
  have hagain : Run.Reachable (system 1) _ :=
    hremove.step' (i := .savePlayer serving) ⟨_, _, rfl, rfl⟩
  have hperm := h 1 _ _ _ hagain rfl (.refl _)
  exact absurd hperm.length_eq (by decide)

end OutfitSession

end Eloth
