import Mathlib.Algebra.BigOperators.Group.List.Basic
import Mathlib.Algebra.Order.BigOperators.Group.List
import Mathlib.Algebra.Order.Ring.Nat
import Eloth.Map

/-!
# Experience for a kill

`Creature::onDeath` of a monster gives every attacker that is online a share of the experience, by
its part of the damage, and a party that shares experience has the shares of its members collected
by the leader. The ratio of the damage is read as an exact fraction.
-/

namespace Eloth

/-- What `onDeath` asks of a party. -/
structure PartyShare where
  leader : Option CreatureId
  isSharedExperienceActive : Bool
  isSharedExperienceEnabled : Bool

/-- An attacker; only players have a party. -/
structure Attacker where
  id : CreatureId
  party : Option PartyShare

namespace Attacker

/-- The creature that the share of the attacker is credited to. -/
def credited (attacker : Attacker) : CreatureId :=
  match attacker.party with
  | none => attacker.id
  | some party =>
    match party.leader with
    | none => attacker.id
    | some leader =>
      if party.isSharedExperienceActive && party.isSharedExperienceEnabled then leader
      else attacker.id

end Attacker

/-- The damage that each attacker has dealt. `addDamagePoints` adds positive points only. -/
structure DamageMap where
  blocks : List (CreatureId × Int32)
  keys : (blocks.map Prod.fst).Nodup
  nonneg : ∀ block ∈ blocks, 0 ≤ block.2.toInt
  bounded : (blocks.map fun block => block.2.toInt).sum < 2 ^ 31

/-- The creatures of the game by their identifiers. -/
structure CreatureTable where
  getCreatureByID : CreatureId → Option Attacker
  id_eq : ∀ {id attacker}, getCreatureByID id = some attacker → attacker.id = id

structure DyingMonster where
  id : CreatureId
  damageMap : DamageMap
  lostExperience : UInt64

namespace DyingMonster

variable (self : DyingMonster)

/-- The damage of the attacker and the damage of all, of which `getDamageRatio` is the quotient. -/
def getDamageRatio (attacker : CreatureId) : UInt32 × UInt32 :=
  self.damageMap.blocks.foldl
    (fun (attackerDamage, totalDamage) (id, total) =>
      (if id = attacker then attackerDamage + total.toUInt32 else attackerDamage,
        totalDamage + total.toUInt32)) (0, 0)

def getGainedExperience (attacker : CreatureId) : UInt64 :=
  let (attackerDamage, totalDamage) := self.getDamageRatio attacker
  if totalDamage = 0 then 0
  else UInt64.ofNat (attackerDamage.toNat * self.lostExperience.toNat / totalDamage.toNat)

/-- A new entry of `experienceMap`, or an addition to the entry that is there. -/
def credit (c : CreatureId) (gainExp : UInt64) :
    List (CreatureId × UInt64) → List (CreatureId × UInt64)
  | [] => [(c, gainExp)]
  | (attacker, exp) :: entries =>
    if attacker = c then (attacker, exp + gainExp) :: entries
    else (attacker, exp) :: credit c gainExp entries

/-- The `experienceMap` of `onDeath`: the arguments of the calls of `onGainExperience`. -/
def experienceMap (game : CreatureTable) : List (CreatureId × UInt64) :=
  self.damageMap.blocks.foldl
    (fun entries (id, _) =>
      match game.getCreatureByID id with
      | none => entries
      | some attacker =>
        if attacker.id ≠ self.id then
          credit attacker.credited (self.getGainedExperience attacker.id) entries
        else entries) []

/-! ## Shares -/

/-- The attacker of a block of damage, when it is online. -/
def onlineAttacker (game : CreatureTable) (block : CreatureId × Int32) : Option Attacker :=
  (game.getCreatureByID block.1).filter fun attacker => attacker.id ≠ self.id

def onlineAttackers (game : CreatureTable) : List Attacker :=
  self.damageMap.blocks.filterMap (self.onlineAttacker game)

def totalDamage : Nat := (self.damageMap.blocks.map fun block => block.2.toInt.toNat).sum

def damageOf (attacker : CreatureId) : Nat :=
  ((self.damageMap.blocks.filter fun block => block.1 = attacker).map
    fun block => block.2.toInt.toNat).sum

/-- The part of the experience that the attacker has earned, rounded down. -/
def share (attacker : CreatureId) : Nat :=
  self.damageOf attacker * self.lostExperience.toNat / self.totalDamage

end DyingMonster

/-! ## Sums of damage -/

namespace DamageMap

theorem toNat_toUInt32 {total : Int32} (h : 0 ≤ total.toInt) :
    total.toUInt32.toNat = total.toInt.toNat :=
  (Int32.toNat_toBitVec total).symm.trans
    (Int32.toNat_toBitVec_of_le (Int32.le_iff_toInt_le.mpr h))

theorem sum_toNat (m : DamageMap) :
    (m.blocks.map fun block => block.2.toInt.toNat).sum < 2 ^ 31 := by
  have hcast : ∀ blocks : List (CreatureId × Int32), (∀ block ∈ blocks, 0 ≤ block.2.toInt) →
      (((blocks.map fun block => block.2.toInt.toNat).sum : Nat) : Int) =
        (blocks.map fun block => block.2.toInt).sum := by
    intro blocks hblocks
    induction blocks with
    | nil => rfl
    | cons block blocks ih =>
      rw [List.map_cons, List.sum_cons, List.map_cons, List.sum_cons, Int.natCast_add,
        ih fun b hb => hblocks b (List.mem_cons_of_mem _ hb),
        Int.toNat_of_nonneg (hblocks block List.mem_cons_self)]
  have hsum := hcast m.blocks m.nonneg
  have hbounded := m.bounded
  omega

end DamageMap

namespace DyingMonster

variable {self : DyingMonster} {game : CreatureTable} {c k : CreatureId}

/-- The loop of `getDamageRatio`, as long as its sums stay below 2^32. -/
theorem damageRatio_loop (attacker : CreatureId) (blocks : List (CreatureId × Int32))
    (hnonneg : ∀ block ∈ blocks, 0 ≤ block.2.toInt) (a b : UInt32)
    (hab : a.toNat ≤ b.toNat)
    (hb : b.toNat + (blocks.map fun block => block.2.toInt.toNat).sum < 2 ^ 32) :
    let sums := blocks.foldl
      (fun (sums : UInt32 × UInt32) (block : CreatureId × Int32) =>
        (if block.1 = attacker then sums.1 + block.2.toUInt32 else sums.1,
          sums.2 + block.2.toUInt32)) (a, b)
    sums.1.toNat = a.toNat + ((blocks.filter fun block => block.1 = attacker).map
      fun block => block.2.toInt.toNat).sum ∧
    sums.2.toNat = b.toNat + (blocks.map fun block => block.2.toInt.toNat).sum := by
  induction blocks generalizing a b with
  | nil => exact ⟨rfl, rfl⟩
  | cons block blocks ih =>
    have hpos := hnonneg block List.mem_cons_self
    have hword := DamageMap.toNat_toUInt32 hpos
    rw [List.map_cons, List.sum_cons] at hb
    have hadd : ∀ x : UInt32, x.toNat ≤ b.toNat →
        (x + block.2.toUInt32).toNat = x.toNat + block.2.toInt.toNat := by
      intro x hx
      rw [UInt32.toNat_add, hword, Nat.mod_eq_of_lt (by omega)]
    have hrest := fun b hb => hnonneg b (List.mem_cons_of_mem block hb)
    rw [List.foldl_cons, List.map_cons, List.sum_cons]
    dsimp only
    by_cases hattacker : block.1 = attacker
    · rw [if_pos hattacker, List.filter_cons_of_pos (by simpa using hattacker), List.map_cons,
        List.sum_cons]
      have hsums := ih hrest (a + block.2.toUInt32) (b + block.2.toUInt32)
        (by rw [hadd a hab, hadd b le_rfl]; omega) (by rw [hadd b le_rfl]; omega)
      rw [hadd a hab, hadd b le_rfl] at hsums
      exact ⟨hsums.1.trans (Nat.add_assoc _ _ _), hsums.2.trans (Nat.add_assoc _ _ _)⟩
    · rw [if_neg hattacker, List.filter_cons_of_neg (by simpa using hattacker)]
      have hsums := ih hrest a (b + block.2.toUInt32)
        (by rw [hadd b le_rfl]; omega) (by rw [hadd b le_rfl]; omega)
      rw [hadd b le_rfl] at hsums
      exact ⟨hsums.1, hsums.2.trans (Nat.add_assoc _ _ _)⟩

theorem getDamageRatio_spec (self : DyingMonster) (attacker : CreatureId) :
    (self.getDamageRatio attacker).1.toNat = self.damageOf attacker ∧
      (self.getDamageRatio attacker).2.toNat = self.totalDamage := by
  have hsum := self.damageMap.sum_toNat
  have hloop := damageRatio_loop attacker self.damageMap.blocks self.damageMap.nonneg 0 0
    le_rfl (by rw [UInt32.toNat_zero]; omega)
  rw [UInt32.toNat_zero, Nat.zero_add, Nat.zero_add] at hloop
  exact hloop

theorem damageOf_le (self : DyingMonster) (attacker : CreatureId) :
    self.damageOf attacker ≤ self.totalDamage :=
  (List.filter_sublist.map _).sum_le_sum fun _ _ => Nat.zero_le _

theorem share_le (self : DyingMonster) (attacker : CreatureId) :
    self.share attacker ≤ self.lostExperience.toNat := by
  refine Nat.div_le_of_le_mul ?_
  exact Nat.mul_le_mul_right _ (self.damageOf_le attacker)

theorem toNat_getGainedExperience (self : DyingMonster) (attacker : CreatureId) :
    (self.getGainedExperience attacker).toNat = self.share attacker := by
  obtain ⟨hattacker, htotal⟩ := self.getDamageRatio_spec attacker
  have hle := self.share_le attacker
  have hlt := self.lostExperience.toNat_lt
  unfold getGainedExperience
  dsimp only
  split_ifs with hzero
  · rw [share, ← htotal, hzero, UInt32.toNat_zero, Nat.div_zero]
    rfl
  · rw [hattacker, htotal, UInt64.toNat_ofNat', ← share, Nat.mod_eq_of_lt (by omega)]

/-! ## The floors of the shares -/

theorem sum_floors_le (exp total : Nat) (damages : List Nat) (h : damages.sum ≤ total) :
    (damages.map fun damage => damage * exp / total).sum ≤ exp := by
  have hfloors : total * (damages.map fun damage => damage * exp / total).sum ≤
      damages.sum * exp := by
    clear h
    induction damages with
    | nil => simp
    | cons damage damages ih =>
      have hfloor := Nat.mul_div_le (damage * exp) total
      rw [List.map_cons, List.sum_cons, List.sum_cons, Nat.mul_add, Nat.add_mul]
      exact Nat.add_le_add hfloor ih
  rcases Nat.eq_zero_or_pos total with hzero | hpos
  · simp [hzero]
  · refine Nat.le_of_mul_le_mul_left ?_ hpos
    exact hfloors.trans (Nat.mul_le_mul_right _ h)

/-- Every attacker has one block of damage. -/
theorem damageOf_eq {self : DyingMonster} {block : CreatureId × Int32}
    (h : block ∈ self.damageMap.blocks) : self.damageOf block.1 = block.2.toInt.toNat := by
  have hkeys := self.damageMap.keys
  unfold damageOf
  generalize self.damageMap.blocks = blocks at h hkeys
  induction blocks with
  | nil => cases h
  | cons head blocks ih =>
    rw [List.map_cons, List.nodup_cons] at hkeys
    have hnone : ∀ b ∈ blocks, b.1 ≠ head.1 := fun b hb hkey =>
      hkeys.1 (hkey ▸ List.mem_map_of_mem hb)
    rcases List.mem_cons.mp h with rfl | hmem
    · rw [List.filter_cons_of_pos (by simp), List.filter_eq_nil_iff.mpr (by simpa using hnone)]
      simp
    · rw [List.filter_cons_of_neg (by simpa using (hnone block hmem).symm)]
      exact ih hmem hkeys.2

theorem onlineAttacker_id {block : CreatureId × Int32} {attacker : Attacker}
    (h : self.onlineAttacker game block = some attacker) : attacker.id = block.1 :=
  game.id_eq (Option.filter_eq_some_iff.mp h).1

/-- The attackers that are online dealt at most the damage of all. -/
theorem sum_damageOf_le (self : DyingMonster) (game : CreatureTable) :
    ((self.onlineAttackers game).map fun attacker => self.damageOf attacker.id).sum ≤
      self.totalDamage := by
  have honline : ∀ blocks : List (CreatureId × Int32),
      (∀ block ∈ blocks, block ∈ self.damageMap.blocks) →
      ((blocks.filterMap (self.onlineAttacker game)).map fun attacker =>
          self.damageOf attacker.id).sum ≤
        (blocks.map fun block => block.2.toInt.toNat).sum := by
    intro blocks hblocks
    induction blocks with
    | nil => simp
    | cons block blocks ih =>
      have hrest := ih fun b hb => hblocks b (List.mem_cons_of_mem _ hb)
      rw [List.map_cons, List.sum_cons]
      cases honline : self.onlineAttacker game block with
      | none =>
        rw [List.filterMap_cons_none honline]
        omega
      | some attacker =>
        have hdamage := damageOf_eq (hblocks block List.mem_cons_self)
        rw [List.filterMap_cons_some honline, List.map_cons, List.sum_cons,
          onlineAttacker_id honline, hdamage]
        omega
  exact honline _ fun _ hblock => hblock

theorem sum_share_le (self : DyingMonster) (game : CreatureTable) :
    ((self.onlineAttackers game).map fun attacker => self.share attacker.id).sum ≤
      self.lostExperience.toNat := by
  have hfloors := sum_floors_le self.lostExperience.toNat _ _ (self.sum_damageOf_le game)
  rw [List.map_map] at hfloors
  exact hfloors

/-! ## The experience map -/

/-- The experience that the entries of a set of creatures hold. -/
def credits (region : CreatureId → Bool) (entries : List (CreatureId × UInt64)) : Nat :=
  ((entries.filter fun entry => region entry.1).map fun entry => entry.2.toNat).sum

theorem credits_cons (region : CreatureId → Bool) (entry : CreatureId × UInt64)
    (entries : List (CreatureId × UInt64)) :
    credits region (entry :: entries) =
      (if region entry.1 then entry.2.toNat else 0) + credits region entries := by
  unfold credits
  cases hregion : region entry.1 with
  | true => simp [hregion]
  | false => simp [hregion]

theorem mem_keys_credit {gainExp : UInt64} {entries : List (CreatureId × UInt64)} :
    k ∈ (credit c gainExp entries).map Prod.fst ↔ k = c ∨ k ∈ entries.map Prod.fst := by
  induction entries with
  | nil => simp [credit]
  | cons entry entries ih =>
    unfold credit
    split_ifs with hkey
    · simp [← hkey]
    · rw [List.map_cons, List.mem_cons, ih, List.map_cons, List.mem_cons]
      tauto

theorem nodup_keys_credit {gainExp : UInt64} {entries : List (CreatureId × UInt64)}
    (h : (entries.map Prod.fst).Nodup) : ((credit c gainExp entries).map Prod.fst).Nodup := by
  induction entries with
  | nil => simp [credit]
  | cons entry entries ih =>
    rw [List.map_cons, List.nodup_cons] at h
    unfold credit
    split_ifs with hkey
    · exact List.nodup_cons.mpr h
    · refine List.nodup_cons.mpr ⟨fun hmem => ?_, ih h.2⟩
      rcases mem_keys_credit.mp hmem with hc | hold
      · exact hkey hc
      · exact h.1 hold

/-- A share that is credited comes to the experience of its creature. -/
theorem credits_credit (region : CreatureId → Bool) {gainExp : UInt64}
    {entries : List (CreatureId × UInt64)}
    (h : credits (fun _ => true) entries + gainExp.toNat < 2 ^ 64) :
    credits region (credit c gainExp entries) =
      credits region entries + if region c then gainExp.toNat else 0 := by
  induction entries with
  | nil => rw [credit, credits_cons, Nat.add_comm]
  | cons entry entries ih =>
    rw [credits_cons, if_pos rfl] at h
    unfold credit
    by_cases hkey : entry.1 = c
    · have hadd : (entry.2 + gainExp).toNat = entry.2.toNat + gainExp.toNat := by
        rw [UInt64.toNat_add, Nat.mod_eq_of_lt (by omega)]
      rw [if_pos hkey, credits_cons, credits_cons]
      dsimp only
      rw [hadd, hkey]
      split_ifs <;> omega
    · rw [if_neg hkey, credits_cons, credits_cons, ih (by omega), Nat.add_assoc]

/-- With one entry for a creature its credits are this entry. -/
theorem credits_entry {entries : List (CreatureId × UInt64)} {entry : CreatureId × UInt64}
    (hkeys : (entries.map Prod.fst).Nodup) (h : entry ∈ entries) :
    credits (fun c => c = entry.1) entries = entry.2.toNat := by
  induction entries with
  | nil => cases h
  | cons head entries ih =>
    rw [List.map_cons, List.nodup_cons] at hkeys
    rw [credits_cons]
    rcases List.mem_cons.mp h with rfl | hmem
    · have hnone : ∀ e ∈ entries, e.1 ≠ entry.1 := fun e he hkey =>
        hkeys.1 (hkey ▸ List.mem_map_of_mem he)
      have hrest : credits (fun c => c = entry.1) entries = 0 := by
        unfold credits
        rw [List.filter_eq_nil_iff.mpr (by simpa using hnone)]
        rfl
      rw [if_pos (by simp), hrest, Nat.add_zero]
    · have hne : head.1 ≠ entry.1 := fun hkey => hkeys.1 (hkey ▸ List.mem_map_of_mem hmem)
      rw [if_neg (by simpa using hne), Nat.zero_add, ih hkeys.2 hmem]

/-- The shares of the attackers that are credited to a set of creatures. -/
def sharesOf (self : DyingMonster) (region : CreatureId → Bool) (attackers : List Attacker) :
    Nat :=
  ((attackers.filter fun attacker => region attacker.credited).map
    fun attacker => self.share attacker.id).sum

theorem sharesOf_append (region : CreatureId → Bool) (attackers : List Attacker)
    (attacker : Attacker) :
    self.sharesOf region (attackers ++ [attacker]) = self.sharesOf region attackers +
      if region attacker.credited then self.share attacker.id else 0 := by
  unfold sharesOf
  rw [List.filter_append, List.map_append, List.sum_append]
  cases hregion : region attacker.credited with
  | true => simp [hregion]
  | false => simp [hregion]

/-- The entries hold the shares of the attackers seen so far. -/
structure Credited (monster : DyingMonster) (attackers : List Attacker)
    (entries : List (CreatureId × UInt64)) : Prop where
  nodup : (entries.map Prod.fst).Nodup
  keys : ∀ k, k ∈ entries.map Prod.fst ↔ ∃ attacker ∈ attackers, attacker.credited = k
  credits_eq : ∀ region, credits region entries = monster.sharesOf region attackers

theorem Credited.step {attackers : List Attacker} {entries : List (CreatureId × UInt64)}
    {attacker : Attacker} (h : Credited self attackers entries)
    (hsum : self.sharesOf (fun _ => true) (attackers ++ [attacker]) < 2 ^ 64) :
    Credited self (attackers ++ [attacker])
      (credit attacker.credited (self.getGainedExperience attacker.id) entries) where
  nodup := nodup_keys_credit h.nodup
  keys := by
    intro k
    rw [mem_keys_credit, h.keys]
    simp only [List.mem_append, List.mem_singleton, or_and_right, exists_or, exists_eq_left]
    rw [or_comm, eq_comm]
  credits_eq := by
    intro region
    have hgain := self.toNat_getGainedExperience attacker.id
    rw [sharesOf_append, if_pos rfl, ← h.credits_eq, ← hgain] at hsum
    rw [credits_credit region hsum, sharesOf_append, h.credits_eq, hgain]

theorem Credited.run {attackers : List Attacker} :
    ∀ {done : List Attacker} {entries : List (CreatureId × UInt64)},
      Credited self done entries →
      self.sharesOf (fun _ => true) (done ++ attackers) < 2 ^ 64 →
      Credited self (done ++ attackers) (attackers.foldl (fun entries attacker =>
        credit attacker.credited (self.getGainedExperience attacker.id) entries) entries) := by
  induction attackers with
  | nil =>
    intro done entries h _
    rwa [List.append_nil]
  | cons attacker attackers ih =>
    intro done entries h hsum
    rw [← List.singleton_append, ← List.append_assoc] at hsum ⊢
    refine ih (h.step ?_) hsum
    -- the shares credited so far are a part of all
    refine lt_of_le_of_lt ?_ hsum
    rw [sharesOf, sharesOf, List.filter_append (done ++ [attacker]), List.map_append,
      List.sum_append]
    exact Nat.le_add_right _ _

theorem experienceMap_eq (self : DyingMonster) (game : CreatureTable) :
    self.experienceMap game = (self.onlineAttackers game).foldl (fun entries attacker =>
      credit attacker.credited (self.getGainedExperience attacker.id) entries) [] := by
  rw [onlineAttackers, List.foldl_filterMap]
  unfold experienceMap
  congr 1
  funext entries ⟨id, total⟩
  cases hgame : game.getCreatureByID id with
  | none => simp [onlineAttacker, hgame]
  | some attacker =>
    by_cases hself : attacker.id = self.id
    · simp [onlineAttacker, hgame, hself, Option.filter_some]
    · simp [onlineAttacker, hgame, hself, Option.filter_some]

theorem sharesOf_all (self : DyingMonster) (attackers : List Attacker) :
    self.sharesOf (fun _ => true) attackers =
      (attackers.map fun attacker => self.share attacker.id).sum := by
  rw [sharesOf, List.filter_true]

theorem credits_all (entries : List (CreatureId × UInt64)) :
    credits (fun _ => true) entries = (entries.map fun entry => entry.2.toNat).sum := by
  rw [credits, List.filter_true]

theorem credited_experienceMap (self : DyingMonster) (game : CreatureTable) :
    Credited self (self.onlineAttackers game) (self.experienceMap game) := by
  have hnil : Credited self [] [] :=
    ⟨List.nodup_nil, fun _ => by simp, fun _ => rfl⟩
  rw [experienceMap_eq]
  refine hnil.run ?_
  rw [List.nil_append, sharesOf_all]
  exact (self.sum_share_le game).trans_lt self.lostExperience.toNat_lt

theorem nodup_onlineAttackers (self : DyingMonster) (game : CreatureTable) :
    ((self.onlineAttackers game).map Attacker.id).Nodup := by
  have hkeys := self.damageMap.keys
  unfold onlineAttackers
  generalize self.damageMap.blocks = blocks at hkeys
  have hsub : ((blocks.filterMap (self.onlineAttacker game)).map Attacker.id).Sublist
      (blocks.map Prod.fst) := by
    clear hkeys
    induction blocks with
    | nil => exact List.Sublist.slnil
    | cons block blocks ih =>
      cases honline : self.onlineAttacker game block with
      | none =>
        rw [List.filterMap_cons_none honline]
        exact ih.cons _
      | some attacker =>
        rw [List.filterMap_cons_some honline, List.map_cons, List.map_cons,
          onlineAttacker_id honline]
        exact ih.cons_cons _
  exact hkeys.sublist hsub

/-- The experience given out is at most what is lost, and every attacker that is online has its
share credited once, to itself or to the leader of its party. -/
theorem experienceMap_shares (self : DyingMonster) (game : CreatureTable) :
    ((self.experienceMap game).map fun entry => entry.2.toNat).sum ≤
      self.lostExperience.toNat ∧
    ((self.onlineAttackers game).map Attacker.id).Nodup ∧
    ((self.experienceMap game).map Prod.fst).Nodup ∧
    (∀ c, c ∈ (self.experienceMap game).map Prod.fst ↔
      ∃ attacker ∈ self.onlineAttackers game, attacker.credited = c) ∧
    ∀ entry ∈ self.experienceMap game, entry.2.toNat =
      (((self.onlineAttackers game).filter fun attacker => attacker.credited = entry.1).map
        fun attacker => self.share attacker.id).sum := by
  have hmap := self.credited_experienceMap game
  refine ⟨?_, self.nodup_onlineAttackers game, hmap.nodup, hmap.keys, fun entry hentry => ?_⟩
  · rw [← credits_all, hmap.credits_eq, sharesOf_all]
    exact self.sum_share_le game
  · rw [← credits_entry hmap.nodup hentry, hmap.credits_eq]
    rfl

end DyingMonster

end Eloth
