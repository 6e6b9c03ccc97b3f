import Mathlib.Algebra.Order.BigOperators.Group.List
import Eloth.ConditionStream
import Eloth.DamageRounds
import Eloth.ItemRoundTrip

/-!
# Conditions come back from their stream

What `createCondition` and `unserialize` make of the bytes that `serialize` wrote.
-/

namespace Eloth

open PropStream

/-! ## Fixed-width integers -/

namespace PropStream

theorem decodes_readUInt8 (v : UInt8) : readUInt8.Decodes (writeInt 1 v.toNat) (some v) := by
  have hread := (decodes_readUInt 1 v.toNat).map fun v => v.map UInt8.ofInt
  have hself : UInt8.ofInt ((v.toNat : Int) % (256 ^ 1 : Nat)) = v := by
    have hlt := v.toNat_lt
    apply UInt8.toNat_inj.mp
    rw [UInt8.ofInt, UInt8.toNat_ofNat']
    omega
  rwa [Option.map_some, hself] at hread

theorem decodes_readBool (b : Bool) :
    readUInt8.Decodes (writeInt 1 b.toNat) (some (if b then 1 else 0)) := by
  cases b with
  | false => exact decodes_readUInt8 0
  | true => exact decodes_readUInt8 1

theorem decodes_readUInt16 (v : UInt16) : readUInt16.Decodes (writeInt 2 v.toNat) (some v) := by
  have hread := (decodes_readUInt 2 v.toNat).map fun v => v.map UInt16.ofInt
  have hself : UInt16.ofInt ((v.toNat : Int) % (256 ^ 2 : Nat)) = v := by
    have hlt := v.toNat_lt
    apply UInt16.toNat_inj.mp
    rw [UInt16.ofInt, UInt16.toNat_ofNat']
    omega
  rwa [Option.map_some, hself] at hread

theorem decodes_readUInt32 (v : UInt32) : readUInt32.Decodes (writeInt 4 v.toNat) (some v) := by
  have hread := (decodes_readUInt 4 v.toNat).map fun v => v.map UInt32.ofInt
  have hself : UInt32.ofInt ((v.toNat : Int) % (256 ^ 4 : Nat)) = v := by
    have hlt := v.toNat_lt
    apply UInt32.toNat_inj.mp
    rw [UInt32.ofInt, UInt32.toNat_ofNat']
    omega
  rwa [Option.map_some, hself] at hread

theorem decodes_readInt32 (v : Int32) : readInt32.Decodes (writeInt 4 v.toInt) (some v) := by
  have hread := (decodes_readInt 4 v.toInt).map fun v => v.map Int32.ofInt
  have hself : Int32.ofInt (v.toInt.bmod (256 ^ 4)) = v := by
    have hlo := v.le_toInt
    have hhi := v.toInt_lt
    rw [Int.bmod_eq_of_le_mul_two (by omega) (by omega), Int32.ofInt_toInt]
  rwa [Option.map_some, hself] at hread

theorem decodes_both {α β : Type} {read : Reader (Option α)} {read' : Reader (Option β)}
    {s s' : List UInt8} {a : α} {b : β} (h : read.Decodes s (some a))
    (h' : read'.Decodes s' (some b)) : (both read read').Decodes (s ++ s') (some (a, b)) :=
  h.bind (h'.map fun b => b.map fun b => (a, b))

theorem decodes_readStruct {α : Type} {size : Nat} {read : Reader (Option α)} {s : List UInt8}
    {a : α} (h : read.Decodes s (some a)) (hsize : s.length = size) :
    (readStruct size read).Decodes s (some a) := by
  intro rest
  have hlong : ¬ (s ++ rest).length < size := by
    rw [List.length_append]
    omega
  exact (if_neg hlong).trans (h rest)

end PropStream

namespace Condition

theorem decodes_intervalInfo (info : IntervalInfo) :
    readIntervalInfo.Decodes (writeIntervalInfo info) (some info) := by
  refine decodes_readStruct ?_ ?_
  · exact (decodes_both (decodes_readInt32 info.timeLeft)
      (decodes_both (decodes_readInt32 info.value)
        (decodes_readInt32 info.interval))).map _
  · simp [writeIntervalInfo, writeInt]

theorem decodes_outfit (outfit : Outfit) :
    readOutfit.Decodes (writeOutfit outfit) (some outfit) := by
  refine decodes_readStruct ?_ ?_
  · exact (decodes_both (decodes_readUInt16 outfit.lookType)
      (decodes_both (decodes_readUInt16 outfit.lookTypeEx)
      (decodes_both (decodes_readUInt8 outfit.lookHead)
      (decodes_both (decodes_readUInt8 outfit.lookBody)
      (decodes_both (decodes_readUInt8 outfit.lookLegs)
      (decodes_both (decodes_readUInt8 outfit.lookFeet)
      (decodes_both (decodes_readUInt8 outfit.lookAddons)
        (decodes_readUInt8 outfit.padding)))))))).map _
  · simp [writeOutfit, writeInt]

/-! ## One attribute after another -/

/-- Reading the bytes turns `c` into `c'`, and the loop goes on with what follows. -/
def Reads (now : Int) (c : Condition) (bytes : List UInt8) (c' : Condition) : Prop :=
  ∀ rest, c.unserialize now (bytes ++ rest) = c'.unserialize now rest

variable {now : Int} {c c' c'' : Condition} {s s' : List UInt8}

theorem reads_nil : Reads now c [] c := fun _ => rfl

theorem Reads.append (h : Reads now c s c') (h' : Reads now c' s' c'') :
    Reads now c (s ++ s') c'' := by
  intro rest
  rw [List.append_assoc, h, h']

theorem reads_field {α : Type} (attr : ConditionAttr) {read : Reader (Option α)}
    {set : α → Condition} {value : α} (hcase : c.unserializeProp now attr = readField read set)
    (h : read.Decodes s (some value)) : Reads now c (attr.byte :: s) (set value) := by
  intro rest
  have hread : (readField read set).run (s ++ rest) = (some (set value), rest) :=
    (h.map fun value : Option α => value.map set) rest
  rw [List.cons_append, unserialize, if_neg attr.byte_ne_end, ConditionAttr.ofByte_byte]
  simp only [hcase, hread]

theorem unserialize_end (rest : List UInt8) :
    c.unserialize now (CONDITIONATTR_END :: rest) = (some c, rest) := by
  rw [unserialize, if_pos rfl]

/-! ### Arrays -/

/-- The values are read into the array from the front. -/
theorem reads_writeArray {n : Nat} (attr : ConditionAttr)
    (place : (Fin n → Int32) → Nat → Condition)
    (hcase : ∀ values k, (place values k).unserializeProp now attr =
      readField readInt32 fun value => place (setAt values k value) (k + 1))
    (values target : Fin n → Int32) :
    Reads now (place values 0) (writeArray attr target) (place target n) := by
  have hfrom : ∀ m k, k + m = n →
      Reads now (place (fun i => if i.val < k then target i else values i) k)
        (((List.finRange n).drop k).flatMap fun i => attr.write 4 (target i).toInt)
        (place target n) := by
    intro m
    induction m with
    | zero =>
      intro k hk
      have hk : k = n := hk
      subst hk
      have hall : (fun i : Fin k => if i.val < k then target i else values i) = target :=
        funext fun i => if_pos i.isLt
      rw [hall, List.drop_of_length_le (by simp)]
      exact reads_nil
    | succ m ih =>
      intro k hk
      have hlt : k < n := by omega
      have hset : setAt (fun i : Fin n => if i.val < k then target i else values i) k
          (target ⟨k, hlt⟩) = fun i => if i.val < k + 1 then target i else values i := by
        funext i
        by_cases hi : i.val = k
        · subst hi
          simp [setAt]
        · have hiff : i.val < k + 1 ↔ i.val < k := by omega
          simp [setAt, hi, hiff]
      have hstep := reads_field attr (hcase (fun i => if i.val < k then target i else values i) k)
        (decodes_readInt32 (target ⟨k, hlt⟩))
      rw [hset] at hstep
      rw [List.drop_eq_getElem_cons (by simpa using hlt), List.flatMap_cons,
        List.getElem_finRange]
      exact hstep.append (ih (k + 1) (by omega))
  have hnone : (fun i : Fin n => if i.val < 0 then target i else values i) = values :=
    funext fun i => if_neg (Nat.not_lt_zero _)
  have hall := hfrom n 0 (Nat.zero_add n)
  rwa [hnone] at hall

/-! ### Rounds -/

/-- A round that is read goes behind the others, and its whole interval to the ticks. -/
def restoreRound (now : Int) (c : Condition) (damageInfo : IntervalInfo) : Condition :=
  match c.data with
  | .damage data =>
    let c := { c with data := .damage { data with damageList := data.damageList ++ [damageInfo] } }
    if c.ticks ≠ -1 then c.setTicks now (c.ticks + damageInfo.interval) else c
  | _ => c

/-- The intervals of the rounds together. -/
def totalInterval (rounds : List IntervalInfo) : Int :=
  (rounds.map fun damageInfo => damageInfo.interval.toInt).sum

theorem restoreRound_eq {data : ConditionDamage} (hdata : c.data = .damage data)
    (damageInfo : IntervalInfo) :
    ∃ ticks endTime, restoreRound now c damageInfo =
        { c with
          ticks := ticks, endTime := endTime
          data := .damage { data with damageList := data.damageList ++ [damageInfo] } } ∧
      (c.ticks ≠ -1 → ticks = c.ticks + damageInfo.interval) := by
  unfold restoreRound
  rw [hdata]
  dsimp only
  split_ifs with hticks
  · exact ⟨_, _, rfl, fun _ => rfl⟩
  · exact ⟨_, _, rfl, fun h => absurd h hticks⟩

/-- The rounds come back, and the ticks are their intervals together. -/
theorem foldl_restoreRound (rounds : List IntervalInfo) {data : ConditionDamage}
    (hdata : c.data = .damage data) :
    ∃ ticks endTime, rounds.foldl (restoreRound now) c =
        { c with
          ticks := ticks, endTime := endTime
          data := .damage { data with damageList := data.damageList ++ rounds } } ∧
      ((∀ damageInfo ∈ rounds, 0 < damageInfo.interval.toInt) → 0 ≤ c.ticks.toInt →
        c.ticks.toInt + totalInterval rounds < 2 ^ 31 →
          ticks.toInt = c.ticks.toInt + totalInterval rounds) := by
  induction rounds generalizing c data with
  | nil =>
    refine ⟨c.ticks, c.endTime, ?_, fun _ _ _ => ?_⟩
    · rw [List.foldl_nil, List.append_nil, ← hdata]
    · simp [totalInterval]
  | cons damageInfo rounds ih =>
    obtain ⟨ticks, endTime, hround, hticks⟩ := @restoreRound_eq now c data hdata damageInfo
    obtain ⟨ticks', endTime', hrest, hticks'⟩ := @ih { c with
      ticks := ticks, endTime := endTime
      data := .damage { data with damageList := data.damageList ++ [damageInfo] } } _ rfl
    refine ⟨ticks', endTime', ?_, fun hpos hnonneg hlt => ?_⟩
    · rw [List.foldl_cons, hround, hrest]
      simp only [List.append_assoc, List.singleton_append]
    · have htotal : totalInterval (damageInfo :: rounds) =
          damageInfo.interval.toInt + totalInterval rounds := by simp [totalInterval]
      have hinterval := hpos damageInfo List.mem_cons_self
      have hrounds : ∀ r ∈ rounds, 0 < r.interval.toInt := fun r hr =>
        hpos r (List.mem_cons_of_mem _ hr)
      have hsum : 0 ≤ totalInterval rounds :=
        List.sum_nonneg fun n hn => by
          obtain ⟨r, hr, rfl⟩ := List.mem_map.mp hn
          exact (hrounds r hr).le
      have hne : c.ticks ≠ -1 := by
        rintro heq
        rw [heq] at hnonneg
        exact absurd hnonneg (by decide)
      rw [htotal] at hlt ⊢
      have hadd : ticks.toInt = c.ticks.toInt + damageInfo.interval.toInt := by
        rw [hticks hne, Int32.toInt_add]
        exact Int.bmod_eq_of_le_mul_two (by omega) (by omega)
      have hlast := hticks' hrounds (by dsimp only; omega) (by dsimp only; omega)
      dsimp only at hlast
      omega

theorem reads_rounds (rounds : List IntervalInfo) {data : ConditionDamage}
    (hdata : c.data = .damage data) :
    Reads now c (rounds.flatMap fun damageInfo =>
      ConditionAttr.intervalData.byte :: writeIntervalInfo damageInfo)
      (rounds.foldl (restoreRound now) c) := by
  induction rounds generalizing c data with
  | nil => exact reads_nil
  | cons damageInfo rounds ih =>
    have hcase : c.unserializeProp now .intervalData =
        readField readIntervalInfo fun damageInfo => restoreRound now c damageInfo := by
      unfold unserializeProp restoreRound
      rw [hdata]
    obtain ⟨ticks, endTime, hround, -⟩ := @restoreRound_eq now c data hdata damageInfo
    have hnext : (restoreRound now c damageInfo).data =
        .damage { data with damageList := data.damageList ++ [damageInfo] } := by
      rw [hround]
    rw [List.flatMap_cons, List.foldl_cons]
    exact (reads_field .intervalData hcase (decodes_intervalInfo damageInfo)).append (ih hnext)

/-! ## The header -/

theorem decodes_readHeader {α : Type} (attr : ConditionAttr) {read : Reader (Option α)}
    {s : List UInt8} {value : α} (h : read.Decodes s (some value)) :
    (readHeader attr read).Decodes (attr.byte :: s) (some value) := by
  intro rest
  have hbyte : readUInt8.run (attr.byte :: (s ++ rest)) = (some attr.byte, s ++ rest) := by
    have hwrite : writeInt 1 attr.byte.toNat = [attr.byte] := by cases attr <;> rfl
    have hread := decodes_readUInt8 attr.byte (s ++ rest)
    rwa [hwrite] at hread
  change ((readHeader attr read).run (attr.byte :: (s ++ rest))) = _
  unfold readHeader Reader.bind
  dsimp only
  rw [hbyte]
  dsimp only
  rw [if_pos rfl]
  exact h rest

theorem ofValue_value {type : ConditionType} (h : type.kind.isSome) :
    ConditionType.ofValue type.value = type := by
  cases type <;> first | rfl | cases h

theorem ne_zero_of_bool (b : Bool) : decide ((if b then (1 : UInt8) else 0) ≠ 0) = b := by
  cases b <;> rfl

/-- What `createCondition` makes of the header. -/
theorem decodes_readCondition {kind : ConditionKind} (h : c.conditionType.kind = some kind) :
    readCondition.Decodes c.baseSerialize
      (createCondition c.id c.conditionType c.ticks 0 c.isBuff c.subId c.aggressive) := by
  have hid : readInt32.Decodes (writeInt 4 c.id.toInt) (some c.id.toInt32) := by
    rw [← Int8.toInt_toInt32]
    exact decodes_readInt32 c.id.toInt32
  have hheader := decodes_both
    (decodes_readHeader .type (decodes_readUInt32 c.conditionType.value))
    (decodes_both (decodes_readHeader .id hid)
    (decodes_both (decodes_readHeader .ticks (decodes_readInt32 c.ticks))
    (decodes_both (decodes_readHeader .isBuff (decodes_readBool c.isBuff))
    (decodes_both (decodes_readHeader .subId (decodes_readUInt32 c.subId))
      (decodes_readHeader .isAggressive (decodes_readBool c.aggressive))))))
  have hread := hheader.map fun header =>
    header.bind fun p => createCondition p.2.1.toInt8 (.ofValue p.1) p.2.2.1 0 (p.2.2.2.1 ≠ 0)
      p.2.2.2.2.1 (p.2.2.2.2.2 ≠ 0)
  have hbytes : c.baseSerialize =
      ConditionAttr.type.write 4 c.conditionType.value.toNat ++
      (ConditionAttr.id.write 4 c.id.toInt ++ (ConditionAttr.ticks.write 4 c.ticks.toInt ++
      (ConditionAttr.isBuff.write 1 c.isBuff.toNat ++ (ConditionAttr.subId.write 4 c.subId.toNat ++
        ConditionAttr.isAggressive.write 1 c.aggressive.toNat)))) := by
    simp only [baseSerialize, List.append_assoc]
  have hkind : c.conditionType.kind.isSome := by rw [h]; rfl
  simp only [Option.bind_some, ofValue_value hkind, Int8.toInt8_toInt32, ne_zero_of_bool] at hread
  rw [hbytes]
  exact hread

/-! ## The data of a class -/

/-- What the stream has attributes for, with the rest as reading leaves it in a new condition. -/
def stored : ConditionData → ConditionData
  | .damage data =>
    .damage
      { delayed := data.delayed, periodDamage := data.periodDamage, damageList := data.damageList }
  | .regeneration data =>
    .regeneration
      { healthTicks := data.healthTicks, manaTicks := data.manaTicks
        healthGain := data.healthGain, manaGain := data.manaGain }
  | .soul data => .soul { soulTicks := data.soulTicks, soulGain := data.soulGain }
  | .attributes data =>
    .attributes
      { skills := data.skills, specialSkills := data.specialSkills, stats := data.stats
        disableDefense := data.disableDefense
        currentSkill := 7, currentStat := 4, currentSpecialSkill := 6 }
  | .drunk _ => newData 0 .drunk
  | data => data

theorem reads_damage (data : ConditionDamage) :
    ∃ ticks endTime, Reads now { c with data := .damage {} } (serializeData (.damage data))
        { c with ticks := ticks, endTime := endTime, data := stored (.damage data) } ∧
      ((∀ damageInfo ∈ data.damageList, 0 < damageInfo.interval.toInt) → c.ticks = 0 →
        totalInterval data.damageList < 2 ^ 31 →
          ticks.toInt = totalInterval data.damageList) := by
  have hdelayed : Reads now { c with data := .damage {} } _ _ :=
    reads_field .delayed rfl (decodes_readBool data.delayed)
  rw [ne_zero_of_bool] at hdelayed
  have hperiod := hdelayed.append
    (reads_field .periodDamage rfl (decodes_readInt32 data.periodDamage))
  obtain ⟨ticks, endTime, hfold, hticks⟩ := @foldl_restoreRound now { c with
    data := .damage { delayed := data.delayed, periodDamage := data.periodDamage } }
    data.damageList _ rfl
  have hrounds := hperiod.append (reads_rounds data.damageList rfl)
  rw [hfold] at hrounds
  refine ⟨ticks, endTime, ?_, fun hpos hzero hlt => ?_⟩
  · simpa [serializeData, ConditionAttr.write, stored] using hrounds
  · dsimp only at hticks
    rw [hzero] at hticks
    simpa using hticks hpos (by decide) (by simpa using hlt)

theorem reads_speed (data data' : ConditionSpeed) :
    Reads now { c with data := .speed data' } (serializeData (.speed data))
      { c with data := .speed data } := by
  have hdelta : Reads now { c with data := .speed data' } _ _ :=
    reads_field .speedDelta rfl (decodes_readInt32 data.speedDelta)
  have hmina := hdelta.append (reads_field .formulaMina rfl (decodes_readUInt32 data.mina))
  have hminb := hmina.append (reads_field .formulaMinb rfl (decodes_readUInt32 data.minb))
  have hmaxa := hminb.append (reads_field .formulaMaxa rfl (decodes_readUInt32 data.maxa))
  have hmaxb := hmaxa.append (reads_field .formulaMaxb rfl (decodes_readUInt32 data.maxb))
  simpa [serializeData, ConditionAttr.write] using hmaxb

theorem reads_outfit (outfit outfit' : Outfit) :
    Reads now { c with data := .outfit outfit' } (serializeData (.outfit outfit))
      { c with data := .outfit outfit } := by
  have hread : Reads now { c with data := .outfit outfit' } _ _ :=
    reads_field .outfit rfl (decodes_outfit outfit)
  exact hread

theorem reads_light (data data' : ConditionLight) :
    Reads now { c with data := .light data' } (serializeData (.light data))
      { c with data := .light data } := by
  have hcolor : Reads now { c with data := .light data' } _ _ :=
    reads_field .lightColor rfl (decodes_readUInt32 data.lightInfo.color.toUInt32)
  have hlevel := hcolor.append
    (reads_field .lightLevel rfl (decodes_readUInt32 data.lightInfo.level.toUInt32))
  have hticks := hlevel.append
    (reads_field .lightTicks rfl (decodes_readUInt32 data.internalLightTicks))
  have hinterval := hticks.append
    (reads_field .lightInterval rfl (decodes_readUInt32 data.lightChangeInterval))
  simpa [serializeData, ConditionAttr.write] using hinterval

theorem reads_regeneration (data : ConditionRegeneration) :
    Reads now { c with data := .regeneration {} } (serializeData (.regeneration data))
      { c with data := stored (.regeneration data) } := by
  have hhealth : Reads now { c with data := .regeneration {} } _ _ :=
    reads_field .healthTicks rfl (decodes_readUInt32 data.healthTicks)
  have hgain := hhealth.append (reads_field .healthGain rfl (decodes_readUInt32 data.healthGain))
  have hmana := hgain.append (reads_field .manaTicks rfl (decodes_readUInt32 data.manaTicks))
  have hall := hmana.append (reads_field .manaGain rfl (decodes_readUInt32 data.manaGain))
  simpa [serializeData, ConditionAttr.write, stored] using hall

theorem reads_soul (data : ConditionSoul) :
    Reads now { c with data := .soul {} } (serializeData (.soul data))
      { c with data := stored (.soul data) } := by
  have hgain : Reads now { c with data := .soul {} } _ _ :=
    reads_field .soulGain rfl (decodes_readUInt32 data.soulGain)
  have hticks := hgain.append (reads_field .soulTicks rfl (decodes_readUInt32 data.soulTicks))
  simpa [serializeData, ConditionAttr.write, stored] using hticks

theorem reads_attributes (data : ConditionAttributes) :
    Reads now { c with data := .attributes {} } (serializeData (.attributes data))
      { c with data := stored (.attributes data) } := by
  have hskills : Reads now _ _ _ := reads_writeArray .skills (fun skills k =>
    { c with data := .attributes { skills := skills, currentSkill := k } })
    (fun _ _ => rfl) (fun _ => 0) data.skills
  have hstats := hskills.append (reads_writeArray .stats (fun stats k =>
    { c with
      data := .attributes
        { skills := data.skills, currentSkill := 7, stats := stats, currentStat := k } })
    (fun _ _ => rfl) (fun _ => 0) data.stats)
  have hdefense := hstats.append
    (reads_field .disableDefense rfl (decodes_readBool data.disableDefense))
  rw [ne_zero_of_bool] at hdefense
  have hspecial := hdefense.append (reads_writeArray .specialSkills (fun special k =>
    { c with
      data := .attributes
        { skills := data.skills, currentSkill := 7, stats := data.stats, currentStat := 4
          disableDefense := data.disableDefense
          specialSkills := special, currentSpecialSkill := k } })
    (fun _ _ => rfl) (fun _ => 0) data.specialSkills)
  simpa [serializeData, ConditionAttr.write, stored] using hspecial

theorem kind_stored (data : ConditionData) : (stored data).kind = data.kind := by
  cases data <;> rfl

theorem stored_stored (data : ConditionData) : stored (stored data) = stored data := by
  cases data <;> rfl

/-- A new condition of the class gets the data back. -/
theorem reads_data (data : ConditionData) :
    ∃ ticks endTime, Reads now { c with data := newData 0 data.kind } (serializeData data)
        { c with ticks := ticks, endTime := endTime, data := stored data } ∧
      (data.kind ≠ .damage → ticks = c.ticks) ∧
      ∀ damage, data = .damage damage →
        (∀ damageInfo ∈ damage.damageList, 0 < damageInfo.interval.toInt) → c.ticks = 0 →
          totalInterval damage.damageList < 2 ^ 31 →
            ticks.toInt = totalInterval damage.damageList := by
  cases data with
  | damage data =>
    obtain ⟨ticks, endTime, hread, hticks⟩ := @reads_damage now c data
    refine ⟨ticks, endTime, hread, fun hkind => absurd rfl hkind, ?_⟩
    rintro damage ⟨⟩
    exact hticks
  | speed data => exact ⟨_, _, reads_speed data _, fun _ => rfl, nofun⟩
  | invisible => exact ⟨_, _, reads_nil, fun _ => rfl, nofun⟩
  | outfit outfit => exact ⟨_, _, reads_outfit outfit _, fun _ => rfl, nofun⟩
  | light data => exact ⟨_, _, reads_light data _, fun _ => rfl, nofun⟩
  | regeneration data => exact ⟨_, _, reads_regeneration data, fun _ => rfl, nofun⟩
  | soul data => exact ⟨_, _, reads_soul data, fun _ => rfl, nofun⟩
  | attributes data => exact ⟨_, _, reads_attributes data, fun _ => rfl, nofun⟩
  | drunk drunkenness => exact ⟨_, _, reads_nil, fun _ => rfl, nofun⟩
  | generic => exact ⟨_, _, reads_nil, fun _ => rfl, nofun⟩

/-! ## The states that conditions reach -/

def rounds : ConditionData → List IntervalInfo
  | .damage data => data.damageList
  | _ => []

/-- The type of the condition belongs to its class, and each round has an interval. -/
structure Sound (c : Condition) : Prop where
  kind : c.conditionType.kind = some c.data.kind
  positive : ∀ damageInfo ∈ rounds c.data, 0 < damageInfo.interval.toInt

/-- Neither the class nor the rounds change. -/
theorem Sound.of_same (h : c.Sound) (htype : c'.conditionType = c.conditionType)
    (hkind : c'.data.kind = c.data.kind) (hrounds : rounds c'.data = rounds c.data) : c'.Sound :=
  ⟨by rw [htype, hkind, h.kind], by rw [hrounds]; exact h.positive⟩

theorem sound_createCondition {id : Int8} {type : ConditionType} {ticks param : Int32} {buff : Bool}
    {subId : UInt32} {aggressive : Bool}
    (h : createCondition id type ticks param buff subId aggressive = some c) : c.Sound := by
  obtain ⟨kind, hkind, rfl⟩ := Option.map_eq_some_iff.mp h
  refine ⟨hkind.trans ?_, ?_⟩
  · cases kind <;> rfl
  · cases kind <;> exact nofun

theorem baseSetParam_same (param : ConditionParam) (value : Int32) :
    (c.baseSetParam param value).2.conditionType = c.conditionType ∧
      (c.baseSetParam param value).2.data = c.data := by
  cases param <;> exact ⟨rfl, rfl⟩

theorem Sound.baseSetParam (h : c.Sound) (param : ConditionParam) (value : Int32) :
    (c.baseSetParam param value).2.Sound := by
  obtain ⟨htype, hdata⟩ := @baseSetParam_same c param value
  exact h.of_same htype (by rw [hdata]) (by rw [hdata])

theorem Sound.setOwn {own : Option ConditionData} {base : Bool × Condition} (h : base.2.Sound)
    (hown : ∀ data, own = some data → data.kind = base.2.data.kind ∧ rounds data = []) :
    (setOwn own base).2.Sound := by
  cases own with
  | none => exact h
  | some data =>
    obtain ⟨hkind, hrounds⟩ := hown data rfl
    refine ⟨h.kind.trans (congrArg some hkind.symm), fun damageInfo hin => ?_⟩
    rw [Condition.setOwn, hrounds] at hin
    cases hin

theorem Sound.setParam (h : c.Sound) (param : ConditionParam) (value : Int32) :
    (c.setParam param value).2.Sound := by
  have hbase := h.baseSetParam param value
  have hdata := (@baseSetParam_same c param value).2
  have hown : ∀ {α : Type} (own : Option α) (of : α → ConditionData),
      (∀ a, (of a).kind = c.data.kind ∧ rounds (of a) = []) →
        (Condition.setOwn (own.map of) (c.baseSetParam param value)).2.Sound := by
    intro α own of hof
    refine hbase.setOwn fun data hsome => ?_
    obtain ⟨a, -, rfl⟩ := Option.map_eq_some_iff.mp hsome
    rw [hdata]
    exact hof a
  unfold Condition.setParam
  obtain ⟨id, type, ticks, endTime, subId, isBuff, aggressive, data⟩ := c
  cases data with
  | damage data => cases param <;> exact h.of_same rfl rfl rfl
  | speed data =>
    dsimp only
    split_ifs with hspeed hfast
    · exact ⟨rfl, nofun⟩
    · exact ⟨rfl, nofun⟩
    · exact hbase
  | light data =>
    dsimp only
    split_ifs
    · exact hbase
    · exact hown _ _ fun _ => ⟨rfl, rfl⟩
  | regeneration data => exact hown _ _ fun _ => ⟨rfl, rfl⟩
  | soul data => exact hown _ _ fun _ => ⟨rfl, rfl⟩
  | attributes data => exact hown _ _ fun _ => ⟨rfl, rfl⟩
  | drunk drunkenness =>
    refine hbase.setOwn fun data hsome => ?_
    split_ifs at hsome
    cases hsome
    rw [hdata]
    exact ⟨rfl, rfl⟩
  | invisible => exact hbase
  | outfit outfit => exact hbase
  | generic => exact hbase

theorem Sound.setOutfit (h : c.Sound) (outfit : Outfit) : (c.setOutfit outfit).Sound := by
  unfold Condition.setOutfit
  obtain ⟨id, type, ticks, endTime, subId, isBuff, aggressive, data⟩ := c
  cases data <;> exact h.of_same rfl rfl rfl

theorem Sound.setFormulaVars (h : c.Sound) (mina minb maxa maxb : UInt32) :
    (c.setFormulaVars mina minb maxa maxb).Sound := by
  unfold Condition.setFormulaVars
  obtain ⟨id, type, ticks, endTime, subId, isBuff, aggressive, data⟩ := c
  cases data <;> exact h.of_same rfl rfl rfl

theorem Sound.setInitDamage (h : c.Sound) (initDamage : Int32) :
    (c.setInitDamage initDamage).Sound := by
  unfold Condition.setInitDamage
  obtain ⟨id, type, ticks, endTime, subId, isBuff, aggressive, data⟩ := c
  cases data <;> exact h.of_same rfl rfl rfl

/-! ### Damage -/

/-- The condition, of the same class and type, has the rounds. -/
theorem Sound.of_rounds {data data' : ConditionDamage} (h : c.Sound) (hdata : c.data = .damage data)
    (htype : c'.conditionType = c.conditionType) (hdata' : c'.data = .damage data')
    (hrounds : ∀ damageInfo ∈ data'.damageList, 0 < damageInfo.interval.toInt) : c'.Sound := by
  refine ⟨?_, ?_⟩
  · rw [htype, h.kind, hdata, hdata']
    rfl
  · rw [hdata']
    exact hrounds

theorem Sound.of_damage {data : ConditionDamage} (h : c.Sound) (hdata : c.data = .damage data) :
    ∀ damageInfo ∈ data.damageList, 0 < damageInfo.interval.toInt := by
  have hpositive := h.positive
  rwa [hdata] at hpositive

theorem pushRound_eq {time value : Int32} {data : ConditionDamage} :
    (c.pushRound now time value data).conditionType = c.conditionType ∧
      (c.pushRound now time value data).data =
        .damage { data with damageList := data.damageList ++ [⟨time, value, time⟩] } := by
  unfold pushRound
  dsimp only
  split_ifs <;> exact ⟨rfl, rfl⟩

theorem Sound.pushRounds (h : c.Sound) {time : Int32} (htime : 0 < time.toInt) (value : Int32)
    (count : Nat) : (c.pushRounds now time value count).Sound := by
  induction count generalizing c with
  | zero => exact h
  | succ count ih =>
    unfold Condition.pushRounds
    cases hdata : c.data with
    | damage data =>
      obtain ⟨htype, hpushed⟩ := @pushRound_eq now c time value data
      refine ih (h.of_rounds hdata htype hpushed fun damageInfo hin => ?_)
      rcases List.mem_append.mp hin with hold | hnew
      · exact h.of_damage hdata damageInfo hold
      · rw [List.mem_singleton.mp hnew]
        exact htime
    | _ => exact h

theorem Sound.addDamage (h : c.Sound) (now : Int) (count time value : Int32) :
    (c.addDamage now count time value).Sound := by
  unfold Condition.addDamage
  cases hdata : c.data with
  | damage data =>
    have htime : 0 < (max time EVENT_CREATURE_THINK_INTERVAL).toInt :=
      lt_of_lt_of_le (by decide : 0 < EVENT_CREATURE_THINK_INTERVAL.toInt)
        (Int32.le_iff_toInt_le.mp (le_max_right_int32 _ _))
    dsimp only
    split_ifs
    · exact h.of_rounds hdata rfl rfl fun damageInfo hin => h.of_damage hdata damageInfo hin
    · exact h
    · exact h.pushRounds htime _ _
  | _ => exact h

theorem Sound.setTicks (h : c.Sound) (now : Int) (newTicks : Int32) :
    (c.setTicks now newTicks).Sound := h.of_same rfl rfl rfl

theorem Sound.foldl_addDamage (values : List Int32) (h : c.Sound) (now : Int) (time : Int32) :
    (values.foldl (fun c value => c.addDamage now 1 time (-value)) c).Sound := by
  induction values generalizing c with
  | nil => exact h
  | cons value values ih => exact ih (h.addDamage now 1 time (-value))

theorem Sound.init (h : c.Sound) (env : Surroundings) : (c.init env).2.Sound := by
  unfold Condition.init
  cases hdata : c.data with
  | damage data =>
    dsimp only
    split
    · exact h
    · split
      · exact h.setTicks _ _
      · refine Sound.foldl_addDamage _ ?_ _ _
        exact h.of_rounds hdata rfl rfl fun damageInfo hin => h.of_damage hdata damageInfo hin
  | _ => exact h

theorem Sound.takeDamage {condition : Condition} {data other : ConditionDamage} (h : c.Sound)
    (hdata : c.data = .damage data) (h' : condition.Sound)
    (hother : condition.data = .damage other) (env : Surroundings) :
    (c.takeDamage env condition data other).Sound := by
  unfold Condition.takeDamage
  dsimp only
  generalize htaken : Condition.init env _ = result
  have hinit : result.2.Sound := by
    rw [← htaken]
    refine Sound.init ?_ env
    exact h.of_rounds hdata rfl rfl fun damageInfo hin => h'.of_damage hother damageInfo hin
  split
  · exact hinit
  · cases hresult : result.2.data with
    | damage data' =>
      dsimp only
      cases hlist : data'.damageList with
      | nil => exact hinit
      | cons damageInfo rounds =>
        refine hinit.of_rounds hresult rfl rfl fun info hin => ?_
        have hall := hinit.of_damage hresult
        rw [hlist] at hall
        split at hin
        · exact hall info (List.mem_cons_of_mem _ hin)
        · rcases List.mem_cons.mp hin with rfl | hold
          · exact hall damageInfo List.mem_cons_self
          · exact hall info (List.mem_cons_of_mem _ hold)
    | _ => exact hinit

/-! ### Start, execution and addition -/

theorem Sound.startCondition (h : c.Sound) (env : Surroundings)
    (hstart : c.startCondition env = some c') : c'.Sound := by
  have hbase : (c.baseStartCondition env.now).Sound := by
    unfold baseStartCondition
    split_ifs
    · exact h.of_same rfl rfl rfl
    · exact h
  unfold Condition.startCondition at hstart
  generalize c.baseStartCondition env.now = base at hbase hstart
  obtain ⟨id, type, ticks, endTime, subId, isBuff, aggressive, data⟩ := base
  cases data with
  | damage data =>
    dsimp only at hstart
    split_ifs at hstart
    cases hstart
    exact hbase.init env
  | speed data => cases hstart; exact hbase.of_same rfl rfl rfl
  | light data => cases hstart; exact hbase.of_same rfl rfl rfl
  | attributes data => cases hstart; exact hbase.of_same rfl rfl rfl
  | invisible => cases hstart; exact hbase
  | outfit outfit => cases hstart; exact hbase
  | regeneration data => cases hstart; exact hbase
  | soul data => cases hstart; exact hbase
  | drunk drunkenness => cases hstart; exact hbase
  | generic => cases hstart; exact hbase

theorem Sound.baseExecuteCondition (h : c.Sound) (now : Int) (interval : Int32) :
    (c.baseExecuteCondition now interval).2.Sound := by
  unfold Condition.baseExecuteCondition
  split_ifs
  · exact h
  · exact h.of_same rfl rfl rfl

theorem Sound.executeCondition (h : c.Sound) (env : Surroundings) (interval : Int32) :
    (c.executeCondition env interval).2.Sound := by
  unfold Condition.executeCondition
  cases hdata : c.data with
  | damage data =>
    dsimp only
    unfold damageExecuteCondition
    split
    · refine Sound.baseExecuteCondition ?_ _ _
      exact h.of_rounds hdata rfl rfl fun damageInfo hin => h.of_damage hdata damageInfo hin
    · have hall := h.of_damage hdata
      cases hlist : data.damageList with
      | nil => exact h.baseExecuteCondition _ _
      | cons damageInfo rounds =>
        rw [hlist] at hall
        have hrounds : ∀ info ∈ (
            if damageInfo.timeLeft - interval ≤ 0 then
              if env.bRemove then rounds
              else { damageInfo with timeLeft := damageInfo.interval } :: rounds
            else { damageInfo with timeLeft := damageInfo.timeLeft - interval } :: rounds),
              0 < info.interval.toInt := by
          intro info hin
          split_ifs at hin
          · exact hall info (List.mem_cons_of_mem _ hin)
          all_goals
            rcases List.mem_cons.mp hin with rfl | hold
            · exact hall damageInfo List.mem_cons_self
            · exact hall info (List.mem_cons_of_mem _ hold)
        dsimp only
        cases hremove : env.bRemove with
        | true =>
          simp only [hremove, if_true] at hrounds ⊢
          refine Sound.baseExecuteCondition ?_ _ _
          exact h.of_rounds hdata rfl rfl hrounds
        | false =>
          simp only [hremove, Bool.false_eq_true, if_false] at hrounds ⊢
          refine Sound.baseExecuteCondition ?_ _ _
          exact h.of_rounds hdata rfl rfl hrounds
  | light data =>
    dsimp only
    refine Sound.baseExecuteCondition ?_ _ _
    refine h.of_same rfl ?_ ?_ <;> rw [hdata] <;> rfl
  | regeneration data =>
    dsimp only
    refine Sound.baseExecuteCondition ?_ _ _
    refine h.of_same rfl ?_ ?_ <;> rw [hdata] <;> rfl
  | soul data =>
    dsimp only
    refine Sound.baseExecuteCondition ?_ _ _
    refine h.of_same rfl ?_ ?_ <;> rw [hdata] <;> rfl
  | speed data => exact h.baseExecuteCondition _ _
  | invisible => exact h.baseExecuteCondition _ _
  | outfit outfit => exact h.baseExecuteCondition _ _
  | attributes data => exact h.baseExecuteCondition _ _
  | drunk drunkenness => exact h.baseExecuteCondition _ _
  | generic => exact h.baseExecuteCondition _ _

theorem Sound.addCondition {condition : Condition} (h : c.Sound) (h' : condition.Sound)
    (env : Surroundings) : (c.addCondition env condition).Sound := by
  have hupdated : ∀ data, data.kind = c.data.kind → rounds data = rounds c.data →
      Sound (if c.updateCondition env.now condition then
        { c.setTicks env.now condition.ticks with data := data } else c) := by
    intro data hkind hrounds
    split_ifs
    · exact h.of_same rfl hkind hrounds
    · exact h
  have hsame : ∀ data, c.data = data → data.kind = c.data.kind ∧ rounds data = rounds c.data := by
    rintro data rfl
    exact ⟨rfl, rfl⟩
  unfold Condition.addCondition
  cases hdata : c.data with
  | damage data =>
    cases hother : condition.data with
    | damage other =>
      dsimp only
      split_ifs
      · exact h
      · exact h.takeDamage hdata h' hother env
      · exact h
    | _ => exact h
  | speed data =>
    cases condition.data with
    | speed other =>
      dsimp only
      split_ifs
      · exact h
      · exact h
      all_goals exact h.of_same rfl (hsame _ hdata).1 (hsame _ hdata).2
    | _ => exact h
  | outfit outfit =>
    cases condition.data with
    | outfit other => exact hupdated _ (hsame _ hdata).1 (hsame _ hdata).2
    | _ => exact h
  | light data =>
    cases condition.data with
    | light other => exact hupdated _ (hsame _ hdata).1 (hsame _ hdata).2
    | _ => exact h
  | regeneration data =>
    cases condition.data with
    | regeneration other => exact hupdated _ (hsame _ hdata).1 (hsame _ hdata).2
    | _ => exact h
  | soul data =>
    cases condition.data with
    | soul other => exact hupdated _ (hsame _ hdata).1 (hsame _ hdata).2
    | _ => exact h
  | attributes data =>
    cases condition.data with
    | attributes other => exact hupdated _ (hsame _ hdata).1 (hsame _ hdata).2
    | _ => exact h
  | drunk drunkenness =>
    cases condition.data with
    | drunk other =>
      dsimp only
      split_ifs
      · exact h.setTicks _ _
      · exact h
    | _ => exact h
  | invisible =>
    cases condition.data with
    | invisible => exact hupdated _ (hsame _ hdata).1 (hsame _ hdata).2
    | _ => exact h
  | generic =>
    cases condition.data with
    | generic => exact hupdated _ (hsame _ hdata).1 (hsame _ hdata).2
    | _ => exact h

theorem Reachable.sound (h : Reachable c) : c.Sound := by
  induction h with
  | create h => exact sound_createCondition h
  | setParam _ param value ih => exact ih.setParam param value
  | setOutfit _ outfit ih => exact ih.setOutfit outfit
  | setFormulaVars _ mina minb maxa maxb ih => exact ih.setFormulaVars mina minb maxa maxb
  | setInitDamage _ initDamage ih => exact ih.setInitDamage initDamage
  | addDamage _ now count time value ih => exact ih.addDamage now count time value
  | start _ env hstart ih => exact ih.startCondition env hstart
  | execute _ env interval ih => exact ih.executeCondition env interval
  | add _ _ env ih ih' => exact ih.addCondition ih' env

/-! ## Conditions that come back -/

/-- The ticks come back unless the condition deals damage: then they are what the intervals of its
rounds are together. -/
structure Restored (c c' : Condition) : Prop where
  id : c'.id = c.id
  conditionType : c'.conditionType = c.conditionType
  subId : c'.subId = c.subId
  isBuff : c'.isBuff = c.isBuff
  aggressive : c'.aggressive = c.aggressive
  kind : c'.data.kind = c.data.kind
  data : stored c'.data = stored c.data
  ticks : c.data.kind ≠ .damage → c'.ticks = c.ticks
  damageTicks : ∀ damage, c.data = .damage damage →
    c.ticks.toInt = totalInterval damage.damageList → c'.ticks = c.ticks

/-- `createCondition` and `unserialize` give a condition and what is left of the stream. -/
def readBack (now : Int) (stream : List UInt8) : Option Condition × List UInt8 :=
  let header := readCondition.run stream
  match header.1 with
  | some c => c.unserialize now header.2
  | none => (none, header.2)

theorem Sound.readBack_eq (h : c.Sound) (now : Int) (rest : List UInt8) :
    ∃ ticks endTime, readBack now (c.serialize ++ CONDITIONATTR_END :: rest) =
        (some { c with ticks := ticks, endTime := endTime, data := stored c.data }, rest) ∧
      (c.data.kind ≠ .damage → ticks = c.ticks) ∧
      ∀ damage, c.data = .damage damage → c.ticks.toInt = totalInterval damage.damageList →
        ticks = c.ticks := by
  have hnew : createCondition c.id c.conditionType c.ticks 0 c.isBuff c.subId c.aggressive =
      some { c with
        ticks := if c.data.kind = .damage then 0 else c.ticks
        endTime := if (if c.data.kind = .damage then 0 else c.ticks) = -1 then 2 ^ 63 - 1 else 0
        data := newData 0 c.data.kind } := by
    rw [createCondition, h.kind]
    rfl
  obtain ⟨ticks, endTime, hread, hsame, hticks⟩ := @reads_data now { c with
    ticks := if c.data.kind = .damage then 0 else c.ticks
    endTime := if (if c.data.kind = .damage then 0 else c.ticks) = -1 then 2 ^ 63 - 1 else 0 }
    c.data
  refine ⟨ticks, endTime, ?_, fun hkind => ?_, fun damage hdamage htotal => ?_⟩
  · have hheader := decodes_readCondition h.kind
      (serializeData c.data ++ CONDITIONATTR_END :: rest)
    rw [hnew] at hheader
    rw [serialize, List.append_assoc, readBack, hheader]
    dsimp only
    exact (hread _).trans (unserialize_end rest)
  · exact (hsame hkind).trans (if_neg hkind)
  · have hkind : c.data.kind = .damage := by rw [hdamage]; rfl
    have hlt := c.ticks.toInt_lt
    rw [← Int32.toInt_inj, htotal]
    exact hticks damage hdamage (h.of_damage hdamage) (if_pos hkind) (by omega)

theorem Sound.restored (h : c.Sound) (now : Int) (rest : List UInt8) :
    ∃ c', readBack now (c.serialize ++ CONDITIONATTR_END :: rest) = (some c', rest) ∧
      Restored c c' := by
  obtain ⟨ticks, endTime, hread, hsame, hdamage⟩ := h.readBack_eq now rest
  exact ⟨_, hread, rfl, rfl, rfl, rfl, rfl, kind_stored c.data, stored_stored c.data, hsame,
    hdamage⟩

theorem loadConditions_of_readBack {stream rest : List UInt8}
    (h : readBack now stream = (some c', rest)) (storedConditionList : List Condition) :
    loadConditions now storedConditionList stream =
      loadConditions now (c' :: storedConditionList) rest := by
  unfold readBack at h
  dsimp only at h
  rw [loadConditions]
  split
  · rename_i hnone
    rw [hnone] at h
    cases h
  · rename_i c hsome
    rw [hsome] at h
    dsimp only at h ⊢
    rw [h]

theorem loadConditions_nil (storedConditionList : List Condition) :
    loadConditions now storedConditionList [] = storedConditionList := by
  rw [loadConditions]
  split
  · rfl
  · rename_i hsome
    cases hsome

/-- The conditions come back one after the other, the last one in front. -/
theorem loadConditions_saved (conditions storedConditionList : List Condition)
    (h : ∀ c ∈ conditions, c.Sound) :
    ∃ restored, List.Forall₂ Restored conditions restored ∧
      loadConditions now storedConditionList
          (conditions.flatMap fun condition => condition.serialize ++ [CONDITIONATTR_END]) =
        restored.reverse ++ storedConditionList := by
  induction conditions generalizing storedConditionList with
  | nil => exact ⟨[], .nil, loadConditions_nil _⟩
  | cons c conditions ih =>
    obtain ⟨c', hread, hrestored⟩ := (h c List.mem_cons_self).restored now
      (conditions.flatMap fun condition => condition.serialize ++ [CONDITIONATTR_END])
    obtain ⟨restored, hall, hload⟩ := ih (c' :: storedConditionList) fun d hd =>
      h d (List.mem_cons_of_mem _ hd)
    refine ⟨c' :: restored, .cons hrestored hall, ?_⟩
    rw [List.flatMap_cons, List.append_assoc, List.singleton_append,
      loadConditions_of_readBack hread, hload, List.reverse_cons, List.append_assoc,
      List.singleton_append]

theorem conditions_restored (now : Int) (conditions : List Condition)
    (h : ∀ c ∈ conditions, Reachable c) :
    (∀ c ∈ conditions, ∀ rest, ∃ c',
      readBack now (c.serialize ++ CONDITIONATTR_END :: rest) = (some c', rest) ∧ Restored c c') ∧
    ∃ restored, List.Forall₂ Restored (conditions.filter isPersistent) restored ∧
      loadConditions now [] (saveConditions conditions) = restored.reverse := by
  refine ⟨fun c hc rest => (h c hc).sound.restored now rest, ?_⟩
  obtain ⟨restored, hall, hload⟩ := @loadConditions_saved now (conditions.filter isPersistent) []
    fun c hc => (h c (List.mem_of_mem_filter hc)).sound
  exact ⟨restored, hall, hload.trans (List.append_nil _)⟩

def newFire : Condition where
  id := CONDITIONID_COMBAT
  conditionType := .fire
  ticks := 0
  endTime := 0
  subId := 0
  isBuff := false
  aggressive := true
  data := .damage {}

/-- A fire of one round, set by a creature. -/
def burningField : Condition := (newFire.setParam .owner 7).2.addDamage 0 1 2000 (-10)

theorem burningField_reachable : Reachable burningField := by
  have hnew : createCondition CONDITIONID_COMBAT .fire 0 0 false 0 true = some newFire := rfl
  exact ((Reachable.create hnew).setParam .owner 7).addDamage 0 1 2000 (-10)

theorem conditions_restored_burningField :
    (∀ c ∈ [burningField], ∀ rest, ∃ c',
      readBack 0 (c.serialize ++ CONDITIONATTR_END :: rest) = (some c', rest) ∧ Restored c c') ∧
    ∃ restored, List.Forall₂ Restored ([burningField].filter isPersistent) restored ∧
      loadConditions 0 [] (saveConditions [burningField]) = restored.reverse :=
  conditions_restored 0 [burningField] fun _ hc =>
    List.mem_singleton.mp hc ▸ burningField_reachable

/-- The parameters of a class, without what the object counts. -/
def parameters : ConditionData → ConditionData
  | .damage data => .damage { data with periodDamageTick := 0 }
  | .regeneration data =>
    .regeneration { data with internalHealthTicks := 0, internalManaTicks := 0 }
  | .soul data => .soul { data with internalSoulTicks := 0 }
  | .attributes data =>
    .attributes { data with currentSkill := 0, currentStat := 0, currentSpecialSkill := 0 }
  | data => data

/-- The owner of the fire is not saved. -/
theorem parameters_not_restored :
    ¬ ∀ (now : Int) (c : Condition) (rest : List UInt8), Reachable c → c.isPersistent →
      ∃ c', readBack now (c.serialize ++ CONDITIONATTR_END :: rest) = (some c', rest) ∧
        c'.ticks = c.ticks ∧ parameters c'.data = parameters c.data := by
  intro h
  obtain ⟨c', hread, -, hparameters⟩ := h 0 burningField [] burningField_reachable (by decide)
  obtain ⟨ticks, endTime, hread', -⟩ := burningField_reachable.sound.readBack_eq 0 []
  rw [hread'] at hread
  cases hread
  have howner : parameters (stored burningField.data) = parameters burningField.data := hparameters
  exact absurd howner (by decide)

end Condition

end Eloth
