import Eloth.Frame
import Eloth.Lib.Adler

/-!
# The checksum of a frame

`adlerChecksum` reduces its sums after chunks of 5552 bytes, which is as long as 32 bits are sure
to hold them.
-/

namespace Eloth

variable {data : List UInt8} {a b : UInt32}

/-- The sums of a chunk over residues have room in 32 bits. -/
theorem sums_lt (hlength : data.length ≤ 5552) (ha : a.toNat < 65521) (hb : b.toNat < 65521) :
    (Adler.sums data (a.toNat, b.toNat)).1 < 2 ^ 32 ∧
      (Adler.sums data (a.toNat, b.toNat)).2 < 2 ^ 32 := by
  obtain ⟨hfirst, hsecond⟩ := Adler.sums_le data (a.toNat, b.toNat)
  have hquadratic : data.length * (data.length + 1) ≤ 5552 * 5553 :=
    Nat.mul_le_mul hlength (by omega)
  have hlinear : 2 * data.length * a.toNat ≤ 2 * 5552 * 65520 :=
    Nat.mul_le_mul (by omega) (by omega)
  dsimp only at hfirst hsecond
  omega

theorem adlerSum_snoc (data : List UInt8) (byte : UInt8) (a b : UInt32) :
    adlerSum (data ++ [byte]) a b =
      ((adlerSum data a b).1 + byte.toUInt32,
        (adlerSum data a b).2 + ((adlerSum data a b).1 + byte.toUInt32)) := by
  rw [adlerSum, List.foldl_append]
  rfl

/-- No addition of the inner loop wraps. -/
theorem adlerSum_toNat (hlength : data.length ≤ 5552) (ha : a.toNat < 65521)
    (hb : b.toNat < 65521) :
    ((adlerSum data a b).1.toNat, (adlerSum data a b).2.toNat) =
      Adler.sums data (a.toNat, b.toNat) := by
  induction data using List.reverseRecOn with
  | nil => rfl
  | append_singleton data byte ih =>
    obtain ⟨hfirst, hsecond⟩ := sums_lt hlength ha hb
    rw [Adler.sums_snoc] at hfirst hsecond ⊢
    rw [List.length_append, List.length_singleton] at hlength
    rw [← ih (by omega)] at hfirst hsecond ⊢
    rw [adlerSum_snoc]
    dsimp only at hfirst hsecond ⊢
    rw [UInt32.toNat_add, UInt32.toNat_add, UInt32.toNat_add, UInt8.toNat_toUInt32,
      Nat.mod_eq_of_lt hfirst, Nat.mod_eq_of_lt hsecond]

theorem adlerLoop_cons (byte : UInt8) (rest : List UInt8) (a b : UInt32) :
    adlerLoop (byte :: rest) a b = adlerLoop ((byte :: rest).drop 5552)
      ((adlerSum ((byte :: rest).take 5552) a b).1 % 65521)
      ((adlerSum ((byte :: rest).take 5552) a b).2 % 65521) := by
  rw [adlerLoop]

/-- Chunk by chunk the loop ends with the sums that were reduced after every byte. -/
theorem adlerLoop_toNat (data : List UInt8) (ha : a.toNat < 65521) (hb : b.toNat < 65521) :
    ((adlerLoop data a b).1.toNat, (adlerLoop data a b).2.toNat) =
      data.foldl Adler.step (a.toNat, b.toNat) := by
  induction hlength : data.length using Nat.strong_induction_on generalizing data a b with
  | _ length ih =>
    cases data with
    | nil =>
      rw [adlerLoop]
      rfl
    | cons byte rest =>
      have hchunk := @adlerSum_toNat ((byte :: rest).take 5552) a b
        (by rw [List.length_take]; omega) ha hb
      have hdrop : ((byte :: rest).drop 5552).length < length := by
        rw [← hlength, List.length_drop, List.length_cons]
        omega
      have hmod (v : UInt32) : (v % 65521).toNat = v.toNat % 65521 := UInt32.toNat_mod _ _
      have hreduced := Adler.foldl_step ((byte :: rest).take 5552) (a.toNat, b.toNat)
      rw [Nat.mod_eq_of_lt ha, Nat.mod_eq_of_lt hb, ← hchunk] at hreduced
      have hresidue (v : UInt32) : (v % 65521).toNat < 65521 := hmod v ▸ Nat.mod_lt _ (by decide)
      rw [adlerLoop_cons, ih _ hdrop _ (hresidue _) (hresidue _) rfl, hmod, hmod]
      rw [← List.take_append_drop 5552 (byte :: rest), List.foldl_append, hreduced,
        List.take_append_drop]

theorem foldl_step_lt {s : ℕ × ℕ} (h : s.1 < 65521 ∧ s.2 < 65521) (data : List UInt8) :
    (data.foldl Adler.step s).1 < 65521 ∧ (data.foldl Adler.step s).2 < 65521 := by
  induction data generalizing s with
  | nil => exact h
  | cons byte data ih => exact ih ⟨Nat.mod_lt _ (by decide), Nat.mod_lt _ (by decide)⟩

theorem adlerChecksum_toNat (h : data.length ≤ NETWORKMESSAGE_MAXSIZE) :
    (adlerChecksum data).toNat = Adler.adler32 data := by
  have hloop := @adlerLoop_toNat 1 0 data (by decide) (by decide)
  obtain ⟨hfirst, hsecond⟩ := foldl_step_lt (by decide) data (s := (1, 0))
  have hstart : ((1 : UInt32).toNat, (0 : UInt32).toNat) = (1, 0) := rfl
  rw [hstart] at hloop
  rw [← hloop] at hfirst hsecond
  rw [adlerChecksum, if_neg (Nat.not_lt.mpr h), Adler.adler32, ← hloop]
  generalize adlerLoop data 1 0 = sums at hfirst hsecond
  obtain ⟨a, b⟩ := sums
  dsimp only at hfirst hsecond ⊢
  have hshift : (b <<< 16).toNat = b.toNat <<< 16 := by
    have hmod : (b <<< 16).toNat = b.toNat <<< 16 % 2 ^ 32 := UInt32.toNat_shiftLeft _ _
    rw [hmod, Nat.shiftLeft_eq, Nat.mod_eq_of_lt (by omega)]
  rw [UInt32.toNat_or, hshift, ← Nat.shiftLeft_add_eq_or_of_lt (by omega), Nat.shiftLeft_eq]

/-- Within a chunk the sums are those of the integers, and the checksum is Adler-32. -/
theorem adlerChecksum_eq_adler32 :
    (∀ (data : List UInt8) (a b : UInt32), data.length ≤ 5552 → a.toNat < 65521 →
      b.toNat < 65521 → ∀ front back, data = front ++ back →
        ((adlerSum front a b).1.toNat, (adlerSum front a b).2.toNat) =
          Adler.sums front (a.toNat, b.toNat)) ∧
    ∀ data : List UInt8, data.length ≤ NETWORKMESSAGE_MAXSIZE →
      (adlerChecksum data).toNat = Adler.adler32 data := by
  refine ⟨?_, fun data h => adlerChecksum_toNat h⟩
  rintro _ a b hlength ha hb front back rfl
  rw [List.length_append] at hlength
  exact adlerSum_toNat (by omega) ha hb

theorem adlerChecksum_eq_adler32_bytes : (adlerChecksum [1, 2, 3]).toNat = Adler.adler32 [1, 2, 3] :=
  adlerChecksum_eq_adler32.2 [1, 2, 3] (by decide)

end Eloth
