import Eloth.Lib.Sha1
import Mathlib.Data.List.Basic
import Mathlib.Data.List.GetD

/-!
# Password hashes

`transformToSHA1` of `tools.cpp`. The input goes byte by byte into a block of 64 bytes, and the
length is counted in bits in two words.
-/

namespace Eloth

open Positional Sha1

/-! ## One block -/

def circularShift (bits value : UInt32) : UInt32 := (value <<< bits) ||| (value >>> (32 - bits))

def firstWords (messageBlock : List UInt8) : List UInt32 :=
  (List.range 16).map fun i =>
    let byte (j : Nat) : UInt32 := (messageBlock.getD (4 * i + j) 0).toUInt32
    (byte 0 <<< 24) ||| (byte 1 <<< 16) ||| (byte 2 <<< 8) ||| byte 3

def extendWords (W : List UInt32) (i : Nat) : List UInt32 :=
  W ++ [circularShift 1 (W.getD (i - 3) 0 ^^^ W.getD (i - 8) 0 ^^^ W.getD (i - 14) 0 ^^^
    W.getD (i - 16) 0)]

def messageWords (messageBlock : List UInt8) : List UInt32 :=
  (List.range' 16 64).foldl extendWords (firstWords messageBlock)

def sha1Round (mixed : UInt32 → UInt32 → UInt32 → UInt32) (constant : UInt32) (W : List UInt32)
    (r : Registers) (i : Nat) : Registers :=
  let tmp := circularShift 5 r.a + mixed r.b r.c r.d + r.e + W.getD i 0 + constant
  ⟨tmp, r.a, circularShift 30 r.b, r.c, r.d⟩

def processSHA1MessageBlock (messageBlock : List UInt8) (H : Registers) : Registers :=
  let W := messageWords messageBlock
  let r := (List.range' 0 20).foldl
    (sha1Round (fun b c d => (b &&& c) ||| (~~~b &&& d)) 0x5A827999 W) H
  let r := (List.range' 20 20).foldl (sha1Round (fun b c d => b ^^^ c ^^^ d) 0x6ED9EBA1 W) r
  let r := (List.range' 40 20).foldl
    (sha1Round (fun b c d => (b &&& c) ||| (b &&& d) ||| (c &&& d)) 0x8F1BBCDC W) r
  let r := (List.range' 60 20).foldl (sha1Round (fun b c d => b ^^^ c ^^^ d) 0xCA62C1D6 W) r
  ⟨H.a + r.a, H.b + r.b, H.c + r.c, H.d + r.d, H.e + r.e⟩

/-! ## The input -/

/-- The block holds the bytes up to the index. -/
structure Sha1State where
  H : Registers := ⟨0x67452301, 0xEFCDAB89, 0x98BADCFE, 0x10325476, 0xC3D2E1F0⟩
  messageBlock : List UInt8 := []
  length_low : UInt32 := 0
  length_high : UInt32 := 0

namespace Sha1State

def countByte (s : Sha1State) : Sha1State :=
  let s := { s with length_low := s.length_low + 8 }
  if s.length_low = 0 then { s with length_high := s.length_high + 1 } else s

def push (s : Sha1State) (ch : UInt8) : Sha1State :=
  let s := { s with messageBlock := s.messageBlock ++ [ch] }.countByte
  if s.messageBlock.length = 64 then
    { s with H := processSHA1MessageBlock s.messageBlock s.H, messageBlock := [] }
  else s

def fillZeros (block : List UInt8) (index : Nat) : List UInt8 :=
  block ++ List.replicate (index - block.length) 0

/-- A block with no room for the length is filled up and processed before the last one. -/
def makeRoom (s : Sha1State) : Sha1State :=
  if s.messageBlock.length > 56 then
    { s with H := processSHA1MessageBlock (fillZeros s.messageBlock 64) s.H, messageBlock := [] }
  else s

def lengthBytes (s : Sha1State) : List UInt8 :=
  [(s.length_high >>> 24).toUInt8, (s.length_high >>> 16).toUInt8,
    (s.length_high >>> 8).toUInt8, s.length_high.toUInt8,
    (s.length_low >>> 24).toUInt8, (s.length_low >>> 16).toUInt8,
    (s.length_low >>> 8).toUInt8, s.length_low.toUInt8]

def finish (s : Sha1State) : Registers :=
  let s := { s with messageBlock := s.messageBlock ++ [0x80] }.makeRoom
  processSHA1MessageBlock (fillZeros s.messageBlock 56 ++ s.lengthBytes) s.H

end Sha1State

/-- The character of the digit. -/
def ascii (c : Char) : UInt8 := UInt8.ofNat c.toNat

def hexDigits : List UInt8 := "0123456789abcdef".toList.map ascii

def hexByte (byte : UInt8) : List UInt8 :=
  [hexDigits.getD (byte >>> 4).toNat 0, hexDigits.getD (byte &&& 15).toNat 0]

def hashBytes (H : Registers) : List UInt8 :=
  (List.range 20).map fun hashByte =>
    (H.toList.getD (hashByte >>> 2) 0 >>> (((3 - UInt32.ofNat hashByte) &&& 3) <<< 3)).toUInt8

def transformToSHA1 (input : List UInt8) : List UInt8 :=
  (hashBytes (input.foldl Sha1State.push {}).finish).flatMap hexByte

example : transformToSHA1 ("abc".toList.map ascii) =
    "a9993e364706816aba3e25717850c26c9cd0d89d".toList.map ascii := by decide +kernel

/-! ## The message schedule -/

variable {block : List UInt8} {W : List UInt32} {i n : Nat}

theorem circularShift_eq_rotl (bits value : UInt32) : circularShift bits value = rotl bits value :=
  rfl

theorem or_shiftLeft_byte {v b k : Nat} (h : b < 2 ^ k) : v * 2 ^ k ||| b = v * 2 ^ k + b := by
  rw [← Nat.shiftLeft_eq, Nat.shiftLeft_add_eq_or_of_lt h]

theorem word_of_bytes (b0 b1 b2 b3 : UInt8) :
    ((b0.toUInt32 <<< 24) ||| (b1.toUInt32 <<< 16) ||| (b2.toUInt32 <<< 8) ||| b3.toUInt32) =
      UInt32.ofNat (value 256 [b0.toNat, b1.toNat, b2.toNat, b3.toNat]) := by
  have h0 := b0.toNat_lt
  have h1 := b1.toNat_lt
  have h2 := b2.toNat_lt
  have h3 := b3.toNat_lt
  have hvalue : value 256 [b0.toNat, b1.toNat, b2.toNat, b3.toNat] =
      b0.toNat * 2 ^ 24 + b1.toNat * 2 ^ 16 + b2.toNat * 2 ^ 8 + b3.toNat := by
    simp only [value, List.foldl_cons, List.foldl_nil]
    omega
  have hshift (b : UInt8) (k : UInt32) (hk : k.toNat ≤ 24) :
      (b.toUInt32 <<< k).toNat = b.toNat * 2 ^ k.toNat := by
    have hlt : b.toNat * 2 ^ k.toNat ≤ 255 * 2 ^ 24 :=
      Nat.mul_le_mul (by have := b.toNat_lt; omega) (Nat.pow_le_pow_right (by decide) hk)
    rw [UInt32.toNat_shiftLeft, UInt8.toNat_toUInt32, Nat.mod_eq_of_lt (by omega : k.toNat < 32),
      Nat.shiftLeft_eq, Nat.mod_eq_of_lt (by omega)]
  -- The bytes do not overlap, so that each of the disjunctions is a sum.
  have hor : b0.toNat * 2 ^ 24 ||| b1.toNat * 2 ^ 16 ||| b2.toNat * 2 ^ 8 ||| b3.toNat =
      b0.toNat * 2 ^ 24 + b1.toNat * 2 ^ 16 + b2.toNat * 2 ^ 8 + b3.toNat := by
    have hlow : b1.toNat * 2 ^ 16 < 2 ^ 24 := Nat.mul_lt_mul_of_pos_right h1 (by decide)
    have hnext : b2.toNat * 2 ^ 8 < 2 ^ 16 := Nat.mul_lt_mul_of_pos_right h2 (by decide)
    have htwo : b0.toNat * 2 ^ 24 + b1.toNat * 2 ^ 16 =
        (b0.toNat * 2 ^ 8 + b1.toNat) * 2 ^ 16 := by ring
    have hthree : (b0.toNat * 2 ^ 8 + b1.toNat) * 2 ^ 16 + b2.toNat * 2 ^ 8 =
        ((b0.toNat * 2 ^ 8 + b1.toNat) * 2 ^ 8 + b2.toNat) * 2 ^ 8 := by ring
    rw [or_shiftLeft_byte hlow, htwo, or_shiftLeft_byte hnext, hthree, or_shiftLeft_byte h3,
      ← hthree, ← htwo]
  apply UInt32.toNat_inj.mp
  rw [UInt32.toNat_or, UInt32.toNat_or, UInt32.toNat_or, hshift b0 24 (by decide),
    hshift b1 16 (by decide), hshift b2 8 (by decide), UInt8.toNat_toUInt32,
    UInt32.toNat_ofNat_of_lt' (by rw [hvalue, UInt32.size]; omega), hvalue]
  exact hor

theorem firstWords_getD (hblock : block.length = 64) (hi : i < 16) :
    (firstWords block).getD i 0 = wordAt block i := by
  have h0 : 4 * i < block.length := by omega
  have h1 : 4 * i + 1 < block.length := by omega
  have h2 : 4 * i + 2 < block.length := by omega
  have h3 : 4 * i + 3 < block.length := by omega
  have htake : (block.drop (4 * i)).take 4 =
      [block[4 * i], block[4 * i + 1], block[4 * i + 2], block[4 * i + 3]] := by
    rw [List.drop_eq_getElem_cons h0, List.drop_eq_getElem_cons h1,
      List.drop_eq_getElem_cons h2, List.drop_eq_getElem_cons h3]
    rfl
  rw [wordAt, htake, firstWords, List.getD_eq_getElem _ _ (by simpa using hi), List.getElem_map,
    List.getElem_range]
  simp only [List.map_cons, List.map_nil, ← word_of_bytes]
  rw [Nat.add_zero, List.getD_eq_getElem _ _ h0, List.getD_eq_getElem _ _ h1,
    List.getD_eq_getElem _ _ h2, List.getD_eq_getElem _ _ h3]

theorem schedule_of_ge (h : 16 ≤ i) : schedule block i =
    rotl 1 (schedule block (i - 3) ^^^ schedule block (i - 8) ^^^ schedule block (i - 14) ^^^
      schedule block (i - 16)) := by
  rw [schedule, if_neg (by omega)]

/-- The words hold the schedule as far as they go. -/
def Scheduled (block : List UInt8) (n : Nat) (W : List UInt32) : Prop :=
  W.length = n ∧ ∀ i < n, W.getD i 0 = schedule block i

theorem scheduled_firstWords (hblock : block.length = 64) :
    Scheduled block 16 (firstWords block) := by
  refine ⟨by simp [firstWords], fun i hi => ?_⟩
  rw [firstWords_getD hblock hi, schedule, if_pos hi]

theorem Scheduled.extendWords (h : Scheduled block n W) (hn : 16 ≤ n) :
    Scheduled block (n + 1) (extendWords W n) := by
  obtain ⟨hlength, hword⟩ := h
  refine ⟨by simp [Eloth.extendWords, hlength], fun i hi => ?_⟩
  rcases Nat.lt_or_ge i n with hlt | hge
  · rw [Eloth.extendWords, List.getD_append _ _ _ _ (hlength.symm ▸ hlt), hword i hlt]
  · obtain rfl : i = n := by omega
    rw [Eloth.extendWords, List.getD_append_right _ _ _ _ hlength.le, hlength, Nat.sub_self,
      List.getD_cons_zero, hword _ (by omega), hword _ (by omega), hword _ (by omega),
      hword _ (by omega), circularShift_eq_rotl, schedule_of_ge hn]

theorem scheduled_foldl (h : Scheduled block 16 W) (n : Nat) :
    Scheduled block (16 + n) ((List.range' 16 n).foldl Eloth.extendWords W) := by
  induction n with
  | zero => exact h
  | succ n ih =>
    rw [List.range'_1_concat, List.foldl_append]
    exact ih.extendWords (by omega)

theorem messageWords_getD (hblock : block.length = 64) (hi : i < 80) :
    (messageWords block).getD i 0 = schedule block i :=
  (scheduled_foldl (scheduled_firstWords hblock) 64).2 i hi

/-! ## Rounds -/

theorem choice_eq_Ch (x y z : UInt32) : (x &&& y) ||| (~~~x &&& z) = Ch x y z := by
  apply UInt32.toBitVec_inj.mp
  simp only [Ch, UInt32.toBitVec_or, UInt32.toBitVec_xor, UInt32.toBitVec_and,
    UInt32.toBitVec_not]
  ext i hi
  cases hx : x.toBitVec[i] <;> simp [hx]

theorem majority_eq_Maj (x y z : UInt32) :
    (x &&& y) ||| (x &&& z) ||| (y &&& z) = Maj x y z := by
  apply UInt32.toBitVec_inj.mp
  simp only [Maj, UInt32.toBitVec_or, UInt32.toBitVec_xor, UInt32.toBitVec_and]
  ext i hi
  cases hx : x.toBitVec[i] <;> cases hy : y.toBitVec[i] <;> simp [hx, hy]

/-- Twenty rounds with the function and the constant that belong to them. -/
theorem foldl_sha1Round {mixed : UInt32 → UInt32 → UInt32 → UInt32} {constant : UInt32}
    {start : Nat} (hblock : block.length = 64) (hstart : start + 20 ≤ 80)
    (hmixed : ∀ t, start ≤ t → t < start + 20 → mixed = f t ∧ constant = K t) (r : Registers) :
    (List.range' start 20).foldl (sha1Round mixed constant (messageWords block)) r =
      (List.range' start 20).foldl (step block) r := by
  refine List.foldl_ext _ _ _ fun r t ht => ?_
  obtain ⟨hle, hlt⟩ := List.mem_range'_1.mp ht
  obtain ⟨rfl, rfl⟩ := hmixed t hle hlt
  rw [sha1Round, step, messageWords_getD hblock (by omega), circularShift_eq_rotl,
    circularShift_eq_rotl, UInt32.add_assoc _ (schedule block t), UInt32.add_comm (schedule _ _),
    ← UInt32.add_assoc]

theorem processSHA1MessageBlock_eq (hblock : block.length = 64) (H : Registers) :
    processSHA1MessageBlock block H = compress H block := by
  have hrange : List.range 80 =
      List.range' 0 20 ++ List.range' 20 20 ++ List.range' 40 20 ++ List.range' 60 20 := by decide
  rw [processSHA1MessageBlock, compress, hrange, List.foldl_append, List.foldl_append,
    List.foldl_append]
  simp only [choice_eq_Ch, majority_eq_Maj]
  have hfirst (t : Nat) (_ : 0 ≤ t) (h : t < 20) : Ch = f t ∧ 0x5A827999 = K t := by
    simp [f, K, h]
  have hsecond (t : Nat) (h : 20 ≤ t) (h' : t < 40) : Parity = f t ∧ 0x6ED9EBA1 = K t := by
    simp [f, K, h', Nat.not_lt.mpr h]
  have hthird (t : Nat) (h : 40 ≤ t) (h' : t < 60) : Maj = f t ∧ 0x8F1BBCDC = K t := by
    simp [f, K, h', Nat.not_lt.mpr h, show ¬ t < 20 by omega]
  have hfourth (t : Nat) (h : 60 ≤ t) (_ : t < 80) : Parity = f t ∧ 0xCA62C1D6 = K t := by
    simp [f, K, Nat.not_lt.mpr h, show ¬ t < 20 by omega, show ¬ t < 40 by omega]
  rw [← foldl_sha1Round hblock (by decide) hfirst, ← foldl_sha1Round hblock (by decide) hsecond,
    ← foldl_sha1Round hblock (by decide) hthird, ← foldl_sha1Round hblock (by decide) hfourth]
  rfl

/-! ## The whole message -/

theorem bigEndian_word (w : UInt32) : bigEndian 4 w.toNat =
    [(w >>> 24).toUInt8, (w >>> 16).toUInt8, (w >>> 8).toUInt8, w.toUInt8] := by
  simp only [bigEndian, digits, List.nil_append, List.cons_append, List.map_cons, List.map_nil,
    List.cons.injEq, and_true]
  refine ⟨?_, ?_, ?_, ?_⟩ <;>
  · apply UInt8.toNat_inj.mp
    simp [UInt32.toNat_shiftRight, Nat.shiftRight_eq_div_pow, Nat.div_div_eq_div_mul]

theorem bigEndian_words (low high : UInt32) :
    bigEndian 8 (low.toNat + 2 ^ 32 * high.toNat) =
      bigEndian 4 high.toNat ++ bigEndian 4 low.toNat := by
  have hlow := low.toNat_lt
  have hhigh : (low.toNat + 2 ^ 32 * high.toNat) / 256 ^ 4 = high.toNat := by omega
  have hcongr : (low.toNat + 2 ^ 32 * high.toNat) % 256 ^ 4 = low.toNat % 256 ^ 4 := by omega
  rw [bigEndian, digits_add 256 4 4, hhigh, digits_congr hcongr, List.map_append]
  rfl

namespace Sha1State

variable {s : Sha1State} {m : List UInt8} {ch : UInt8}

/-- The whole blocks of the bytes are in the hash value, the rest in the block. -/
structure Holds (s : Sha1State) (m : List UInt8) : Prop where
  hashed : ∃ full, m = full ++ s.messageBlock ∧ 64 ∣ full.length ∧ s.H = hashBlocks full
  room : s.messageBlock.length < 64
  count : s.length_low.toNat + 2 ^ 32 * s.length_high.toNat = 8 * m.length

theorem holds_start : Holds {} [] := ⟨⟨[], rfl, ⟨0, rfl⟩, rfl⟩, by decide, rfl⟩

theorem countByte_of_carry (h : s.length_low + 8 = 0) : s.countByte =
    { s with length_low := s.length_low + 8, length_high := s.length_high + 1 } := if_pos h

theorem countByte_of_ne (h : s.length_low + 8 ≠ 0) :
    s.countByte = { s with length_low := s.length_low + 8 } := if_neg h

theorem countByte_H : s.countByte.H = s.H := by
  by_cases h : s.length_low + 8 = 0
  · rw [countByte_of_carry h]
  · rw [countByte_of_ne h]

theorem countByte_messageBlock : s.countByte.messageBlock = s.messageBlock := by
  by_cases h : s.length_low + 8 = 0
  · rw [countByte_of_carry h]
  · rw [countByte_of_ne h]

theorem countByte_count {length : Nat} (hlength : length + 1 < 2 ^ 61)
    (h : s.length_low.toNat + 2 ^ 32 * s.length_high.toNat = 8 * length) :
    s.countByte.length_low.toNat + 2 ^ 32 * s.countByte.length_high.toNat =
      8 * (length + 1) := by
  have hlow := s.length_low.toNat_lt
  have hadd : (s.length_low + 8).toNat = (s.length_low.toNat + 8) % 2 ^ 32 := UInt32.toNat_add _ _
  by_cases hzero : s.length_low + 8 = 0
  · have hhigh : (s.length_high + 1).toNat = (s.length_high.toNat + 1) % 2 ^ 32 :=
      UInt32.toNat_add _ _
    rw [countByte_of_carry hzero, hhigh, hadd]
    rw [hzero, UInt32.toNat_zero] at hadd
    omega
  · have hne : (s.length_low + 8).toNat ≠ 0 := fun h => hzero (UInt32.toNat_inj.mp h)
    rw [countByte_of_ne hzero]
    change (s.length_low + 8).toNat + 2 ^ 32 * s.length_high.toNat = _
    omega

theorem Holds.push (h : s.Holds m) (hlength : m.length + 1 < 2 ^ 61) :
    (s.push ch).Holds (m ++ [ch]) := by
  obtain ⟨⟨full, hm, hfull, hH⟩, hroom, hcount⟩ := h
  let t := { s with messageBlock := s.messageBlock ++ [ch] }.countByte
  have hblock : t.messageBlock = s.messageBlock ++ [ch] := countByte_messageBlock
  have htH : t.H = hashBlocks full := countByte_H.trans hH
  have htcount : t.length_low.toNat + 2 ^ 32 * t.length_high.toNat = 8 * (m ++ [ch]).length := by
    rw [List.length_append, List.length_singleton]
    exact countByte_count hlength hcount
  have hm' : m ++ [ch] = full ++ t.messageBlock := by rw [hblock, hm, List.append_assoc]
  have hpush : s.push ch = if t.messageBlock.length = 64 then
      { t with H := processSHA1MessageBlock t.messageBlock t.H, messageBlock := [] } else t := rfl
  rw [hpush]
  by_cases hcomplete : t.messageBlock.length = 64
  · rw [if_pos hcomplete]
    refine ⟨⟨full ++ t.messageBlock, ?_, ?_, ?_⟩, by simp, htcount⟩
    · rw [List.append_nil, hm']
    · rw [List.length_append, hcomplete]
      exact Nat.dvd_add hfull ⟨1, rfl⟩
    · rw [processSHA1MessageBlock_eq hcomplete, htH, hashBlocks_append hfull hcomplete]
  · rw [if_neg hcomplete]
    refine ⟨⟨full, hm', hfull, htH⟩, ?_, htcount⟩
    rw [hblock, List.length_append, List.length_singleton] at hcomplete ⊢
    omega

theorem holds_foldl (hlength : m.length < 2 ^ 61) :
    (m.foldl Sha1State.push {}).Holds m := by
  induction m using List.reverseRecOn with
  | nil => exact holds_start
  | append_singleton m ch ih =>
    rw [List.length_append, List.length_singleton] at hlength
    rw [List.foldl_append]
    exact (ih (by omega)).push hlength

theorem lengthBytes_eq (h : s.Holds m) : s.lengthBytes = bigEndian 8 (8 * m.length) := by
  rw [← h.count, bigEndian_words, bigEndian_word, bigEndian_word]
  rfl

theorem length_fillZeros {block : List UInt8} {index : Nat} (h : block.length ≤ index) :
    (fillZeros block index).length = index := by
  rw [fillZeros, List.length_append, List.length_replicate]
  omega

theorem makeRoom_of_gt (h : s.messageBlock.length > 56) : s.makeRoom =
    { s with
      H := processSHA1MessageBlock (fillZeros s.messageBlock 64) s.H
      messageBlock := [] } := if_pos h

theorem makeRoom_of_le (h : s.messageBlock.length ≤ 56) : s.makeRoom = s :=
  if_neg (Nat.not_lt.mpr h)

theorem Holds.finish (h : s.Holds m) : s.finish = hashBlocks (pad m) := by
  have hbytes := lengthBytes_eq h
  obtain ⟨⟨full, hm, hfull, hH⟩, hroom, -⟩ := h
  obtain ⟨q, hq⟩ := hfull
  have hlength : m.length = 64 * q + s.messageBlock.length := by
    rw [hm, List.length_append, hq]
  let t : Sha1State := { s with messageBlock := s.messageBlock ++ [0x80] }
  have ht : t.messageBlock.length = s.messageBlock.length + 1 := List.length_append
  have hfinish : s.finish = processSHA1MessageBlock
      (fillZeros t.makeRoom.messageBlock 56 ++ t.makeRoom.lengthBytes) t.makeRoom.H := rfl
  have hlast (block : List UInt8) (hblock : block.length ≤ 56) :
      (fillZeros block 56 ++ s.lengthBytes).length = 64 := by
    rw [List.length_append, length_fillZeros hblock]
    rfl
  rw [hfinish]
  by_cases hgt : t.messageBlock.length > 56
  · -- The rest and the length take two blocks.
    have hzeros : zeroCount m.length = 64 - t.messageBlock.length + 56 := by
      unfold zeroCount
      omega
    have hpad : pad m =
        full ++ fillZeros t.messageBlock 64 ++ (fillZeros [] 56 ++ s.lengthBytes) := by
      rw [pad, hzeros, hbytes, fillZeros, fillZeros, List.replicate_add, hm]
      simp [t]
    have hsecond : (fillZeros t.messageBlock 64).length = 64 := length_fillZeros (by omega)
    have htwo : 64 ∣ (full ++ fillZeros t.messageBlock 64).length := by
      rw [List.length_append, hsecond, hq]
      omega
    have hblock : t.makeRoom.messageBlock = [] := by rw [makeRoom_of_gt hgt]
    have hkept : t.makeRoom.lengthBytes = s.lengthBytes := by
      simp only [makeRoom_of_gt hgt, lengthBytes, t]
    have hhash : t.makeRoom.H = hashBlocks (full ++ fillZeros t.messageBlock 64) := by
      rw [makeRoom_of_gt hgt, hashBlocks_append ⟨q, hq⟩ hsecond, ← hH]
      exact processSHA1MessageBlock_eq hsecond s.H
    rw [hblock, hkept, hhash, hpad, processSHA1MessageBlock_eq (hlast [] (by decide)),
      hashBlocks_append htwo (hlast [] (by decide))]
  · have hle : t.messageBlock.length ≤ 56 := Nat.not_lt.mp hgt
    have hzeros : zeroCount m.length = 56 - t.messageBlock.length := by
      unfold zeroCount
      omega
    have hpad : pad m = full ++ (fillZeros t.messageBlock 56 ++ s.lengthBytes) := by
      rw [pad, hzeros, hbytes, fillZeros, hm]
      simp [t]
    have hkept : t.lengthBytes = s.lengthBytes := rfl
    have hhash : t.H = hashBlocks full := hH
    rw [makeRoom_of_le hle, hkept, hhash, hpad, processSHA1MessageBlock_eq (hlast _ hle),
      hashBlocks_append ⟨q, hq⟩ (hlast _ hle)]

end Sha1State

theorem hashBytes_eq (H : Registers) : hashBytes H = H.bytes := by
  simp only [Registers.bytes, bigEndian_word]
  rfl

theorem hexDigits_getD {d : Nat} (h : d < 16) : hexDigits.getD d 0 = ascii (Nat.digitChar d) := by
  revert d
  decide

theorem hexByte_eq (byte : UInt8) :
    hexByte byte = ((digits 16 2 byte.toNat).map Nat.digitChar).map ascii := by
  have hlt := byte.toNat_lt
  have hhigh : (byte >>> 4).toNat = byte.toNat / 16 % 16 := by
    have hshift : (byte >>> 4).toNat = byte.toNat >>> 4 := UInt8.toNat_shiftRight _ _
    rw [hshift, Nat.shiftRight_eq_div_pow]
    omega
  have hlow : (byte &&& 15).toNat = byte.toNat % 16 := by
    rw [UInt8.toNat_and]
    exact Nat.and_two_pow_sub_one_eq_mod byte.toNat 4
  rw [hexByte, hhigh, hlow, hexDigits_getD (Nat.mod_lt _ (by decide)),
    hexDigits_getD (Nat.mod_lt _ (by decide))]
  rfl

theorem transformToSHA1_eq (input : List UInt8) (h : input.length < 2 ^ 61) :
    transformToSHA1 input = (hexadecimal (digest input)).map ascii := by
  rw [transformToSHA1, (Sha1State.holds_foldl h).finish, hashBytes_eq, hexadecimal,
    List.map_flatMap, digest]
  exact congrArg (List.flatMap · _) (funext hexByte_eq)

/-- The rest of the block leaves no room for the length. -/
theorem transformToSHA1_fifty_six : transformToSHA1 (List.replicate 56 97) =
    (hexadecimal (digest (List.replicate 56 97))).map ascii :=
  transformToSHA1_eq _ (by decide)

end Eloth
