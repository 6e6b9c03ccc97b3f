import Eloth.Lib.Buffer

/-!
# XTEA

The cipher of the frames, on blocks of two 32-bit words. Every pair of rounds goes over all
blocks before the next pair begins.
-/

namespace Eloth.Xtea

open LittleEndian

abbrev delta : UInt32 := 0x9E3779B9

abbrev Key := Fin 4 → UInt32

/-- The round keys, two for each pair of rounds. -/
abbrev RoundKeys := List (UInt32 × UInt32)

abbrev Block := UInt32 × UInt32

local instance neZero_keys : NeZero 4 := ⟨by decide⟩

def keyAt (k : Key) (i : UInt32) : UInt32 := k (Fin.ofNat 4 i.toNat)

def expandLoop (k : Key) : Nat → UInt32 → UInt32 → RoundKeys
  | 0, _, _ => []
  | n + 1, sum, nextSum =>
    (sum + keyAt k (sum &&& 3), nextSum + keyAt k ((nextSum >>> 11) &&& 3)) ::
      expandLoop k n nextSum (nextSum + delta)

def expand_key (k : Key) : RoundKeys := expandLoop k 32 0 (0 + delta)

def readBlock (data : Buffer) (j : Nat) : Block := (data.word32 j, data.word32 (j + 4))

def writeBlock (data : Buffer) (j : Nat) (block : Block) : Buffer :=
  data.write j (bytes32 block.1 ++ bytes32 block.2)

def applyBlocks (data : Buffer) (start : Nat) (round : Block → Block) : Nat → Buffer
  | 0 => data
  | n + 1 =>
    let data := applyBlocks data start round n
    writeBlock data (start + 8 * n) (round (readBlock data (start + 8 * n)))

/-- A length that is no multiple of eight takes in the rest of the last block. -/
def blockCount (length : Nat) : Nat := (length + 7) / 8

def apply_rounds (data : Buffer) (start length : Nat) (round : Block → Block) : Buffer :=
  applyBlocks data start round (blockCount length)

def encryptRound (k : UInt32 × UInt32) : Block → Block := fun (left, right) =>
  let left := left + ((((right <<< 4) ^^^ (right >>> 5)) + right) ^^^ k.1)
  let right := right + ((((left <<< 4) ^^^ (left >>> 5)) + left) ^^^ k.2)
  (left, right)

def decryptRound (k : UInt32 × UInt32) : Block → Block := fun (left, right) =>
  let right := right - ((((left <<< 4) ^^^ (left >>> 5)) + left) ^^^ k.2)
  let left := left - ((((right <<< 4) ^^^ (right >>> 5)) + right) ^^^ k.1)
  (left, right)

def encrypt (data : Buffer) (start length : Nat) (k : RoundKeys) : Buffer :=
  k.foldl (fun data keys => apply_rounds data start length (encryptRound keys)) data

def decrypt (data : Buffer) (start length : Nat) (k : RoundKeys) : Buffer :=
  k.reverse.foldl (fun data keys => apply_rounds data start length (decryptRound keys)) data

/-! ## Blocks -/

variable {data data' : Buffer} {start length j p n i : Nat} {block : Block} {round : Block → Block}

theorem readBlock_congr (h : ∀ q, j ≤ q → q < j + 8 → data q = data' q) :
    readBlock data j = readBlock data' j := by
  simp only [readBlock, Buffer.word32]
  rw [h j, h (j + 1), h (j + 2), h (j + 3), h (j + 4), h (j + 4 + 1), h (j + 4 + 2),
    h (j + 4 + 3)] <;> omega

theorem writeBlock_of_lt (h : p < j) : writeBlock data j block p = data p := Buffer.write_of_lt h

theorem writeBlock_of_ge (h : j + 8 ≤ p) : writeBlock data j block p = data p :=
  Buffer.write_of_ge h

theorem readBlock_writeBlock : readBlock (writeBlock data j block) j = block := by
  have hbytes : ∀ i (h : i < 8), writeBlock data j block (j + i) =
      (bytes32 block.1 ++ bytes32 block.2)[i] := fun i h => Buffer.write_add h
  have h0 := hbytes 0 (by decide)
  rw [Nat.add_zero] at h0
  simp only [readBlock, Buffer.word32, Nat.add_assoc, Nat.reduceAdd]
  rw [h0, hbytes 1 (by decide), hbytes 2 (by decide), hbytes 3 (by decide), hbytes 4 (by decide),
    hbytes 5 (by decide), hbytes 6 (by decide), hbytes 7 (by decide)]
  exact Prod.ext (word32_bytes block.1) (word32_bytes block.2)

theorem readBlock_writeBlock_of_le (h : p + 8 ≤ j) :
    readBlock (writeBlock data j block) p = readBlock data p :=
  readBlock_congr fun _ _ hq => writeBlock_of_lt (by omega)

theorem eq_of_readBlock (h : readBlock data j = readBlock data' j) (hp : j ≤ p)
    (hlt : p < j + 8) : data p = data' p := by
  have hleft := word32_injective (congrArg Prod.fst h)
  have hright := word32_injective (congrArg Prod.snd h)
  simp only [List.cons.injEq, and_true] at hleft hright
  obtain ⟨i, rfl⟩ := Nat.exists_eq_add_of_le hp
  have hi : i < 8 := by omega
  interval_cases i
  · exact hleft.1
  · exact hleft.2.1
  · exact hleft.2.2.1
  · exact hleft.2.2.2
  · exact hright.1
  · exact hright.2.1
  · exact hright.2.2.1
  · exact hright.2.2.2

/-! ## Rounds over all blocks -/

theorem applyBlocks_of_ge (h : start + 8 * n ≤ p) : applyBlocks data start round n p = data p := by
  induction n with
  | zero => rfl
  | succ n ih => rw [applyBlocks, writeBlock_of_ge (by omega), ih (by omega)]

theorem readBlock_applyBlocks (h : i < n) :
    readBlock (applyBlocks data start round n) (start + 8 * i) =
      round (readBlock data (start + 8 * i)) := by
  induction n with
  | zero => omega
  | succ n ih =>
    rw [applyBlocks]
    by_cases hi : i = n
    · subst hi
      rw [readBlock_writeBlock, readBlock_congr fun q hq _ => applyBlocks_of_ge hq]
    · rw [readBlock_writeBlock_of_le (by omega), ih (by omega)]

def encryptBlock (k : RoundKeys) (block : Block) : Block :=
  k.foldl (fun block keys => encryptRound keys block) block

def decryptBlock (k : RoundKeys) (block : Block) : Block :=
  k.reverse.foldl (fun block keys => decryptRound keys block) block

theorem readBlock_foldl (round : UInt32 × UInt32 → Block → Block) (k : RoundKeys)
    (h : i < blockCount length) :
    readBlock (k.foldl (fun data keys => apply_rounds data start length (round keys)) data)
        (start + 8 * i) =
      k.foldl (fun block keys => round keys block) (readBlock data (start + 8 * i)) := by
  induction k generalizing data with
  | nil => rfl
  | cons keys k ih =>
    rw [List.foldl_cons, ih, List.foldl_cons, apply_rounds, readBlock_applyBlocks h]

theorem readBlock_encrypt (k : RoundKeys) (h : i < blockCount length) :
    readBlock (encrypt data start length k) (start + 8 * i) =
      encryptBlock k (readBlock data (start + 8 * i)) := readBlock_foldl encryptRound k h

theorem readBlock_decrypt (k : RoundKeys) (h : i < blockCount length) :
    readBlock (decrypt data start length k) (start + 8 * i) =
      decryptBlock k (readBlock data (start + 8 * i)) := readBlock_foldl decryptRound k.reverse h

theorem decryptRound_encryptRound (keys : UInt32 × UInt32) (block : Block) :
    decryptRound keys (encryptRound keys block) = block := by
  obtain ⟨left, right⟩ := block
  simp only [encryptRound, decryptRound, UInt32.add_sub_cancel]

theorem decryptBlock_encryptBlock (k : RoundKeys) (block : Block) :
    decryptBlock k (encryptBlock k block) = block := by
  unfold decryptBlock encryptBlock
  induction k generalizing block with
  | nil => rfl
  | cons keys k ih =>
    simp only [List.reverse_cons, List.foldl_append, List.foldl_cons, List.foldl_nil, ih,
      decryptRound_encryptRound]

theorem decrypt_of_agree {k : RoundKeys} (hlength : 8 ∣ length)
    (hagree : ∀ p, start ≤ p → p < start + length → data' p = encrypt data start length k p)
    (hp : start ≤ p) (hlt : p < start + length) : decrypt data' start length k p = data p := by
  obtain ⟨n, rfl⟩ := hlength
  have hcount : blockCount (8 * n) = n := by
    unfold blockCount
    omega
  have hi : (p - start) / 8 < n := by omega
  have hblock : readBlock (decrypt data' start (8 * n) k) (start + 8 * ((p - start) / 8)) =
      readBlock data (start + 8 * ((p - start) / 8)) := by
    rw [readBlock_decrypt k (by rwa [hcount]),
      readBlock_congr fun q hq hqlt => hagree q (by omega) (by omega),
      readBlock_encrypt k (by rwa [hcount]), decryptBlock_encryptBlock]
  exact eq_of_readBlock hblock (by omega) (by omega)

end Eloth.Xtea
