import Eloth.Lib.TextbookXtea
import Eloth.Xtea

/-!
# XTEA block by block

The round keys computed ahead and the passes over the whole buffer make no difference: every
block comes out as the published cipher of 32 cycles gives it under the plain key.
-/

namespace Eloth.Xtea

variable {data : Buffer} {start length p : Nat}

/-! ## One block -/

theorem foldl_expandLoop (key : Key) (n : Nat) (sum : UInt32) (block : Block) :
    (expandLoop key n sum (sum + delta)).foldl (fun block keys => encryptRound keys block) block =
      (((TextbookXtea.cycle key)^[n] ⟨block.1, block.2, sum⟩).v0,
        ((TextbookXtea.cycle key)^[n] ⟨block.1, block.2, sum⟩).v1) := by
  induction n generalizing sum block with
  | zero => rfl
  | succ n ih =>
    -- The next sum of one pair of rounds is the sum of the following pair.
    rw [expandLoop, List.foldl_cons, ih, Function.iterate_succ_apply]
    rfl

theorem encryptBlock_expand_key (key : Key) (block : Block) :
    encryptBlock (expand_key key) block = TextbookXtea.encipher 32 key block :=
  foldl_expandLoop key 32 0 block

/-! ## Outside the blocks -/

theorem applyBlocks_of_lt {round : Block → Block} (n : Nat) (h : p < start) :
    applyBlocks data start round n p = data p := by
  induction n with
  | zero => rfl
  | succ n ih => rw [applyBlocks, writeBlock_of_lt (by omega), ih]

theorem foldl_apply_rounds_outside (round : UInt32 × UInt32 → Block → Block) (k : RoundKeys)
    (h : p < start ∨ start + 8 * blockCount length ≤ p) :
    k.foldl (fun data keys => apply_rounds data start length (round keys)) data p = data p := by
  induction k generalizing data with
  | nil => rfl
  | cons keys k ih =>
    rw [List.foldl_cons, ih, apply_rounds]
    exact h.elim (applyBlocks_of_lt _) applyBlocks_of_ge

theorem decrypt_encrypt (k : RoundKeys) (h : 8 ∣ length) :
    decrypt (encrypt data start length k) start length k = data := by
  obtain ⟨n, rfl⟩ := h
  have hcount : blockCount (8 * n) = n := by
    unfold blockCount
    omega
  funext p
  by_cases hp : start ≤ p ∧ p < start + 8 * n
  · exact decrypt_of_agree ⟨n, rfl⟩ (fun _ _ _ => rfl) hp.1 hp.2
  · have houtside : p < start ∨ start + 8 * blockCount (8 * n) ≤ p := by
      rw [hcount]
      omega
    rw [decrypt, foldl_apply_rounds_outside decryptRound _ houtside, encrypt,
      foldl_apply_rounds_outside encryptRound _ houtside]

/-- The buffer comes back, and in between its blocks are those of the published cipher. -/
theorem encrypt_expand_key (key : Key) (data : Buffer) (start length : Nat) (h : 8 ∣ length) :
    decrypt (encrypt data start length (expand_key key)) start length (expand_key key) = data ∧
      ∀ i < length / 8, readBlock (encrypt data start length (expand_key key)) (start + 8 * i) =
        TextbookXtea.encipher 32 key (readBlock data (start + 8 * i)) := by
  refine ⟨decrypt_encrypt _ h, fun i hi => ?_⟩
  have hcount : i < blockCount length := by
    unfold blockCount
    omega
  rw [readBlock_encrypt _ hcount, encryptBlock_expand_key]

theorem encrypt_expand_key_sixteen :
    8 ∣ 16 ∧ decrypt (encrypt (fun p => UInt8.ofNat p) 6 16 (expand_key fun _ => 7)) 6 16
      (expand_key fun _ => 7) = fun p => UInt8.ofNat p :=
  ⟨by decide, (encrypt_expand_key (fun _ => 7) (fun p => UInt8.ofNat p) 6 16 (by decide)).1⟩

end Eloth.Xtea
