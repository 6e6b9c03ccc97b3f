import Mathlib.Tactic.IntervalCases
import Mathlib.Data.List.Basic

/-!
# Byte buffers

Memory as a function from positions to bytes, with copies in and out, and words that are stored
with their least significant byte first.
-/

namespace Eloth

/-! ## Words -/

namespace LittleEndian

def word16 (b0 b1 : UInt8) : UInt16 := b0.toUInt16 ||| b1.toUInt16 <<< 8

def bytes16 (v : UInt16) : List UInt8 := [v.toUInt8, (v >>> 8).toUInt8]

def word32 (b0 b1 b2 b3 : UInt8) : UInt32 :=
  b0.toUInt32 ||| b1.toUInt32 <<< 8 ||| b2.toUInt32 <<< 16 ||| b3.toUInt32 <<< 24

def bytes32 (v : UInt32) : List UInt8 :=
  [v.toUInt8, (v >>> 8).toUInt8, (v >>> 16).toUInt8, (v >>> 24).toUInt8]

theorem word16_bytes (v : UInt16) : word16 v.toUInt8 (v >>> 8).toUInt8 = v := by
  apply UInt16.toBitVec_inj.mp
  simp only [word16, UInt16.toBitVec_or, UInt16.toBitVec_shiftLeft, UInt8.toBitVec_toUInt16,
    UInt16.toBitVec_toUInt8, UInt16.toBitVec_shiftRight]
  apply BitVec.eq_of_getLsbD_eq
  intro i hi
  interval_cases i <;> simp

theorem word32_bytes (v : UInt32) :
    word32 v.toUInt8 (v >>> 8).toUInt8 (v >>> 16).toUInt8 (v >>> 24).toUInt8 = v := by
  apply UInt32.toBitVec_inj.mp
  simp only [word32, UInt32.toBitVec_or, UInt32.toBitVec_shiftLeft, UInt8.toBitVec_toUInt32,
    UInt32.toBitVec_toUInt8, UInt32.toBitVec_shiftRight]
  apply BitVec.eq_of_getLsbD_eq
  intro i hi
  interval_cases i <;> simp

theorem bytes32_word (b0 b1 b2 b3 : UInt8) : bytes32 (word32 b0 b1 b2 b3) = [b0, b1, b2, b3] := by
  simp only [bytes32, List.cons.injEq, and_true]
  refine ⟨?_, ?_, ?_, ?_⟩ <;>
  · apply UInt8.toBitVec_inj.mp
    simp only [word32, UInt32.toBitVec_or, UInt32.toBitVec_shiftLeft, UInt8.toBitVec_toUInt32,
      UInt32.toBitVec_toUInt8, UInt32.toBitVec_shiftRight]
    apply BitVec.eq_of_getLsbD_eq
    intro i hi
    interval_cases i <;> simp

theorem word32_injective {a0 a1 a2 a3 b0 b1 b2 b3 : UInt8}
    (h : word32 a0 a1 a2 a3 = word32 b0 b1 b2 b3) : [a0, a1, a2, a3] = [b0, b1, b2, b3] := by
  rw [← bytes32_word, h, bytes32_word]

end LittleEndian

/-! ## Copies -/

abbrev Buffer := Nat → UInt8

namespace Buffer

def write (buf : Buffer) (start : Nat) (bytes : List UInt8) : Buffer := fun p =>
  if start ≤ p then bytes[p - start]?.getD (buf p) else buf p

def read (buf : Buffer) (start size : Nat) : List UInt8 :=
  (List.range size).map fun i => buf (start + i)

variable {buf buf' : Buffer} {start size p : Nat} {bytes bytes' : List UInt8}

theorem write_of_lt (h : p < start) : buf.write start bytes p = buf p :=
  if_neg (by omega)

theorem write_of_ge (h : start + bytes.length ≤ p) : buf.write start bytes p = buf p := by
  have hnone : bytes[p - start]? = none := List.getElem?_eq_none (by omega)
  simp [write, hnone]

theorem write_add {i : Nat} (h : i < bytes.length) :
    buf.write start bytes (start + i) = bytes[i] := by
  simp [write, h]

@[simp] theorem length_read : (buf.read start size).length = size := by simp [read]

theorem read_congr (h : ∀ p, start ≤ p → p < start + size → buf p = buf' p) :
    buf.read start size = buf'.read start size := by
  refine List.map_congr_left fun i hi => h _ (by omega) ?_
  have := List.mem_range.mp hi
  omega

theorem read_write : (buf.write start bytes).read start bytes.length = bytes := by
  refine List.ext_getElem (by simp) fun i _ hi => ?_
  simp [read, write_add hi]

theorem read_write_of_lt (h : start + size ≤ p) :
    (buf.write p bytes).read start size = buf.read start size :=
  read_congr fun _ _ hq => write_of_lt (by omega)

theorem read_write_of_ge (h : p + bytes.length ≤ start) :
    (buf.write p bytes).read start size = buf.read start size :=
  read_congr fun _ hq _ => write_of_ge (by omega)

theorem write_read (h : start ≤ p) (hlt : p < start + size) :
    buf.write start (buf'.read start size) p = buf' p := by
  obtain ⟨i, rfl⟩ := Nat.exists_eq_add_of_le h
  rw [write_add (by rw [length_read]; omega)]
  simp [read]

theorem read_add (m n : Nat) :
    buf.read start (m + n) = buf.read start m ++ buf.read (start + m) n := by
  simp [read, List.range_add, Function.comp_def, Nat.add_assoc]

def word16 (buf : Buffer) (p : Nat) : UInt16 := LittleEndian.word16 (buf p) (buf (p + 1))

def word32 (buf : Buffer) (p : Nat) : UInt32 :=
  LittleEndian.word32 (buf p) (buf (p + 1)) (buf (p + 2)) (buf (p + 3))

theorem word16_congr (h : ∀ q, p ≤ q → q < p + 2 → buf q = buf' q) :
    buf.word16 p = buf'.word16 p := by
  simp only [word16]
  rw [h p, h (p + 1)] <;> omega

theorem word32_congr (h : ∀ q, p ≤ q → q < p + 4 → buf q = buf' q) :
    buf.word32 p = buf'.word32 p := by
  simp only [word32]
  rw [h p, h (p + 1), h (p + 2), h (p + 3)] <;> omega

theorem word32_write_of_ge (h : start + bytes.length ≤ p) :
    (buf.write start bytes).word32 p = buf.word32 p :=
  word32_congr fun _ hq _ => write_of_ge (by omega)

theorem word16_write (v : UInt16) : (buf.write p (LittleEndian.bytes16 v)).word16 p = v := by
  have h0 : buf.write p (LittleEndian.bytes16 v) p = v.toUInt8 := by
    simp [write, LittleEndian.bytes16]
  have h1 : buf.write p (LittleEndian.bytes16 v) (p + 1) = (v >>> 8).toUInt8 := by
    simp [write, LittleEndian.bytes16]
  rw [word16, h0, h1, LittleEndian.word16_bytes]

theorem word32_write (v : UInt32) : (buf.write p (LittleEndian.bytes32 v)).word32 p = v := by
  have h0 : buf.write p (LittleEndian.bytes32 v) p = v.toUInt8 := by
    simp [write, LittleEndian.bytes32]
  have h1 : buf.write p (LittleEndian.bytes32 v) (p + 1) = (v >>> 8).toUInt8 := by
    simp [write, LittleEndian.bytes32]
  have h2 : buf.write p (LittleEndian.bytes32 v) (p + 2) = (v >>> 16).toUInt8 := by
    simp [write, LittleEndian.bytes32]
  have h3 : buf.write p (LittleEndian.bytes32 v) (p + 3) = (v >>> 24).toUInt8 := by
    simp [write, LittleEndian.bytes32]
  rw [word32, h0, h1, h2, h3, LittleEndian.word32_bytes]

end Buffer

end Eloth
