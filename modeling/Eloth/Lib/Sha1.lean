import Eloth.Lib.Positional

/-!
# SHA-1

The secure hash algorithm of FIPS 180 on messages of whole bytes: padding, the message schedule
as a recurrence, eighty steps a block and the five words of the digest.
-/

namespace Eloth.Sha1

abbrev Message := List UInt8

/-- The five working variables, and between blocks the hash value. -/
structure Registers where
  a : UInt32
  b : UInt32
  c : UInt32
  d : UInt32
  e : UInt32
deriving DecidableEq

/-- The number in so many bytes, the most significant byte first. -/
def bigEndian (size n : ℕ) : List UInt8 := (Positional.digits 256 size n).map UInt8.ofNat

@[simp] theorem length_bigEndian (size n : ℕ) : (bigEndian size n).length = size := by
  simp [bigEndian]

/-! ## Functions and constants -/

def rotl (n x : UInt32) : UInt32 := (x <<< n) ||| (x >>> (32 - n))

def Ch (x y z : UInt32) : UInt32 := (x &&& y) ^^^ (~~~x &&& z)

def Parity (x y z : UInt32) : UInt32 := x ^^^ y ^^^ z

def Maj (x y z : UInt32) : UInt32 := (x &&& y) ^^^ (x &&& z) ^^^ (y &&& z)

def f (t : ℕ) : UInt32 → UInt32 → UInt32 → UInt32 :=
  if t < 20 then Ch else if t < 40 then Parity else if t < 60 then Maj else Parity

def K (t : ℕ) : UInt32 :=
  if t < 20 then 0x5a827999
  else if t < 40 then 0x6ed9eba1
  else if t < 60 then 0x8f1bbcdc
  else 0xca62c1d6

def initial : Registers := ⟨0x67452301, 0xefcdab89, 0x98badcfe, 0x10325476, 0xc3d2e1f0⟩

/-! ## One block -/

def wordAt (block : Message) (t : ℕ) : UInt32 :=
  UInt32.ofNat (Positional.value 256 (((block.drop (4 * t)).take 4).map UInt8.toNat))

def schedule (block : Message) (t : ℕ) : UInt32 :=
  if t < 16 then wordAt block t
  else
    rotl 1 (schedule block (t - 3) ^^^ schedule block (t - 8) ^^^ schedule block (t - 14) ^^^
      schedule block (t - 16))

def step (block : Message) (r : Registers) (t : ℕ) : Registers :=
  ⟨rotl 5 r.a + f t r.b r.c r.d + r.e + K t + schedule block t, r.a, rotl 30 r.b, r.c, r.d⟩

def compress (H : Registers) (block : Message) : Registers :=
  let r := (List.range 80).foldl (step block) H
  ⟨H.a + r.a, H.b + r.b, H.c + r.c, H.d + r.d, H.e + r.e⟩

/-! ## Messages -/

/-- Together with the bit 1 and the length, the zeros fill up the last block. -/
def zeroCount (length : ℕ) : ℕ := (119 - length % 64) % 64

def pad (m : Message) : Message :=
  m ++ 0x80 :: List.replicate (zeroCount m.length) 0 ++ bigEndian 8 (8 * m.length)

/-- The whole blocks of 512 bits. -/
def blocks (m : Message) : List Message :=
  (List.range (m.length / 64)).map fun i => (m.drop (64 * i)).take 64

def hashBlocks (m : Message) : Registers := (blocks m).foldl compress initial

def Registers.toList (r : Registers) : List UInt32 := [r.a, r.b, r.c, r.d, r.e]

def Registers.bytes (r : Registers) : Message := r.toList.flatMap fun w => bigEndian 4 w.toNat

def digest (m : Message) : Message := (hashBlocks (pad m)).bytes

variable {m block : Message}

theorem blocks_append (hm : 64 ∣ m.length) (hblock : block.length = 64) :
    blocks (m ++ block) = blocks m ++ [block] := by
  obtain ⟨n, hn⟩ := hm
  have hcount : (m ++ block).length / 64 = n + 1 := by
    rw [List.length_append]
    omega
  rw [blocks, hcount, List.range_succ, List.map_append, List.map_singleton, blocks, hn,
    Nat.mul_div_cancel_left n (by decide), List.drop_left' hn, List.take_of_length_le hblock.le]
  congr 1
  refine List.map_congr_left fun i hi => ?_
  have hlt := List.mem_range.mp hi
  rw [List.drop_append_of_le_length (by omega),
    List.take_append_of_le_length (by rw [List.length_drop]; omega)]

theorem hashBlocks_append (hm : 64 ∣ m.length) (hblock : block.length = 64) :
    hashBlocks (m ++ block) = compress (hashBlocks m) block := by
  rw [hashBlocks, blocks_append hm hblock, List.foldl_append]
  rfl

@[simp] theorem Registers.length_bytes (r : Registers) : r.bytes.length = 20 := by
  simp [Registers.bytes, Registers.toList]

@[simp] theorem length_digest (m : Message) : (digest m).length = 20 := Registers.length_bytes _

end Eloth.Sha1
