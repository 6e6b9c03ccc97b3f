import Mathlib.Algebra.GroupWithZero.Nat
import Mathlib.Logic.Function.Iterate

/-!
# XTEA as published

The block cipher on two 32-bit words with a key of four, in cycles of two Feistel rounds. The sum
of the deltas runs along with the block.
-/

namespace Eloth.TextbookXtea

abbrev Key := Fin 4 → UInt32

abbrev Block := UInt32 × UInt32

abbrev delta : UInt32 := 0x9E3779B9

local instance neZero_words : NeZero 4 := ⟨by decide⟩

def word (key : Key) (i : UInt32) : UInt32 := key (Fin.ofNat 4 i.toNat)

/-- What a round mixes into the other half. -/
def mix (v subkey : UInt32) : UInt32 := (((v <<< 4) ^^^ (v >>> 5)) + v) ^^^ subkey

structure State where
  v0 : UInt32
  v1 : UInt32
  sum : UInt32

def cycle (key : Key) (s : State) : State :=
  let v0 := s.v0 + mix s.v1 (s.sum + word key (s.sum &&& 3))
  let sum := s.sum + delta
  let v1 := s.v1 + mix v0 (sum + word key ((sum >>> 11) &&& 3))
  ⟨v0, v1, sum⟩

def encipher (cycles : ℕ) (key : Key) (block : Block) : Block :=
  let s := (cycle key)^[cycles] ⟨block.1, block.2, 0⟩
  (s.v0, s.v1)

end Eloth.TextbookXtea
