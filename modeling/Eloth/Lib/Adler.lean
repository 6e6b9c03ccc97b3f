import Mathlib.Data.List.Induction
import Mathlib.Tactic.Linarith
import Mathlib.Tactic.Ring

/-!
# Adler-32

The checksum with both sums reduced after every byte, and the sums as they are without reduction:
where they lie, and that they may be reduced later.
-/

namespace Eloth.Adler

/-- The largest prime below 65536. -/
abbrev base : ℕ := 65521

def step (s : ℕ × ℕ) (byte : UInt8) : ℕ × ℕ :=
  ((s.1 + byte.toNat) % base, (s.2 + (s.1 + byte.toNat) % base) % base)

def adler32 (data : List UInt8) : ℕ :=
  let s := data.foldl step (1, 0)
  s.2 * 65536 + s.1

/-- The sums without reduction. -/
def sums (data : List UInt8) (s : ℕ × ℕ) : ℕ × ℕ :=
  data.foldl (fun s byte => (s.1 + byte.toNat, s.2 + (s.1 + byte.toNat))) s

variable {data : List UInt8} {s : ℕ × ℕ} {byte : UInt8}

theorem sums_snoc : sums (data ++ [byte]) s = ((sums data s).1 + byte.toNat,
    (sums data s).2 + ((sums data s).1 + byte.toNat)) := by
  rw [sums, List.foldl_append]
  rfl

/-- Reduction after every byte makes no difference to the reduced sums. -/
theorem foldl_step (data : List UInt8) (s : ℕ × ℕ) :
    data.foldl step (s.1 % base, s.2 % base) = ((sums data s).1 % base, (sums data s).2 % base) := by
  induction data generalizing s with
  | nil => rfl
  | cons byte data ih =>
    have hstep : step (s.1 % base, s.2 % base) byte =
        ((s.1 + byte.toNat) % base, (s.2 + (s.1 + byte.toNat)) % base) := by
      simp only [step, Nat.mod_add_mod, Nat.add_mod_mod]
    rw [List.foldl_cons, hstep]
    exact @ih (s.1 + byte.toNat, s.2 + (s.1 + byte.toNat))

theorem sums_le (data : List UInt8) (s : ℕ × ℕ) :
    (sums data s).1 ≤ s.1 + 255 * data.length ∧
      2 * (sums data s).2 ≤ 2 * s.2 + 2 * data.length * s.1 +
        255 * (data.length * (data.length + 1)) := by
  induction data using List.reverseRecOn with
  | nil => simp [sums]
  | append_singleton data byte ih =>
    have hbyte := byte.toNat_lt
    rw [sums_snoc, List.length_append, List.length_singleton]
    constructor
    · dsimp only
      omega
    · dsimp only
      nlinarith

end Eloth.Adler
