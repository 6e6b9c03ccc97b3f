import Mathlib.Data.List.Basic
import Mathlib.Tactic.Ring

/-!
# Byte streams

Readers that take bytes off the front of a stream, and integers of a fixed number of bytes with
the least significant byte first. `Decodes` says that a reader inverts a writer wherever its
bytes stand in a stream.
-/

namespace Eloth

universe u v

/-- A reader never puts bytes back. -/
structure Reader (α : Type u) where
  run : List UInt8 → α × List UInt8
  length_le : ∀ s, (run s).2.length ≤ s.length

namespace Reader

variable {α : Type u} {β : Type v}

protected def pure (a : α) : Reader α where
  run := fun s => (a, s)
  length_le := fun _ => le_rfl

protected def bind (r : Reader α) (f : α → Reader β) : Reader β where
  run := fun s => (f (r.run s).1).run (r.run s).2
  length_le := fun s => ((f (r.run s).1).length_le _).trans (r.length_le s)

protected def map (f : α → β) (r : Reader α) : Reader β := r.bind fun a => Reader.pure (f a)

def take (n : Nat) : Reader (Option (List UInt8)) where
  run := fun s => if s.length < n then (none, s) else (some (s.take n), s.drop n)
  length_le := fun s => by
    split
    · exact le_rfl
    · simp

/-- Reading the bytes yields `a`, whatever follows them. -/
def Decodes (r : Reader α) (s : List UInt8) (a : α) : Prop :=
  ∀ rest, r.run (s ++ rest) = (a, rest)

variable {r : Reader α} {s s' : List UInt8} {a : α} {b : β}

theorem decodes_pure (a : α) : Decodes (Reader.pure a) [] a := fun _ => rfl

theorem Decodes.bind {f : α → Reader β} (h : Decodes r s a) (hf : Decodes (f a) s' b) :
    Decodes (r.bind f) (s ++ s') b := by
  intro rest
  have hrun : r.run (s ++ s' ++ rest) = (a, s' ++ rest) := by
    rw [List.append_assoc]
    exact h _
  change (f (r.run (s ++ s' ++ rest)).1).run (r.run (s ++ s' ++ rest)).2 = (b, rest)
  rw [hrun]
  exact hf rest

theorem Decodes.map (f : α → β) (h : Decodes r s a) : Decodes (r.map f) s (f a) := by
  have hbind : Decodes (r.map f) (s ++ []) (f a) := h.bind (decodes_pure (f a))
  rwa [List.append_nil] at hbind

theorem decodes_take (s : List UInt8) : Decodes (take s.length) s (some s) := by
  intro rest
  have hlen : ¬ (s ++ rest).length < s.length := by simp
  simp only [take, if_neg hlen, List.take_left', List.drop_left']

end Reader

/-! ## Integers -/

namespace LittleEndian

def bytes : Nat → Nat → List UInt8
  | 0, _ => []
  | size + 1, n => UInt8.ofNat n :: bytes size (n / 256)

def value : List UInt8 → Nat
  | [] => 0
  | b :: bs => b.toNat + 256 * value bs

@[simp] theorem length_bytes (size n : Nat) : (bytes size n).length = size := by
  induction size generalizing n with
  | zero => rfl
  | succ size ih => simp [bytes, ih]

theorem value_bytes (size n : Nat) : value (bytes size n) = n % 256 ^ size := by
  induction size generalizing n with
  | zero => simp [bytes, value, Nat.mod_one]
  | succ size ih =>
    have hmod : n % 256 ^ (size + 1) = n % 256 + 256 * (n / 256 % 256 ^ size) := by
      rw [pow_succ', Nat.mod_mul]
    simp only [bytes, value, ih, hmod, UInt8.toNat_ofNat']

end LittleEndian

end Eloth
