import Mathlib.Data.List.Induction
import Mathlib.Data.Nat.ModEq
import Mathlib.Tactic.Ring

/-!
# Numerals of fixed width

The last digits of a number, the most significant one first, and the number that a numeral
stands for: bits, bytes and decimal digits alike.
-/

namespace Eloth.Positional

/-- The last `width` digits of the number in base `b`. -/
def digits (b : ℕ) : (width n : ℕ) → List ℕ
  | 0, _ => []
  | width + 1, n => digits b width (n / b) ++ [n % b]

def value (b : ℕ) (numeral : List ℕ) : ℕ := numeral.foldl (fun v d => b * v + d) 0

/-- Two lower-case digits for every byte. -/
def hexadecimal (bytes : List UInt8) : List Char :=
  bytes.flatMap fun byte => (digits 16 2 byte.toNat).map Nat.digitChar

variable {b v w n : ℕ}

@[simp] theorem length_digits (b w n : ℕ) : (digits b w n).length = w := by
  induction w generalizing n with
  | zero => rfl
  | succ w ih => rw [digits, List.length_append, ih, List.length_singleton]

theorem digits_zero (b w : ℕ) : digits b w 0 = List.replicate w 0 := by
  induction w with
  | zero => rfl
  | succ w ih => rw [digits, Nat.zero_div, ih, Nat.zero_mod, List.replicate_succ']

theorem digits_add (b v w n : ℕ) :
    digits b (v + w) n = digits b v (n / b ^ w) ++ digits b w n := by
  induction w generalizing n with
  | zero => simp [digits]
  | succ w ih =>
    rw [← Nat.add_assoc, digits, ih, digits, List.append_assoc, Nat.div_div_eq_div_mul,
      Nat.pow_succ']

/-- Digits further up do not count. -/
theorem digits_congr {m : ℕ} (h : m % b ^ w = n % b ^ w) : digits b w m = digits b w n := by
  induction w generalizing m n with
  | zero => rfl
  | succ w ih =>
    have hlow : m % b = n % b := by
      have := congrArg (· % b) h
      simpa only [Nat.pow_succ', Nat.mod_mul_right_mod] using this
    have hhigh : m / b % b ^ w = n / b % b ^ w := by
      simpa only [Nat.pow_succ', Nat.mod_mul_right_div_self] using congrArg (· / b) h
    rw [digits, digits, hlow, ih hhigh]

theorem value_append (l l' : List ℕ) :
    value b (l ++ l') = value b l * b ^ l'.length + value b l' := by
  induction l' using List.reverseRecOn with
  | nil => simp [value]
  | append_singleton l' d ih =>
    have hsnoc (l : List ℕ) : value b (l ++ [d]) = b * value b l + d := by simp [value]
    rw [← List.append_assoc, hsnoc, hsnoc, ih, List.length_append, List.length_singleton]
    ring

theorem value_digits (b w n : ℕ) : value b (digits b w n) = n % b ^ w := by
  induction w generalizing n with
  | zero => simp [digits, value, Nat.mod_one]
  | succ w ih =>
    rw [digits, value_append, ih, List.length_singleton, Nat.pow_one, Nat.pow_succ',
      Nat.mod_mul, value, List.foldl_cons, List.foldl_nil]
    ring

theorem digits_lt (hb : 0 < b) : ∀ d ∈ digits b w n, d < b := by
  induction w generalizing n with
  | zero => simp [digits]
  | succ w ih =>
    intro d hd
    rcases List.mem_append.mp hd with hd | hd
    · exact ih d hd
    · exact List.mem_singleton.mp hd ▸ Nat.mod_lt _ hb

/-- Digits of digits make a numeral in the smaller base. -/
theorem value_flatMap_digits {l : List ℕ} (h : ∀ d ∈ l, d < b ^ w) :
    value b (l.flatMap (digits b w)) = value (b ^ w) l := by
  induction l using List.reverseRecOn with
  | nil => rfl
  | append_singleton l d ih =>
    rw [List.flatMap_append, List.flatMap_singleton, value_append, value_append, length_digits,
      value_digits, Nat.mod_eq_of_lt (h d (by simp)),
      ih fun d hd => h d (List.mem_append_left _ hd)]
    simp [value]

theorem hexadecimal_eq (bytes : List UInt8) :
    hexadecimal bytes = ((bytes.map UInt8.toNat).flatMap (digits 16 2)).map Nat.digitChar := by
  rw [hexadecimal, List.flatMap_map, List.map_flatMap]

theorem hexadecimal_cons (byte : UInt8) (bytes : List UInt8) :
    hexadecimal (byte :: bytes) = Nat.digitChar (byte.toNat / 16 % 16) ::
      Nat.digitChar (byte.toNat % 16) :: hexadecimal bytes := rfl

@[simp] theorem length_hexadecimal (bytes : List UInt8) :
    (hexadecimal bytes).length = 2 * bytes.length := by
  induction bytes with
  | nil => rfl
  | cons byte bytes ih => rw [hexadecimal_cons, List.length_cons, List.length_cons, ih,
      List.length_cons, Nat.mul_succ]

theorem drop_hexadecimal (bytes : List UInt8) (i : ℕ) :
    (hexadecimal bytes).drop (2 * i) = hexadecimal (bytes.drop i) := by
  induction i generalizing bytes with
  | zero => rfl
  | succ i ih =>
    cases bytes with
    | nil => simp [hexadecimal]
    | cons byte bytes => exact ih bytes

theorem take_hexadecimal (bytes : List UInt8) (i : ℕ) :
    (hexadecimal bytes).take (2 * i) = hexadecimal (bytes.take i) := by
  induction i generalizing bytes with
  | zero => rfl
  | succ i ih =>
    cases bytes with
    | nil => simp [hexadecimal]
    | cons byte bytes =>
      rw [hexadecimal_cons, Nat.mul_succ, List.take_succ_cons, List.take_succ_cons, ih,
        List.take_succ_cons, hexadecimal_cons]

end Eloth.Positional
