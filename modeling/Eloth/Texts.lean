import Eloth.ItemAttributes
import Mathlib.Data.List.TakeWhile

/-!
# Texts

Functions on strings of `tools.cpp`, and the comparison of the C library that ignores case.
-/

namespace Eloth

/-- `' '`. -/
abbrev BLANK : UInt8 := 32

/-- `'\t'`. -/
abbrev TAB : UInt8 := 9

def trim_left (source : List UInt8) (t : UInt8) : List UInt8 := source.dropWhile (· = t)

def trim_right (source : List UInt8) (t : UInt8) : List UInt8 :=
  (source.reverse.dropWhile (· = t)).reverse

def trimString (str : List UInt8) : List UInt8 := trim_left (trim_right str BLANK) BLANK

/-- The parts between the separators, which are single bytes. -/
def explodeString (inString : List UInt8) (separator : UInt8) : List (List UInt8) :=
  inString.splitOn separator

def isspace (c : UInt8) : Bool := c = BLANK || TAB ≤ c && c ≤ 13

def isdigit (c : UInt8) : Bool := 48 ≤ c && c ≤ 57

/-- `std::stoi`, which throws when there are no digits or the number is out of range. -/
def stoi (s : List UInt8) : Option Int32 :=
  let s := s.dropWhile isspace
  let (negative, s) := match s with
    | 45 :: rest => (true, rest)
    | 43 :: rest => (false, rest)
    | _ => (false, s)
  let digits := s.takeWhile isdigit
  if digits.isEmpty then none
  else
    let value : Nat := digits.foldl (fun value digit => 10 * value + (digit.toNat - 48)) 0
    let value : Int := if negative then -value else value
    if -2 ^ 31 ≤ value ∧ value < 2 ^ 31 then some (Int32.ofInt value) else none

def vectorAtoi (stringVector : List (List UInt8)) : Option (List Int32) := stringVector.mapM stoi

/-! ## Comparison without case -/

/-- What a C string shows of the bytes. -/
def cString (s : List UInt8) : List UInt8 := s.takeWhile (· ≠ 0)

def sameText (a b : List UInt8) : Bool :=
  asLowerCaseString (cString a) = asLowerCaseString (cString b)

/-- `strncasecmp` finds no difference in the first `n` bytes. -/
def strncasecmp (a b : List UInt8) (n : Nat) : Bool := sameText (a.take n) (b.take n)

variable {a b : List UInt8} {n : Nat}

theorem sameText_comm : sameText a b = sameText b a := by
  unfold sameText
  exact decide_eq_decide.mpr eq_comm

/-- Below the letters nothing is changed, and nothing comes from above. -/
theorem tolower_eq_iff {b c : UInt8} (hb : b < 65) : tolower c = b ↔ c = b := by
  unfold tolower
  split_ifs with h
  · have hlow := UInt8.lt_iff_toNat_lt.mp hb
    have hlo := UInt8.le_iff_toNat_le.mp h.1
    have hhi := UInt8.le_iff_toNat_le.mp h.2
    rw [← UInt8.toNat_inj, ← UInt8.toNat_inj, UInt8.toNat_add]
    simp only [UInt8.reduceToNat] at *
    omega
  · exact Iff.rfl

theorem trim_left_eq_nil {t : UInt8} : trim_left a t = [] ↔ ∀ c ∈ a, c = t := by
  simp [trim_left, List.dropWhile_eq_nil_iff]

end Eloth
