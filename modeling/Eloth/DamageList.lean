import Eloth.Condition
import Mathlib.Algebra.BigOperators.Group.List.Basic
import Mathlib.Algebra.Order.Field.Basic
import Mathlib.Algebra.Order.Ring.Abs
import Mathlib.Data.Rat.Cast.Order
import Mathlib.Tactic.Linarith

/-!
# Lists of damage

`ConditionDamage::generateDamageList`, which spreads an amount over falling values. Comparisons
of quotients are those of the exact rationals; sums and products have 32 bits.
-/

namespace Eloth.ConditionDamage

/-- One more `i` brings the sum nearer to the aim, in proportion to it. -/
def closer (sum i med : Int32) : Bool :=
  let x1 : ℚ := |1 - ((sum.toInt : ℚ) + i.toInt) / med.toInt|
  let x2 : ℚ := |1 - (sum.toInt : ℚ) / med.toInt|
  x1 < x2

/-- The inner loop, with the sum and the list that it adds to. -/
def addValues (i med : Int32) : Nat → Int32 → List Int32 → Option (Int32 × List Int32)
  | 0, _, _ => none
  | fuel + 1, sum, list =>
    let sum := sum + i
    let list := list ++ [i]
    if closer sum i med then addValues i med fuel sum list else some (sum, list)

def aim (amount start i : Int32) : Int32 :=
  let n := start + 1 - i
  n * amount / start

/-- The outer loop, on the value that is next. -/
def generateLoop (amount start : Int32) (fuel : Nat) :
    Nat → Int32 → List Int32 → Option (List Int32)
  | 0, _, list => some list
  | k + 1, sum, list => do
    let i := Int32.ofNat (k + 1)
    let (sum, list) ← addValues i (aim amount start i) fuel sum list
    generateLoop amount start fuel k sum list

def generateDamageList (fuel : Nat) (amount start : Int32) : Option (List Int32) :=
  generateLoop (Condition.abs amount) start fuel start.toInt.toNat 0 []

/-- Where `init` starts from when nothing else is set. -/
def firstValue (amount : Int32) : Int32 := max 1 (Int32.ofInt (-(-amount.toInt / 20)))

/-! ## Comparisons and sums -/

variable {amount start i med sum sum' : Int32} {list list' : List Int32} {fuel k : Nat}

theorem closer_iff (hi : 0 < i.toInt) : closer sum i med = true ↔
    med.toInt ≠ 0 ∧ 2 * sum.toInt + i.toInt < 2 * med.toInt := by
  unfold closer
  rw [decide_eq_true_eq]
  by_cases hmed : med.toInt = 0
  · simp [hmed]
  have hne : (med.toInt : ℚ) ≠ 0 := Int.cast_ne_zero.mpr hmed
  have hnear (x : ℚ) : |1 - x / med.toInt| = |med.toInt - x| / |(med.toInt : ℚ)| := by
    rw [← abs_div, sub_div, div_self hne]
  rw [hnear, hnear, div_lt_div_iff_of_pos_right (abs_pos.mpr hne), ← sq_lt_sq]
  have hsquares : ((med.toInt : ℚ) - (sum.toInt + i.toInt)) ^ 2 < (med.toInt - sum.toInt) ^ 2 ↔
      (med.toInt - (sum.toInt + i.toInt)) ^ 2 < (med.toInt - sum.toInt) ^ 2 := by
    norm_cast
  rw [hsquares, and_iff_right hmed]
  constructor <;> intro h <;> nlinarith

theorem toInt_add_of_lt {a b : Int32} (hlow : -2 ^ 31 ≤ a.toInt + b.toInt)
    (h : a.toInt + b.toInt < 2 ^ 31) : (a + b).toInt = a.toInt + b.toInt := by
  rw [Int32.toInt_add]
  exact Int.bmod_eq_of_le hlow h

/-! ## The inner loop -/

theorem addValues_succ : addValues i med (fuel + 1) sum list =
    if closer (sum + i) i med then addValues i med fuel (sum + i) (list ++ [i])
    else some (sum + i, list ++ [i]) := rfl

/-- Once the aim is not too large the sum cannot wrap on its way there, and the loop ends. -/
theorem addValues_ends (hi : 0 < i.toInt) (hmed : 2 * med.toInt + i.toInt < 2 ^ 32)
    (sum : Int32) (list : List Int32) : ∃ least c sum', ∀ fuel ≥ least,
      addValues i med fuel sum list = some (sum', list ++ List.replicate (c + 1) i) := by
  induction hroom : (2 ^ 31 - (sum + i).toInt).toNat using Nat.strong_induction_on
    generalizing sum list with
  | _ room ih =>
    by_cases hcloser : closer (sum + i) i med = true
    · have hlt := ((closer_iff hi).mp hcloser).2
      have hlow := (sum + i).le_toInt
      have hnext : (sum + i + i).toInt = (sum + i).toInt + i.toInt :=
        toInt_add_of_lt (by omega) (by omega)
      obtain ⟨least, c, sum', hends⟩ := ih _ (by omega) (sum + i) (list ++ [i]) rfl
      refine ⟨least + 1, c + 1, sum', fun fuel hfuel => ?_⟩
      obtain ⟨fuel, rfl⟩ := Nat.exists_eq_add_of_le' (Nat.one_le_of_lt hfuel)
      rw [addValues_succ, if_pos hcloser, hends fuel (by omega), List.append_assoc,
        List.replicate_succ (n := c + 1), List.singleton_append]
    · refine ⟨1, 0, sum + i, fun fuel hfuel => ?_⟩
      obtain ⟨fuel, rfl⟩ := Nat.exists_eq_add_of_le' hfuel
      rw [addValues_succ, if_neg hcloser]
      rfl

/-- The sum of the numbers themselves. -/
def total (list : List Int32) : ℤ := (list.map Int32.toInt).sum

theorem total_append (l l' : List Int32) : total (l ++ l') = total l + total l' := by
  simp [total]

/-- Below a bound that the aim respects the sum stays below it, and comes near to the aim. -/
theorem addValues_total {B : ℤ} (hi : 0 < i.toInt) (hB : B < 2 ^ 31) (hsum : 0 ≤ sum.toInt)
    (hfirst : sum.toInt + i.toInt ≤ B) (hmed : 2 * med.toInt + i.toInt - 1 ≤ 2 * B)
    (h : addValues i med fuel sum list = some (sum', list')) :
    total list' - total list = sum'.toInt - sum.toInt ∧ sum.toInt ≤ sum'.toInt ∧
      sum'.toInt ≤ B ∧ (med.toInt = 0 ∨ 2 * med.toInt ≤ 2 * sum'.toInt + i.toInt) := by
  induction fuel generalizing sum list with
  | zero => cases h
  | succ fuel ih =>
    have hadd : (sum + i).toInt = sum.toInt + i.toInt :=
      toInt_add_of_lt (by omega) (by omega)
    have hone : total (list ++ [i]) = total list + i.toInt := by
      rw [total_append]
      simp [total]
    rw [addValues_succ] at h
    by_cases hcloser : closer (sum + i) i med = true
    · have hlt := ((closer_iff hi).mp hcloser).2
      rw [if_pos hcloser] at h
      obtain ⟨htotal, hle, hbound, hnear⟩ := ih (by omega) (by omega) h
      exact ⟨by omega, by omega, hbound, hnear⟩
    · rw [if_neg hcloser] at h
      obtain ⟨rfl, rfl⟩ := Prod.mk.inj (Option.some.inj h)
      rw [closer_iff hi, not_and_or, not_ne_iff, not_lt] at hcloser
      exact ⟨by omega, by omega, by omega, by omega⟩

/-! ## Falling lists -/

/-- Each value from `k` down to 1 once or more. -/
inductive Falls : Nat → List Int32 → Prop
  | nil : Falls 0 []
  | next {k : Nat} {list : List Int32} (c : Nat) (h : Falls k list) :
      Falls (k + 1) (List.replicate (c + 1) (Int32.ofNat (k + 1)) ++ list)

theorem toInt_ofNat_succ (hk : k + 1 < 2 ^ 31) : (Int32.ofNat (k + 1)).toInt = k + 1 :=
  Int32.toInt_ofNat_of_lt hk

namespace Falls

theorem mem_iff (h : Falls k list) (hk : k < 2 ^ 31) (v : Int32) :
    v ∈ list ↔ 1 ≤ v.toInt ∧ v.toInt ≤ k := by
  induction h with
  | nil =>
    refine iff_of_false List.not_mem_nil ?_
    omega
  | @next k list c _ ih =>
    have hvalue := toInt_ofNat_succ hk
    have hv : v = Int32.ofNat (k + 1) ↔ v.toInt = k + 1 := by
      rw [← hvalue, Int32.toInt_inj]
    rw [List.mem_append, List.mem_replicate, ih (by omega), hv, Nat.cast_succ]
    omega

theorem pairwise (h : Falls k list) (hk : k < 2 ^ 31) :
    list.Pairwise fun a b => b.toInt ≤ a.toInt := by
  induction h with
  | nil => exact List.Pairwise.nil
  | @next k list c h ih =>
    have hvalue := toInt_ofNat_succ hk
    refine List.pairwise_append.mpr
      ⟨List.pairwise_replicate.mpr (.inr le_rfl), ih (by omega), fun a ha b hb => ?_⟩
    have hb := ((h.mem_iff (by omega) b).mp hb).2
    rw [(List.mem_replicate.mp ha).2, hvalue]
    omega

/-- Adding each value once is the least that can be. -/
theorem le_total (h : Falls k list) (hk : k < 2 ^ 31) : (k : ℤ) * (k + 1) ≤ 2 * total list := by
  induction h with
  | nil => simp [total]
  | @next k list c _ ih =>
    have hrest := ih (by omega)
    have hrounds : total (List.replicate (c + 1) (Int32.ofNat (k + 1))) = (c + 1) * (k + 1) := by
      simp only [total, List.map_replicate, toInt_ofNat_succ hk, List.sum_replicate, nsmul_eq_mul,
        Nat.cast_succ]
    rw [total_append, hrounds]
    push_cast
    nlinarith

end Falls

/-! ## The outer loop -/

theorem generateLoop_succ : generateLoop amount start fuel (k + 1) sum list =
    (addValues (Int32.ofNat (k + 1)) (aim amount start (Int32.ofNat (k + 1))) fuel sum list).bind
      fun r => generateLoop amount start fuel k r.1 r.2 := rfl

theorem generateLoop_ends (hk : k < 2 ^ 31)
    (haim : ∀ j < k, 2 * (aim amount start (Int32.ofNat (j + 1))).toInt + (j + 1) < 2 ^ 32)
    (sum : Int32) (list : List Int32) : ∃ least falling, Falls k falling ∧
      ∀ fuel ≥ least, generateLoop amount start fuel k sum list = some (list ++ falling) := by
  induction k generalizing sum list with
  | zero => exact ⟨0, [], .nil, fun fuel _ => by rw [generateLoop, List.append_nil]⟩
  | succ k ih =>
    have hi := toInt_ofNat_succ hk
    have hlast := haim k (Nat.lt_succ_self k)
    rw [← hi] at hlast
    obtain ⟨first, c, sum', hfirst⟩ := addValues_ends (by omega) hlast sum list
    obtain ⟨least, falling, hfalls, hrest⟩ := ih (by omega)
      (fun j hj => haim j (Nat.lt_succ_of_lt hj)) sum'
      (list ++ List.replicate (c + 1) (Int32.ofNat (k + 1)))
    refine ⟨max first least, _, hfalls.next c, fun fuel hfuel => ?_⟩
    rw [generateLoop_succ, hfirst fuel (le_of_max_le_left hfuel), Option.bind_some,
      hrest fuel (le_of_max_le_right hfuel), List.append_assoc]

/-! ## From the first value on -/

theorem toInt_firstValue (hamount : 1 ≤ amount.toInt) : 1 ≤ (firstValue amount).toInt ∧
    amount.toInt ≤ 20 * (firstValue amount).toInt ∧
      20 * (firstValue amount).toInt ≤ amount.toInt + 19 := by
  have hlt := amount.toInt_lt
  have hceil : (Int32.ofInt (-(-amount.toInt / 20))).toInt = -(-amount.toInt / 20) := by
    rw [Int32.toInt_ofInt]
    exact Int.bmod_eq_of_le (by change -2147483648 ≤ _; omega) (by change _ < 2147483648; omega)
  have hfirst : firstValue amount = Int32.ofInt (-(-amount.toInt / 20)) := by
    refine if_pos (Int32.le_iff_toInt_le.mpr ?_)
    have hone : (1 : Int32).toInt = 1 := rfl
    rw [hceil, hone]
    omega
  rw [hfirst, hceil]
  omega

theorem toInt_aim (hstart : 0 < start.toInt) : (aim amount start i).toInt =
    ((start + 1 - i) * amount).toInt.tdiv start.toInt := by
  refine Int32.toInt_div_of_ne_right _ _ fun h => ?_
  rw [h] at hstart
  exact absurd hstart (by decide)

/-- Dividing by 2 or more leaves room; a single round aims at the amount. -/
theorem aim_lt (hamount : 1 ≤ amount.toInt) {j : Nat}
    (hj : j < (firstValue amount).toInt.toNat) :
    2 * (aim amount (firstValue amount) (Int32.ofNat (j + 1))).toInt + (j + 1) < 2 ^ 32 := by
  obtain ⟨hstart, hle, hge⟩ := toInt_firstValue hamount
  have hlt := amount.toInt_lt
  rw [toInt_aim (by omega)]
  rcases Int.lt_or_le 1 (firstValue amount).toInt with htwo | hone
  · generalize hproduct : ((firstValue amount + 1 - Int32.ofNat (j + 1)) * amount).toInt = product
    have hlow := hproduct ▸ Int32.le_toInt _
    have hhigh := hproduct ▸ Int32.toInt_lt _
    have hdiv : product.tdiv (firstValue amount).toInt < 2 ^ 30 + 1 := by
      rcases Int.le_total 0 product with hnonneg | hnonpos
      · rw [Int.tdiv_eq_ediv_of_nonneg hnonneg]
        exact Int.ediv_lt_of_lt_mul (by omega) (by omega)
      · have hneg := Int.tdiv_nonneg (Int.neg_nonneg_of_nonpos hnonpos) (by omega :
          0 ≤ (firstValue amount).toInt)
        rw [Int.neg_tdiv] at hneg
        omega
    omega
  · have hfirst : firstValue amount = 1 := Int32.toInt_inj.mp (by
      have : (1 : Int32).toInt = 1 := rfl
      omega)
    obtain rfl : j = 0 := by omega
    have hcount : (1 : Int32) + 1 - Int32.ofNat (0 + 1) = 1 := by decide
    have hunit : (1 : Int32).toInt = 1 := rfl
    rw [hfirst, hcount, Int32.one_mul, hunit, Int.tdiv_one]
    omega

/-- As long as products stay small. -/
theorem toInt_aim_of_small (hamount : 0 < amount.toInt) (hbound : start.toInt < 2 ^ 30)
    (hsmall : start.toInt * amount.toInt < 2 ^ 31) (hk : k < start.toInt.toNat) :
    (aim amount start (Int32.ofNat (k + 1))).toInt =
      (start.toInt - k) * amount.toInt / start.toInt := by
  have hi : (Int32.ofNat (k + 1)).toInt = k + 1 := toInt_ofNat_succ (by omega)
  have hunit : (1 : Int32).toInt = 1 := rfl
  have hcount : (start + 1 - Int32.ofNat (k + 1)).toInt = start.toInt - k := by
    have hadd : (start + 1).toInt = start.toInt + 1 := toInt_add_of_lt (by omega) (by omega)
    rw [Int32.toInt_sub, hadd, hi, Int.bmod_eq_of_le (by omega) (by omega)]
    omega
  have hnonneg : 0 ≤ (start.toInt - k) * amount.toInt := Int.mul_nonneg (by omega) hamount.le
  have hle : (start.toInt - k) * amount.toInt ≤ start.toInt * amount.toInt :=
    Int.mul_le_mul_of_nonneg_right (by omega) hamount.le
  have hproduct : ((start + 1 - Int32.ofNat (k + 1)) * amount).toInt =
      (start.toInt - k) * amount.toInt := by
    rw [Int32.toInt_mul, hcount]
    exact Int.bmod_eq_of_le (by omega) (by omega)
  rw [toInt_aim (by omega), hproduct, Int.tdiv_eq_ediv_of_nonneg hnonneg]

theorem generateLoop_total (hamount : 0 < amount.toInt)
    (hsmall : start.toInt * amount.toInt < 2 ^ 31)
    (hleast : start.toInt * (start.toInt + 1) ≤ 2 * amount.toInt)
    (hk : k ≤ start.toInt.toNat) (hsum : 0 ≤ sum.toInt) (htotal : total list = sum.toInt)
    (hroom : 2 * sum.toInt + k * (k + 1) ≤ 2 * amount.toInt)
    (hlast : k = 0 → sum.toInt = amount.toInt)
    (h : generateLoop amount start fuel k sum list = some list') :
    total list' = amount.toInt := by
  induction k generalizing sum list with
  | zero =>
    obtain rfl := Option.some.inj h
    rw [htotal, hlast rfl]
  | succ k ih =>
    have hlt := amount.toInt_lt
    have hbound : start.toInt < 2 ^ 30 := by nlinarith
    have hi : (Int32.ofNat (k + 1)).toInt = k + 1 := toInt_ofNat_succ (by omega)
    have haim := toInt_aim_of_small hamount hbound hsmall hk
    rw [generateLoop_succ] at h
    obtain ⟨⟨sum', rest⟩, hvalues, hrest⟩ := Option.bind_eq_some_iff.mp h
    obtain ⟨T, hT⟩ : ∃ T : ℤ, (k : ℤ) * (k + 1) = 2 * T := by
      obtain ⟨T, hT⟩ := Int.even_mul_succ_self k
      exact ⟨T, by omega⟩
    -- The aim leaves what the values below still add.
    have hmed : 2 * ((start.toInt - k) * amount.toInt / start.toInt) + (k + 1) - 1 ≤
        2 * (amount.toInt - T) := by
      have hdiv := Int.ediv_mul_le ((start.toInt - k) * amount.toInt) (by omega : start.toInt ≠ 0)
      generalize (start.toInt - k) * amount.toInt / start.toInt = m at hdiv
      have hk0 : (0 : ℤ) ≤ k := Int.natCast_nonneg k
      have hweighted := Int.mul_le_mul_of_nonneg_left hleast hk0
      have hscaled : start.toInt * (2 * m) ≤
          start.toInt * (2 * amount.toInt - k * (start.toInt + 1)) := by nlinarith
      have hm := Int.le_of_mul_le_mul_left hscaled (by omega)
      have hbelow : (k : ℤ) * (k + 2) ≤ k * (start.toInt + 1) :=
        Int.mul_le_mul_of_nonneg_left (by omega) hk0
      linarith
    rw [← haim, ← hi] at hmed
    obtain ⟨hadded, hle, hunder, hnear⟩ := addValues_total (B := amount.toInt - T)
      (by omega) (by nlinarith) hsum (by push_cast at hroom; nlinarith) hmed hvalues
    dsimp only at hrest
    refine ih (by omega) (by omega) (by omega) (by rw [hT]; omega) (fun hzero => ?_) hrest
    -- The last aim is the amount itself.
    subst hzero
    have hamounts : (aim amount start (Int32.ofNat (0 + 1))).toInt = amount.toInt := by
      rw [haim, Nat.cast_zero, Int.sub_zero, Int.mul_ediv_cancel_left _ (by omega)]
    rw [hamounts] at hnear
    rw [Nat.cast_zero, Int.zero_mul] at hT
    omega

/-- The condition in terms of the amount. -/
theorem least_le_iff (hamount : 1 ≤ amount.toInt) :
    (firstValue amount).toInt * ((firstValue amount).toInt + 1) ≤ 2 * amount.toInt ↔
      amount.toInt ≤ 760 ∨ amount.toInt = 780 := by
  obtain ⟨hstart, hle, hge⟩ := toInt_firstValue hamount
  generalize (firstValue amount).toInt = s at hstart hle hge
  constructor
  · intro h
    have hs : s ≤ 39 := by nlinarith
    rcases Int.lt_or_eq_of_le hs with hlt | rfl
    · omega
    · omega
  · rintro (h | h)
    · have hs : s ≤ 38 := by omega
      nlinarith
    · obtain rfl : s = 39 := by omega
      omega

/-- The list always falls from the first value to 1; it adds up to the amount for small amounts
only, since every value is added once at least. -/
theorem generateDamageList_total_iff (amount : Int32) (h : 1 ≤ amount) :
    ∃ least list, (∀ fuel ≥ least, generateDamageList fuel amount (firstValue amount) = some list) ∧
      (list.Pairwise fun a b => b ≤ a) ∧ (∀ v, v ∈ list ↔ 1 ≤ v ∧ v ≤ firstValue amount) ∧
      ((list.map Int32.toInt).sum = amount.toInt ↔ amount ≤ 760 ∨ amount = 780) := by
  have hone : (1 : Int32).toInt = 1 := rfl
  have hamount : 1 ≤ amount.toInt := hone ▸ Int32.le_iff_toInt_le.mp h
  have hcondition : amount ≤ 760 ∨ amount = 780 ↔ amount.toInt ≤ 760 ∨ amount.toInt = 780 :=
    or_congr Int32.le_iff_toInt_le Int32.toInt_inj.symm
  obtain ⟨hstart, hle, hge⟩ := toInt_firstValue hamount
  have hlt := (firstValue amount).toInt_lt
  have hk : (firstValue amount).toInt.toNat < 2 ^ 31 := by omega
  have hcast : ((firstValue amount).toInt.toNat : ℤ) = (firstValue amount).toInt :=
    Int.toNat_of_nonneg (by omega)
  have habs : Condition.abs amount = amount := by
    refine if_neg fun hneg => ?_
    have hzero : (0 : Int32).toInt = 0 := rfl
    have := Int32.lt_iff_toInt_lt.mp hneg
    omega
  obtain ⟨least, list, hfalls, hends⟩ :=
    generateLoop_ends hk (fun j hj => aim_lt hamount hj) 0 []
  have hgenerates : ∀ fuel ≥ least,
      generateDamageList fuel amount (firstValue amount) = some list := by
    intro fuel hfuel
    rw [generateDamageList, habs, hends fuel hfuel, List.nil_append]
  refine ⟨least, list, hgenerates, ?_, fun v => ?_, ?_⟩
  · exact (hfalls.pairwise hk).imp fun hab => Int32.le_iff_toInt_le.mpr hab
  · rw [hfalls.mem_iff hk, hcast, Int32.le_iff_toInt_le, Int32.le_iff_toInt_le, hone]
  · rw [hcondition, ← least_le_iff hamount]
    constructor
    · intro htotal
      have hadded := hfalls.le_total hk
      rw [total, htotal, hcast] at hadded
      exact hadded
    · intro hleast
      have hsmall : amount.toInt ≤ 780 := by
        rcases (least_le_iff hamount).mp hleast with h | h <;> omega
      have hproduct : (firstValue amount).toInt * amount.toInt < 2 ^ 31 := by nlinarith
      have hzero : (0 : Int32).toInt = 0 := rfl
      refine generateLoop_total (by omega) hproduct hleast le_rfl hzero.ge rfl ?_ (fun h => ?_)
        ((hends least le_rfl).trans (by rw [List.nil_append]))
      · rw [hzero, hcast]
        omega
      · omega

theorem generateDamageList_total_hundred : (1 : Int32) ≤ 100 ∧ ∃ least list,
    (∀ fuel ≥ least, generateDamageList fuel 100 (firstValue 100) = some list) ∧
      (list.map Int32.toInt).sum = (100 : Int32).toInt := by
  obtain ⟨least, list, hends, -, -, htotal⟩ := generateDamageList_total_iff 100 (by decide)
  exact ⟨by decide, least, list, hends, htotal.mpr (.inl (by decide))⟩

/-- An amount of 1000 starts from 50, and the values from 50 down to 1 make more than that. -/
theorem generateDamageList_thousand : (1 : Int32) ≤ 1000 ∧
    ∃ list, generateDamageList 10 1000 (firstValue 1000) = some list ∧
      (list.map Int32.toInt).sum = 1275 := by
  have hsum : (generateDamageList 10 1000 (firstValue 1000)).map
      (fun list => (list.map Int32.toInt).sum) = some 1275 := by decide +kernel
  exact ⟨by decide, Option.map_eq_some_iff.mp hsum⟩

end Eloth.ConditionDamage
