import Mathlib.Algebra.GroupWithZero.Nat
import Mathlib.Algebra.Ring.Int.Defs
import Mathlib.Data.List.Basic
import Eloth.Condition

/-!
# Rounds of damage

A damage condition holds rounds that were scheduled one after the other. It ends when the sum of
their intervals has passed, but a round is dealt at a think, and what a think takes from a round
too much is not credited to the next.
-/

namespace Eloth

/-- A round of damage as it is scheduled. -/
structure DamageRound where
  interval : Int32
  value : Int32
  thinks_between : EVENT_CREATURE_THINK_INTERVAL ≤ interval

namespace DamageRound

def info (r : DamageRound) : IntervalInfo := ⟨r.interval, r.value, r.interval⟩

/-- The number of thinks that use up an interval. -/
def thinks (r : DamageRound) : Nat := (r.interval.toInt.toNat + 999) / 1000

def total (rounds : List DamageRound) : Int := (rounds.map fun r => r.interval.toInt).sum

theorem interval_ge (r : DamageRound) : 1000 ≤ r.interval.toInt :=
  Int32.le_iff_toInt_le.mp r.thinks_between

end DamageRound

namespace Condition

/-- What `executeCondition` passes to `doDamage` of its rounds: how many rounds come after the one
that is dealt, and its damage. -/
def roundDealt (interval : Int32) (c : Condition) : List (Nat × Int32) :=
  match c.data with
  | .damage data =>
    if data.periodDamage ≠ 0 then []
    else
      match data.damageList with
      | [] => []
      | damageInfo :: rounds =>
        if damageInfo.timeLeft - interval ≤ 0 then [(rounds.length, damageInfo.value)] else []
  | _ => []

end Condition

/-- A creature that thinks at every interval from the start on; nothing else is said of it. -/
structure Thinks (start : Int) where
  env : Nat → Surroundings
  now : ∀ k, (env k).now = start + 1000 * k

namespace Thinks

variable {start : Int} (t : Thinks start)

/-- `onTickCondition` lets the rounds be used up: the creature stands in no field of the type. -/
def usesUp (k : Nat) : Bool := (t.env k).bRemove

/-- The damage dealt by the thinks after the `k`-th, as long as the condition goes on. -/
def dealt : Nat → Nat → Condition → List (Nat × Int32)
  | _, 0, _ => []
  | k, n + 1, c =>
    let (goesOn, c') := c.executeCondition (t.env (k + 1)) EVENT_CREATURE_THINK_INTERVAL
    c.roundDealt EVENT_CREATURE_THINK_INTERVAL ++ if goesOn then dealt (k + 1) n c' else []

/-- All that is ever dealt after the `k`-th think. -/
def Deals (k : Nat) (c : Condition) (expected : List (Nat × Int32)) : Prop :=
  ∃ n₀, ∀ n ≥ n₀, t.dealt k n c = expected

/-! ## The clock of a condition -/

/-- The ticks left after some thinks. -/
def ticksAfter (ticks : Int) : Nat → Int
  | 0 => ticks
  | k + 1 => if t.usesUp (k + 1) then max 0 (ticksAfter ticks k - 1000) else ticksAfter ticks k

/-- The time from the start to the end as it stands after some thinks: in a field the end moves
on while there are ticks. -/
def endAfter (ticks : Int) : Nat → Int
  | 0 => ticks
  | k + 1 =>
    if !t.usesUp (k + 1) && 0 < t.ticksAfter ticks k then endAfter ticks k + 1000
    else endAfter ticks k

/-- The condition goes on after the `k`-th think. -/
def Lasts (ticks : Int) (k : Nat) : Prop := 1000 * (k : Int) ≤ t.endAfter ticks k

instance (ticks : Int) (k : Nat) : Decidable (t.Lasts ticks k) :=
  inferInstanceAs (Decidable (_ ≤ _))

/-- The condition lasts until every round is due, and no round is due in a field of its type, but
for a last one that is not due again. -/
def Fits (ticks : Int) : Nat → List DamageRound → Prop
  | _, [] => True
  | k, r :: rest =>
    (∀ i < r.thinks, t.Lasts ticks (k + i)) ∧
    (rest ≠ [] → t.usesUp (k + r.thinks) = true) ∧
    (rest = [] → t.usesUp (k + r.thinks) = true ∨
      ∃ i < r.thinks, ¬ t.Lasts ticks (k + r.thinks + i)) ∧
    Fits ticks (k + r.thinks) rest

/-- Every round once and in order. -/
def eachOnce : List DamageRound → List (Nat × Int32)
  | [] => []
  | r :: rest => (rest.length, r.value) :: eachOnce rest

/-! ## One think -/

/-- A started condition between two thinks. -/
structure Running (total : Int) (k : Nat) (infos : List IntervalInfo) (c : Condition) : Prop where
  data : ∃ data, c.data = .damage data ∧ data.periodDamage = 0 ∧ data.damageList = infos
  ticks : c.ticks.toInt = t.ticksAfter total k
  endTime : c.endTime = start + t.endAfter total k

variable {t} {total : Int} {k : Nat} {c : Condition} {info : IntervalInfo}
  {infos : List IntervalInfo}

theorem toInt_sub_think {a : Int32} (h : 0 ≤ a.toInt) :
    (a - EVENT_CREATURE_THINK_INTERVAL).toInt = a.toInt - 1000 := by
  have hlt := a.toInt_lt
  rw [Int32.toInt_sub, show EVENT_CREATURE_THINK_INTERVAL.toInt = 1000 from rfl]
  exact Int.bmod_eq_of_le (by omega) (by omega)

theorem toInt_max_zero (a : Int32) : (max 0 a).toInt = max 0 a.toInt := by
  have hzero : (0 : Int32).toInt = 0 := rfl
  change (if (0 : Int32) ≤ a then a else 0).toInt = _
  split_ifs with hle
  · rw [Int32.le_iff_toInt_le, hzero] at hle
    exact (max_eq_right hle).symm
  · rw [Int32.le_iff_toInt_le, hzero] at hle
    rw [hzero]
    exact (max_eq_left (by omega)).symm

theorem ticksAfter_nonneg (t : Thinks start) (htotal : 0 ≤ total) (k : Nat) :
    0 ≤ t.ticksAfter total k := by
  induction k with
  | zero => exact htotal
  | succ k ih =>
    rw [ticksAfter]
    split_ifs
    · exact le_max_left _ _
    · exact ih

/-- What is left of the rounds by a think. -/
def infosAfter (usesUp : Bool) (info : IntervalInfo) (infos : List IntervalInfo) :
    List IntervalInfo :=
  let info := { info with timeLeft := info.timeLeft - EVENT_CREATURE_THINK_INTERVAL }
  if info.timeLeft ≤ 0 then
    if usesUp then infos else { info with timeLeft := info.interval } :: infos
  else info :: infos

theorem baseExecute_think (hticks : 0 ≤ c.ticks.toInt) (now : Int) :
    c.baseExecuteCondition now EVENT_CREATURE_THINK_INTERVAL =
      (decide (now ≤ c.endTime),
        { c with ticks := max 0 (c.ticks - EVENT_CREATURE_THINK_INTERVAL) }) := by
  have hne : c.ticks ≠ -1 := by
    intro h
    rw [h] at hticks
    exact absurd hticks (by decide)
  rw [Condition.baseExecuteCondition, if_neg hne]

theorem baseExecute_zero (hticks : 0 ≤ c.ticks.toInt) (now : Int) :
    c.baseExecuteCondition now 0 = (decide (now ≤ c.endTime), c) := by
  have hne : c.ticks ≠ -1 := by
    intro h
    rw [h] at hticks
    exact absurd hticks (by decide)
  have hsame : max 0 (c.ticks - 0) = c.ticks := by
    rw [← Int32.toInt_inj, toInt_max_zero, Int32.sub_zero]
    exact max_eq_right hticks
  rw [Condition.baseExecuteCondition, if_neg hne, hsame]

/-- A think takes from the first round; it takes ticks where rounds are used up, and puts the end
off where they are not. -/
theorem Running.think (h : t.Running total k (info :: infos) c) (htotal : 0 ≤ total) :
    (c.executeCondition (t.env (k + 1)) EVENT_CREATURE_THINK_INTERVAL).1 =
        decide (t.Lasts total (k + 1)) ∧
    t.Running total (k + 1) (infosAfter (t.usesUp (k + 1)) info infos)
        (c.executeCondition (t.env (k + 1)) EVENT_CREATURE_THINK_INTERVAL).2 := by
  obtain ⟨⟨data, hdata, hperiod, hlist⟩, hticks, hend⟩ := h
  have hbounded : 0 ≤ c.ticks.toInt := hticks ▸ ticksAfter_nonneg t htotal k
  have hpositive : (0 < c.ticks) = (0 < t.ticksAfter total k) := by
    rw [Int32.lt_iff_toInt_lt, ← hticks]
    rfl
  simp only [Condition.executeCondition, hdata, Condition.damageExecuteCondition, hperiod,
    ne_eq, not_true_eq_false, if_false, hlist, t.now]
  cases huse : t.usesUp (k + 1) with
  | true =>
    have hendAfter : t.endAfter total (k + 1) = t.endAfter total k := by
      rw [endAfter, huse]
      rfl
    rw [usesUp] at huse
    rw [huse, if_pos rfl, baseExecute_think (by exact hbounded)]
    refine ⟨?_, ⟨_, rfl, rfl, rfl⟩, ?_, ?_⟩
    · simp only [hend, Lasts, hendAfter, Int.add_le_add_iff_left]
    · rw [toInt_max_zero, toInt_sub_think hbounded, hticks, ticksAfter, usesUp, huse, if_pos rfl]
    · rw [hendAfter]
      exact hend
  | false =>
    have hticksAfter : t.ticksAfter total (k + 1) = t.ticksAfter total k := by
      rw [ticksAfter, huse]
      rfl
    have hendAfter : t.endAfter total (k + 1) =
        if 0 < t.ticksAfter total k then t.endAfter total k + 1000 else t.endAfter total k := by
      rw [endAfter, huse]
      simp
    rw [usesUp] at huse
    rw [huse, if_neg Bool.false_ne_true, baseExecute_zero (by exact hbounded)]
    have hmoved : (if 0 < c.ticks then c.endTime + EVENT_CREATURE_THINK_INTERVAL.toInt
        else c.endTime) = start + t.endAfter total (k + 1) := by
      rw [hendAfter, hend]
      simp only [hpositive]
      split_ifs
      · exact Int.add_assoc start _ _
      · rfl
    refine ⟨?_, ⟨_, rfl, rfl, rfl⟩, hticks.trans hticksAfter.symm, hmoved⟩
    simp only [hmoved]
    exact decide_eq_decide.mpr (Int.add_le_add_iff_left start)

/-! ## Until a round is due -/

theorem dealt_succ (t : Thinks start) (k n : Nat) (c : Condition) :
    t.dealt k (n + 1) c = c.roundDealt EVENT_CREATURE_THINK_INTERVAL ++
      if (c.executeCondition (t.env (k + 1)) EVENT_CREATURE_THINK_INTERVAL).1 then
        t.dealt (k + 1) n
          (c.executeCondition (t.env (k + 1)) EVENT_CREATURE_THINK_INTERVAL).2
      else [] := rfl

/-- What is dealt from a think on is what it deals and what is dealt after it. -/
theorem deals_step {expected : List (Nat × Int32)} :
    t.Deals k c expected ↔
      if (c.executeCondition (t.env (k + 1)) EVENT_CREATURE_THINK_INTERVAL).1 then
        ∃ later, expected = c.roundDealt EVENT_CREATURE_THINK_INTERVAL ++ later ∧
          t.Deals (k + 1) (c.executeCondition (t.env (k + 1)) EVENT_CREATURE_THINK_INTERVAL).2
            later
      else expected = c.roundDealt EVENT_CREATURE_THINK_INTERVAL := by
  split_ifs with hgoes
  · constructor
    · rintro ⟨n₀, h⟩
      have hfirst := h (n₀ + 1) (Nat.le_succ n₀)
      rw [dealt_succ, if_pos hgoes] at hfirst
      refine ⟨_, hfirst.symm, n₀, fun n hn => ?_⟩
      have hn' := h (n + 1) (Nat.le_succ_of_le hn)
      rw [dealt_succ, if_pos hgoes, ← hfirst] at hn'
      exact List.append_cancel_left hn'
    · rintro ⟨later, rfl, n₀, h⟩
      refine ⟨n₀ + 1, fun n hn => ?_⟩
      obtain ⟨n, rfl⟩ : ∃ m, n = m + 1 := ⟨n - 1, by omega⟩
      rw [dealt_succ, if_pos hgoes, h n (by omega)]
  · constructor
    · rintro ⟨n₀, h⟩
      have hfirst := h (n₀ + 1) (Nat.le_succ n₀)
      rw [dealt_succ, if_neg hgoes, List.append_nil] at hfirst
      exact hfirst.symm
    · rintro rfl
      refine ⟨1, fun n hn => ?_⟩
      obtain ⟨n, rfl⟩ : ∃ m, n = m + 1 := ⟨n - 1, by omega⟩
      rw [dealt_succ, if_neg hgoes, List.append_nil]

/-- The round after some of its thinks. -/
structure Waits (r : DamageRound) (p : Nat) (info : IntervalInfo) : Prop where
  interval : info.interval = r.interval
  value : info.value = r.value
  timeLeft : info.timeLeft.toInt = r.interval.toInt - 1000 * p

variable {r : DamageRound} {p : Nat}

theorem waits_info (r : DamageRound) : Waits r 0 r.info := ⟨rfl, rfl, by simp [DamageRound.info]⟩

theorem Waits.due_iff (h : Waits r p info) (hp : p < r.thinks) :
    info.timeLeft - EVENT_CREATURE_THINK_INTERVAL ≤ 0 ↔ p + 1 = r.thinks := by
  have hpos := r.interval_ge
  unfold DamageRound.thinks at hp ⊢
  have hleft : 0 ≤ info.timeLeft.toInt := by
    rw [h.timeLeft]
    omega
  rw [Int32.le_iff_toInt_le, toInt_sub_think hleft, h.timeLeft,
    show (0 : Int32).toInt = 0 from rfl]
  omega

theorem Waits.next (h : Waits r p info) (hp : p + 1 < r.thinks) (u : Bool)
    (infos : List IntervalInfo) :
    ∃ info', infosAfter u info infos = info' :: infos ∧ Waits r (p + 1) info' := by
  have hdue := (h.due_iff (Nat.lt_of_succ_lt hp)).not.mpr (Nat.ne_of_lt hp)
  have hpos := r.interval_ge
  have hleft : 0 ≤ info.timeLeft.toInt := by
    unfold DamageRound.thinks at hp
    rw [h.timeLeft]
    omega
  refine ⟨{ info with timeLeft := info.timeLeft - EVENT_CREATURE_THINK_INTERVAL },
    by rw [infosAfter, if_neg hdue], h.interval, h.value, ?_⟩
  rw [toInt_sub_think hleft, h.timeLeft]
  omega

theorem Waits.due (h : Waits r p info) (hp : p + 1 = r.thinks) (u : Bool)
    (infos : List IntervalInfo) :
    infosAfter u info infos = if u then infos else r.info :: infos := by
  have hdue := (h.due_iff (by omega)).mpr hp
  rw [infosAfter, if_pos hdue]
  split_ifs
  · rfl
  · rw [h.interval, h.value]
    rfl

theorem Running.roundDealt (h : t.Running total k (info :: infos) c) :
    c.roundDealt EVENT_CREATURE_THINK_INTERVAL =
      if info.timeLeft - EVENT_CREATURE_THINK_INTERVAL ≤ 0 then [(infos.length, info.value)]
      else [] := by
  obtain ⟨⟨data, hdata, hperiod, hlist⟩, -, -⟩ := h
  simp only [Condition.roundDealt, hdata, hperiod, ne_eq, not_true_eq_false, if_false, hlist]

/-- A condition that ends before its first round is due deals nothing more. -/
theorem deals_early {n : Nat} (htotal : 0 ≤ total) {expected : List (Nat × Int32)}
    (h : t.Running total (k + p) (info :: infos) c) (hwaits : Waits r p info)
    (hn : p + n + 1 = r.thinks) (hends : ∃ i, p < i ∧ i < r.thinks ∧ ¬ t.Lasts total (k + i)) :
    t.Deals (k + p) c expected ↔ expected = [] := by
  induction n generalizing p c info with
  | zero =>
    obtain ⟨i, hlow, hhigh, -⟩ := hends
    omega
  | succ n ih =>
    obtain ⟨hgoes, hrun⟩ := h.think htotal
    obtain ⟨info', hinfos, hwaits'⟩ := hwaits.next (by omega) (t.usesUp (k + p + 1)) infos
    have hnone : c.roundDealt EVENT_CREATURE_THINK_INTERVAL = [] := by
      rw [h.roundDealt, if_neg ((hwaits.due_iff (by omega)).not.mpr (by omega))]
    rw [hinfos] at hrun
    rw [deals_step, hgoes, hnone]
    by_cases hlasts : t.Lasts total (k + p + 1)
    · rw [if_pos (decide_eq_true hlasts)]
      obtain ⟨i, hlow, hhigh, hi⟩ := hends
      have hne : i ≠ p + 1 := by
        rintro rfl
        exact hi hlasts
      have hlater := ih hrun hwaits' (by omega) ⟨i, by omega, hhigh, hi⟩
      simp only [List.nil_append, exists_eq_left']
      exact hlater
    · rw [if_neg (by rwa [decide_eq_true_eq])]

/-- A condition that lasts until its first round is due deals it at that think. -/
theorem deals_due {n : Nat} (htotal : 0 ≤ total)
    (h : t.Running total (k + p) (info :: infos) c) (hwaits : Waits r p info)
    (hn : p + n + 1 = r.thinks) (hlasts : ∀ i, p < i → i < r.thinks → t.Lasts total (k + i)) :
    ∃ c', t.Running total (k + r.thinks)
        (if t.usesUp (k + r.thinks) then infos else r.info :: infos) c' ∧
      ∀ expected, t.Deals (k + p) c expected ↔
        if t.Lasts total (k + r.thinks) then
          ∃ later, expected = (infos.length, r.value) :: later ∧ t.Deals (k + r.thinks) c' later
        else expected = [(infos.length, r.value)] := by
  induction n generalizing p c info with
  | zero =>
    obtain ⟨hgoes, hrun⟩ := h.think htotal
    have hdue : p + 1 = r.thinks := by omega
    have hround : c.roundDealt EVENT_CREATURE_THINK_INTERVAL = [(infos.length, r.value)] := by
      rw [h.roundDealt, if_pos ((hwaits.due_iff (by omega)).mpr hdue), hwaits.value]
    rw [hwaits.due hdue, Nat.add_assoc, hdue] at hrun
    refine ⟨_, hrun, fun expected => ?_⟩
    rw [deals_step, hgoes, hround, Nat.add_assoc, hdue]
    simp only [decide_eq_true_eq, List.cons_append, List.nil_append]
  | succ n ih =>
    obtain ⟨hgoes, hrun⟩ := h.think htotal
    obtain ⟨info', hinfos, hwaits'⟩ := hwaits.next (by omega) (t.usesUp (k + p + 1)) infos
    have hnone : c.roundDealt EVENT_CREATURE_THINK_INTERVAL = [] := by
      rw [h.roundDealt, if_neg ((hwaits.due_iff (by omega)).not.mpr (by omega))]
    rw [hinfos] at hrun
    obtain ⟨c', hrun', hdeals⟩ := ih hrun hwaits' (by omega) fun i hlow hhigh =>
      hlasts i (by omega) hhigh
    refine ⟨c', hrun', fun expected => ?_⟩
    have hnext : t.Lasts total (k + p + 1) := hlasts (p + 1) (by omega) (by omega)
    rw [← hdeals, deals_step, hgoes, hnone, if_pos (decide_eq_true hnext)]
    simp only [List.nil_append, exists_eq_left']
    rfl

theorem deals_none (h : t.Running total k [] c) : t.Deals k c [] := by
  obtain ⟨data, hdata, hperiod, hlist⟩ := h.data
  refine ⟨0, fun n _ => ?_⟩
  clear h
  induction n generalizing k c with
  | zero => rfl
  | succ n ih =>
    have hround : c.roundDealt EVENT_CREATURE_THINK_INTERVAL = [] := by
      simp only [Condition.roundDealt, hdata, hperiod, ne_eq, not_true_eq_false, if_false, hlist]
    have hsame : (c.executeCondition (t.env (k + 1)) EVENT_CREATURE_THINK_INTERVAL).2.data =
        .damage data := by
      simp only [Condition.executeCondition, hdata, Condition.damageExecuteCondition, hperiod,
        ne_eq, not_true_eq_false, if_false, hlist, Condition.baseExecuteCondition]
      split_ifs
      · exact hdata
      · rfl
    rw [dealt_succ, hround, List.nil_append]
    split_ifs
    · exact ih hsame (Nat.zero_le n)
    · rfl

/-! ## The whole run -/

theorem thinks_split (r : DamageRound) : 0 + (r.thinks - 1) + 1 = r.thinks := by
  have hpos := r.interval_ge
  unfold DamageRound.thinks
  omega

theorem fresh_early (htotal : 0 ≤ total) (h : t.Running total k (r.info :: infos) c)
    (hends : ∃ i, 0 < i ∧ i < r.thinks ∧ ¬ t.Lasts total (k + i))
    {expected : List (Nat × Int32)} : t.Deals k c expected ↔ expected = [] :=
  @deals_early _ _ _ k c r.info infos r 0 (r.thinks - 1) htotal expected h (waits_info r)
    (thinks_split r) hends

theorem fresh_due (htotal : 0 ≤ total) (h : t.Running total k (r.info :: infos) c)
    (hlasts : ¬ ∃ i, 0 < i ∧ i < r.thinks ∧ ¬ t.Lasts total (k + i)) :
    ∃ c', t.Running total (k + r.thinks)
        (if t.usesUp (k + r.thinks) then infos else r.info :: infos) c' ∧
      ∀ expected, t.Deals k c expected ↔
        if t.Lasts total (k + r.thinks) then
          ∃ later, expected = (infos.length, r.value) :: later ∧ t.Deals (k + r.thinks) c' later
        else expected = [(infos.length, r.value)] :=
  @deals_due _ _ _ k c r.info infos r 0 (r.thinks - 1) htotal h (waits_info r) (thinks_split r)
    fun i hlow hhigh => not_not.mp fun hnot => hlasts ⟨i, hlow, hhigh, hnot⟩

theorem eachOnce_ne_nil {rounds : List DamageRound} (h : rounds ≠ []) : eachOnce rounds ≠ [] := by
  obtain ⟨r, rest, rfl⟩ := List.exists_cons_of_ne_nil h
  exact List.cons_ne_nil _ _

/-- Nothing is dealt after a round that was not used up exactly when the condition ends before it
is due again. -/
theorem deals_nil_iff (htotal : 0 ≤ total) (h : t.Running total k (r.info :: infos) c) :
    t.Deals k c [] ↔ ∃ i, 0 < i ∧ i < r.thinks ∧ ¬ t.Lasts total (k + i) := by
  constructor
  · intro hdeals
    by_contra hends
    obtain ⟨c', -, hdue⟩ := fresh_due htotal h hends
    have hfirst := (hdue []).mp hdeals
    split_ifs at hfirst
    obtain ⟨rest, hrest, -⟩ := hfirst
    cases hrest
  · exact fun hends => (fresh_early htotal h hends).mpr rfl

/-- A round that was not used up is the next to be dealt. -/
theorem deals_again (htotal : 0 ≤ total) (h : t.Running total k (r.info :: infos) c)
    {later : List (Nat × Int32)} (hdeals : t.Deals k c later) :
    later = [] ∨ ∃ rest, later = (infos.length, r.value) :: rest := by
  by_cases hends : ∃ i, 0 < i ∧ i < r.thinks ∧ ¬ t.Lasts total (k + i)
  · exact .inl ((fresh_early htotal h hends).mp hdeals)
  · obtain ⟨c', -, hdue⟩ := fresh_due htotal h hends
    have hfirst := (hdue later).mp hdeals
    split_ifs at hfirst
    · obtain ⟨rest, hrest, -⟩ := hfirst
      exact .inr ⟨rest, hrest⟩
    · exact .inr ⟨[], hfirst⟩

theorem lasts_all_of (hhere : t.Lasts total k)
    (hlasts : ¬ ∃ i, 0 < i ∧ i < r.thinks ∧ ¬ t.Lasts total (k + i)) :
    ∀ i < r.thinks, t.Lasts total (k + i) := by
  intro i hi
  obtain rfl | hlow := Nat.eq_zero_or_pos i
  · exact hhere
  · exact not_not.mp fun hnot => hlasts ⟨i, hlow, hi, hnot⟩

/-- After the last round is dealt, nothing more is dealt where it is used up or the condition ends
before it is due again. -/
theorem deals_last (htotal : 0 ≤ total) {c' : Condition}
    (hrun : t.Running total (k + r.thinks)
      (if t.usesUp (k + r.thinks) then [] else [r.info]) c') :
    (t.Lasts total (k + r.thinks) → t.Deals (k + r.thinks) c' []) ↔
      t.usesUp (k + r.thinks) = true ∨ ∃ i < r.thinks, ¬ t.Lasts total (k + r.thinks + i) := by
  have hpos : 0 < r.thinks := by
    have := thinks_split r
    omega
  cases huse : t.usesUp (k + r.thinks) with
  | true =>
    rw [huse, if_pos rfl] at hrun
    exact ⟨fun _ => .inl rfl, fun _ _ => deals_none hrun⟩
  | false =>
    rw [huse, if_neg Bool.false_ne_true] at hrun
    rw [deals_nil_iff htotal hrun]
    constructor
    · intro h
      refine .inr ?_
      by_cases hlasts : t.Lasts total (k + r.thinks)
      · obtain ⟨i, -, hi, hnot⟩ := h hlasts
        exact ⟨i, hi, hnot⟩
      · exact ⟨0, hpos, hlasts⟩
    · intro h hlasts
      obtain ⟨i, hi, hnot⟩ := h.resolve_left Bool.false_ne_true
      refine ⟨i, Nat.pos_of_ne_zero ?_, hi, hnot⟩
      rintro rfl
      exact hnot hlasts

theorem deals_iff_fits {rounds : List DamageRound} (htotal : 0 ≤ total)
    (h : t.Running total k (rounds.map DamageRound.info) c)
    (hlasts : rounds ≠ [] → t.Lasts total k) :
    t.Deals k c (eachOnce rounds) ↔ t.Fits total k rounds := by
  induction rounds generalizing k c with
  | nil => exact ⟨fun _ => trivial, fun _ => deals_none h⟩
  | cons r rest ih =>
    have hhere := hlasts (List.cons_ne_nil _ _)
    rw [Fits]
    by_cases hends : ∃ i, 0 < i ∧ i < r.thinks ∧ ¬ t.Lasts total (k + i)
    · rw [fresh_early htotal h hends]
      refine ⟨fun hnil => absurd hnil (List.cons_ne_nil _ _), fun hfits => ?_⟩
      obtain ⟨i, -, hhigh, hi⟩ := hends
      exact absurd (hfits.1 i hhigh) hi
    · have hall := lasts_all_of hhere hends
      obtain ⟨c', hrun, hdue⟩ := fresh_due htotal h hends
      rw [hdue, eachOnce, List.length_map]
      simp only [List.cons.injEq, true_and, exists_eq_left']
      cases rest with
      | nil =>
        have hlast := deals_last htotal hrun
        constructor
        · intro hdeals
          refine ⟨hall, absurd rfl, fun _ => hlast.mp fun hl => ?_, trivial⟩
          rwa [if_pos hl] at hdeals
        · intro hfits
          split_ifs with hl
          · exact hlast.mpr (hfits.2.2.1 rfl) hl
          · rfl
      | cons next rest =>
        have hne := List.cons_ne_nil next rest
        constructor
        · intro hdeals
          split_ifs at hdeals with hl
          · cases huse : t.usesUp (k + r.thinks) with
            | true =>
              rw [huse, if_pos rfl] at hrun
              exact ⟨hall, fun _ => rfl, nofun, (ih hrun fun _ => hl).mp hdeals⟩
            | false =>
              rw [huse, if_neg Bool.false_ne_true] at hrun
              obtain hnil | ⟨later, hlater⟩ := deals_again htotal hrun hdeals
              · exact absurd hnil (eachOnce_ne_nil hne)
              · have hnumber := (Prod.mk.inj (List.cons.inj hlater).1).1
                rw [List.length_map, List.length_cons] at hnumber
                omega
          · exact absurd hdeals (eachOnce_ne_nil hne)
        · intro hfits
          rw [hfits.2.1 hne, if_pos rfl] at hrun
          have hl : t.Lasts total (k + r.thinks) := by
            have hpos := thinks_split next
            exact hfits.2.2.2.1 0 (by omega)
          rw [if_pos hl]
          exact (ih hrun fun _ => hl).mpr hfits.2.2.2

/-! ## Outside of fields -/

theorem endAfter_of_usesUp (huse : ∀ k, t.usesUp k = true) (total : Int) (k : Nat) :
    t.endAfter total k = total := by
  induction k with
  | zero => rfl
  | succ k ih =>
    rw [endAfter, huse, ih]
    rfl

/-- The thinks that use up the intervals one after the other. -/
def thinksOf (rounds : List DamageRound) : Nat := (rounds.map DamageRound.thinks).sum

/-- Outside of fields the rounds fit exactly when the end comes no earlier than the think before
the last round is due. -/
theorem fits_of_usesUp (huse : ∀ k, t.usesUp k = true) {rounds : List DamageRound} :
    t.Fits total k rounds ↔ ∀ i < thinksOf rounds, 1000 * ((k + i : Nat) : Int) ≤ total := by
  induction rounds generalizing k with
  | nil => exact ⟨fun _ i hi => absurd hi (Nat.not_lt_zero i), fun _ => trivial⟩
  | cons r rest ih =>
    rw [Fits, ih]
    simp only [huse, Lasts, endAfter_of_usesUp huse, implies_true, true_or, true_and]
    have hsum : thinksOf (r :: rest) = r.thinks + thinksOf rest := List.sum_cons
    rw [hsum]
    constructor
    · rintro ⟨hfirst, hrest⟩ i hi
      obtain hlt | hge := Nat.lt_or_ge i r.thinks
      · exact hfirst i hlt
      · have := hrest (i - r.thinks) (by omega)
        rwa [Nat.add_assoc, Nat.add_sub_cancel' hge] at this
    · intro h
      refine ⟨fun i hi => h i (by omega), fun i hi => ?_⟩
      rw [Nat.add_assoc]
      exact h (r.thinks + i) (by omega)

end Thinks

/-! ## Schedules -/

namespace Condition

open DamageRound

/-- A damage condition that is created, given its parameters and its rounds. The ticks are left to
the rounds, whose sum stays a number of the machine. -/
inductive Scheduled : Condition → List DamageRound → Prop
  | create {id : Int8} {type : ConditionType} {ticks param : Int32} {buff : Bool} {subId : UInt32}
      {aggressive : Bool} {c : Condition}
      (h : createCondition id type ticks param buff subId aggressive = some c)
      (hkind : type.kind = some .damage) : Scheduled c []
  | setParam {c : Condition} {rounds : List DamageRound} (h : Scheduled c rounds)
      (param : ConditionParam) (value : Int32) (hticks : param ≠ .ticks)
      (hperiodic : param ≠ .periodicDamage) : Scheduled (c.setParam param value).2 rounds
  | setInitDamage {c : Condition} {rounds : List DamageRound} (h : Scheduled c rounds)
      (initDamage : Int32) : Scheduled (c.setInitDamage initDamage) rounds
  | addDamage {c : Condition} {rounds : List DamageRound} (h : Scheduled c rounds) (now : Int)
      {count : Int32} (hcount : count ≠ -1) (r : DamageRound)
      (hsum : total (rounds ++ List.replicate count.toInt.toNat r) < 2 ^ 31) :
      Scheduled (c.addDamage now count r.interval r.value)
        (rounds ++ List.replicate count.toInt.toNat r)

theorem le_max_right_int32 (a b : Int32) : b ≤ max a b := by
  change b ≤ if a ≤ b then b else a
  split_ifs with hle
  · exact Int32.le_refl b
  · rw [Int32.le_iff_toInt_le] at hle ⊢
    omega

/-- The rounds that `init` schedules of its own for a condition without any. -/
def initRounds (data : ConditionDamage) (env : Surroundings) : List DamageRound :=
  env.damages.map fun value =>
    ⟨max data.tickInterval EVENT_CREATURE_THINK_INTERVAL, -value, le_max_right_int32 _ _⟩

/-- A condition that was started with the rounds scheduled for it. -/
inductive Started (env : Surroundings) : Condition → List DamageRound → Prop
  | scheduled {c c' : Condition} {rounds : List DamageRound} (h : Scheduled c rounds)
      (hne : rounds ≠ []) (hstart : c.startCondition env = some c') : Started env c' rounds
  | initialised {c c' : Condition} {data : ConditionDamage} (h : Scheduled c [])
      (hdata : c.data = .damage data) (hstart : c.startCondition env = some c')
      (hsum : total (initRounds data env) < 2 ^ 31) : Started env c' (initRounds data env)

/-- The rounds are in the list and their intervals in the ticks. -/
structure Holds (c : Condition) (rounds : List DamageRound) : Prop where
  data : ∃ data, c.data = .damage data ∧ data.periodDamage = 0 ∧
    data.damageList = rounds.map DamageRound.info
  ticks : c.ticks.toInt = total rounds

variable {c : Condition} {rounds : List DamageRound} {r : DamageRound}

theorem total_append (rounds rounds' : List DamageRound) :
    total (rounds ++ rounds') = total rounds + total rounds' := by
  simp only [total, List.map_append, List.sum_append]

theorem total_cons (r : DamageRound) (rounds : List DamageRound) :
    total (r :: rounds) = r.interval.toInt + total rounds := by
  simp only [total, List.map_cons, List.sum_cons]

@[simp] theorem total_nil : total [] = 0 := rfl

theorem total_nonneg (rounds : List DamageRound) : 0 ≤ total rounds := by
  induction rounds with
  | nil => exact Int.le_refl 0
  | cons r rounds ih =>
    have hpos := r.interval_ge
    rw [total_cons]
    omega

theorem Holds.pushRound (h : c.Holds rounds) (now : Int)
    (hsum : total (rounds ++ [r]) < 2 ^ 31) {data : ConditionDamage} (hdata : c.data = .damage data) :
    (c.pushRound now r.interval r.value data).Holds (rounds ++ [r]) ∧
      (c.pushRound now r.interval r.value data).endTime =
        (c.pushRound now r.interval r.value data).ticks.toInt + now := by
  obtain ⟨⟨data', hdata', hperiod, hlist⟩, hticks⟩ := h
  obtain rfl : data = data' := ConditionData.damage.inj (hdata.symm.trans hdata')
  have hnonneg := total_nonneg rounds
  have hne : c.ticks ≠ -1 := by
    intro hticks'
    rw [hticks'] at hticks
    exact absurd (hticks ▸ hnonneg) (by decide)
  rw [total_append, total_cons, total_nil, Int.add_zero] at hsum
  have hpos := r.interval_ge
  have hadd : (c.ticks + r.interval).toInt = total rounds + r.interval.toInt := by
    rw [Int32.toInt_add, hticks]
    exact Int.bmod_eq_of_le (by omega) (by omega)
  simp only [Condition.pushRound, hne, ne_eq, not_false_eq_true, if_true, setTicks]
  refine ⟨⟨⟨_, rfl, hperiod, ?_⟩, ?_⟩, trivial⟩
  · simp only [hlist, List.map_append, List.map_cons, List.map_nil]
    rfl
  · rw [hadd, total_append, total_cons, total_nil, Int.add_zero]

theorem Holds.pushRounds (h : c.Holds rounds) (now : Int) {n : Nat}
    (hsum : total (rounds ++ List.replicate n r) < 2 ^ 31) :
    (c.pushRounds now r.interval r.value n).Holds (rounds ++ List.replicate n r) ∧
      (c.endTime = c.ticks.toInt + now → (c.pushRounds now r.interval r.value n).endTime =
        (c.pushRounds now r.interval r.value n).ticks.toInt + now) := by
  induction n generalizing c rounds with
  | zero =>
    rw [List.replicate_zero, List.append_nil]
    exact ⟨h, fun hend => hend⟩
  | succ n ih =>
    have hsplit : rounds ++ List.replicate (n + 1) r = rounds ++ [r] ++ List.replicate n r := by
      rw [List.replicate_succ, List.append_assoc, List.singleton_append]
    rw [hsplit] at hsum ⊢
    obtain ⟨data, hdata, -, -⟩ := h.data
    have hfirst : total (rounds ++ [r]) < 2 ^ 31 := by
      have hnonneg := total_nonneg (List.replicate n r)
      rw [total_append] at hsum
      omega
    obtain ⟨hpush, hend⟩ := h.pushRound now hfirst hdata
    obtain ⟨hrest, hrestEnd⟩ := ih hpush hsum
    simp only [Condition.pushRounds, hdata]
    exact ⟨hrest, fun _ => hrestEnd hend⟩

theorem max_interval (r : DamageRound) :
    max r.interval EVENT_CREATURE_THINK_INTERVAL = r.interval := by
  change (if r.interval ≤ EVENT_CREATURE_THINK_INTERVAL then EVENT_CREATURE_THINK_INTERVAL
    else r.interval) = _
  split_ifs with hle
  · have hge := r.thinks_between
    rw [Int32.le_iff_toInt_le] at hle hge
    exact Int32.toInt_inj.mp (Int.le_antisymm hge hle)
  · rfl

theorem Holds.addDamage (h : c.Holds rounds) (now : Int) {count time : Int32}
    (hcount : count ≠ -1) (htime : max time EVENT_CREATURE_THINK_INTERVAL = r.interval)
    (hsum : total (rounds ++ List.replicate count.toInt.toNat r) < 2 ^ 31) :
    (c.addDamage now count time r.value).Holds
        (rounds ++ List.replicate count.toInt.toNat r) ∧
      (c.endTime = c.ticks.toInt + now → (c.addDamage now count time r.value).endTime =
        (c.addDamage now count time r.value).ticks.toInt + now) := by
  obtain ⟨data, hdata, hperiod, -⟩ := h.data
  have hnot : ¬ (0 : Int32) < data.periodDamage := by
    rw [hperiod]
    decide
  simp only [Condition.addDamage, hdata, if_neg hcount, if_neg hnot, htime]
  exact h.pushRounds now hsum

theorem Scheduled.holds (h : Scheduled c rounds) : c.Holds rounds := by
  induction h with
  | @create id type ticks param buff subId aggressive c h hkind =>
    simp only [createCondition, hkind, Option.map_some, if_true, Option.some.injEq] at h
    subst h
    exact ⟨⟨_, rfl, rfl, rfl⟩, rfl⟩
  | setParam h param value hticks hperiodic ih =>
    obtain ⟨⟨data, hdata, hperiod, hlist⟩, hsum⟩ := ih
    simp only [Condition.setParam, hdata]
    cases param <;> first
      | exact absurd rfl hticks
      | exact absurd rfl hperiodic
      | exact ⟨⟨_, rfl, hperiod, hlist⟩, hsum⟩
      | exact ⟨⟨_, hdata, hperiod, hlist⟩, hsum⟩
  | setInitDamage h initDamage ih =>
    obtain ⟨⟨data, hdata, hperiod, hlist⟩, hsum⟩ := ih
    simp only [Condition.setInitDamage, hdata]
    exact ⟨⟨_, rfl, hperiod, hlist⟩, hsum⟩
  | addDamage h now hcount r hsum ih => exact (ih.addDamage now hcount (max_interval r) hsum).1

theorem holds_init (now : Int) (time : Int32) (values : List Int32) (h : c.Holds rounds)
    (hend : c.endTime = c.ticks.toInt + now) {drawn : List DamageRound}
    (hdrawn : drawn = values.map fun value =>
      ⟨max time EVENT_CREATURE_THINK_INTERVAL, -value, le_max_right_int32 _ _⟩)
    (hsum : total (rounds ++ drawn) < 2 ^ 31) :
    (values.foldl (fun c value => c.addDamage now 1 time (-value)) c).Holds (rounds ++ drawn) ∧
      (values.foldl (fun c value => c.addDamage now 1 time (-value)) c).endTime =
        (values.foldl (fun c value => c.addDamage now 1 time (-value)) c).ticks.toInt + now := by
  induction values generalizing c rounds drawn with
  | nil =>
    subst hdrawn
    rw [List.map_nil, List.append_nil]
    exact ⟨h, hend⟩
  | cons value values ih =>
    let r : DamageRound :=
      ⟨max time EVENT_CREATURE_THINK_INTERVAL, -value, le_max_right_int32 _ _⟩
    have hsplit : rounds ++ drawn = rounds ++ [r] ++ values.map fun value =>
        ⟨max time EVENT_CREATURE_THINK_INTERVAL, -value, le_max_right_int32 _ _⟩ := by
      rw [hdrawn, List.map_cons, List.append_assoc, List.singleton_append]
    rw [hsplit] at hsum ⊢
    have hfirst : total (rounds ++ [r]) < 2 ^ 31 := by
      have hnonneg := total_nonneg (values.map fun value =>
        (⟨max time EVENT_CREATURE_THINK_INTERVAL, -value, le_max_right_int32 _ _⟩ : DamageRound))
      rw [total_append] at hsum
      omega
    obtain ⟨hadd, haddEnd⟩ :=
      @Holds.addDamage c rounds r h now 1 time (by decide) rfl hfirst
    exact ih hadd (haddEnd hend) rfl hsum

theorem init_draws {env : Surroundings} {data : ConditionDamage} (hdata : c.data = .damage data)
    (hperiod : data.periodDamage = 0) (hlist : data.damageList = [])
    (hinit : (c.init env).1 = true) :
    ∃ startDamage, (c.init env).2 =
      env.damages.foldl (fun c value => c.addDamage env.now 1 data.tickInterval (-value))
        { c.setTicks env.now 0 with data := .damage { data with startDamage := startDamage } } := by
  have hidle : ¬ (data.periodDamage ≠ 0 ∨ data.damageList ≠ []) := by
    rw [hperiod, hlist]
    simp
  simp only [init, hdata, if_neg hidle] at hinit ⊢
  split_ifs at hinit ⊢ with hamount
  all_goals exact ⟨_, rfl⟩

/-- A started condition holds its rounds, and its end is the sum of their intervals away. -/
theorem Started.running {env : Surroundings} (h : Started env c rounds) (t : Thinks env.now) :
    t.Running (total rounds) 0 (rounds.map DamageRound.info) c := by
  cases h with
  | @scheduled c₀ _ _ h hne hstart =>
    obtain ⟨⟨data, hdata, hperiod, hlist⟩, hticks⟩ := h.holds
    obtain ⟨r, rest, rfl⟩ := List.exists_cons_of_ne_nil hne
    have hpositive : (0 : Int32) < c₀.ticks := by
      have hpos := r.interval_ge
      have hnonneg := total_nonneg rest
      rw [Int32.lt_iff_toInt_lt, hticks, total_cons]
      change (0 : Int) < _
      omega
    have hlist' : data.damageList ≠ [] := by
      rw [hlist]
      exact List.cons_ne_nil _ _
    simp only [startCondition, baseStartCondition, if_pos hpositive, hdata] at hstart
    split_ifs at hstart with hblocked hinit
    obtain rfl := Option.some.inj hstart
    simp only [init, hlist', ne_eq, not_false_eq_true, or_true, if_true]
    refine ⟨⟨data, rfl, hperiod, hlist⟩, hticks, ?_⟩
    change c₀.ticks.toInt + env.now = env.now + total (r :: rest)
    rw [hticks, Int.add_comm]
  | @initialised c₀ _ data h hdata hstart hsum =>
    obtain ⟨⟨data', hdata', hperiod, hlist⟩, hticks⟩ := h.holds
    obtain rfl : data = data' := ConditionData.damage.inj (hdata.symm.trans hdata')
    have hnone : ¬ (0 : Int32) < c₀.ticks := by
      rw [Int32.lt_iff_toInt_lt, hticks]
      decide
    simp only [startCondition, baseStartCondition, if_neg hnone, hdata] at hstart
    split_ifs at hstart with hblocked hinit
    obtain rfl := Option.some.inj hstart
    obtain ⟨startDamage, hinit'⟩ := init_draws hdata hperiod hlist hinit
    obtain ⟨⟨hdata', hticks'⟩, hend⟩ := @holds_init
      { c₀.setTicks env.now 0 with data := .damage { data with startDamage := startDamage } }
      [] env.now data.tickInterval env.damages ⟨⟨_, rfl, hperiod, hlist⟩, rfl⟩ rfl _ rfl hsum
    rw [hinit']
    refine ⟨hdata', hticks', hend.trans ?_⟩
    rw [hticks', Int.add_comm]
    rfl

/-- Every scheduled round is dealt once and in order exactly where the rounds fit. Outside of
fields they fit when the end comes no earlier than the think before the last round is due. -/
theorem rounds_dealt_iff {env : Surroundings} (h : Started env c rounds) (t : Thinks env.now) :
    (t.Deals 0 c (Thinks.eachOnce rounds) ↔ t.Fits (total rounds) 0 rounds) ∧
    ((∀ k, t.usesUp k = true) → (t.Fits (total rounds) 0 rounds ↔
      1000 * ((Thinks.thinksOf rounds : Int) - 1) ≤ total rounds)) := by
  have hnonneg := total_nonneg rounds
  refine ⟨Thinks.deals_iff_fits hnonneg (h.running t) fun _ => hnonneg, fun huse => ?_⟩
  rw [Thinks.fits_of_usesUp huse]
  constructor
  · intro hfits
    obtain hzero | hpos := Nat.eq_zero_or_pos (Thinks.thinksOf rounds)
    · omega
    · have hlast := hfits (Thinks.thinksOf rounds - 1) (by omega)
      omega
  · intro hfits i hi
    omega

/-- The surroundings of a creature that stands in no field. -/
def calm (now : Int) : Surroundings where
  now := now
  isPlayer := true
  protectionZone := false
  initDamage := true
  bRemove := true
  amount := 0
  damages := []
  speedDelta := 0
  skills := fun _ => 0
  stats := fun _ => 0

def calmThinks : Thinks (calm 0).now := ⟨fun k => calm (1000 * k), fun _ => (Int.zero_add _).symm⟩

def burn (interval : Int32) (h : EVENT_CREATURE_THINK_INTERVAL ≤ interval) : DamageRound :=
  ⟨interval, -10, h⟩

/-- A condition of fire with three rounds, between its start and its first think. -/
def burning (interval : Int32) : Option Condition :=
  (createCondition CONDITIONID_COMBAT .fire 0 0 false 0 false).bind fun c =>
    (c.addDamage 0 3 interval (-10)).startCondition (calm 0)

theorem burning_started {interval : Int32} (h : EVENT_CREATURE_THINK_INTERVAL ≤ interval)
    (hsum : total (List.replicate 3 (burn interval h)) < 2 ^ 31) (hburning : burning interval = some c) :
    Started (calm 0) c (List.replicate 3 (burn interval h)) := by
  have hscheduled := @Scheduled.addDamage _ _
    (@Scheduled.create CONDITIONID_COMBAT .fire 0 0 false 0 false _ rfl rfl) 0 3 (by decide)
    (burn interval h) hsum
  exact .scheduled hscheduled (List.cons_ne_nil _ _) hburning

theorem rounds_dealt_iff_burning : ∃ c, burning 2000 = some c ∧
    (calmThinks.Deals 0 c (Thinks.eachOnce (List.replicate 3 (burn 2000 (by decide)))) ↔
      calmThinks.Fits (total (List.replicate 3 (burn 2000 (by decide)))) 0
        (List.replicate 3 (burn 2000 (by decide)))) :=
  ⟨_, rfl, (rounds_dealt_iff (burning_started (by decide) (by decide) rfl) calmThinks).1⟩

/-- Three rounds every one and a half seconds take six thinks, but end before the sixth. -/
theorem burning_cut_short : ∃ c, burning 1500 = some c ∧
    Started (calm 0) c (List.replicate 3 (burn 1500 (by decide))) ∧
    (∀ k, calmThinks.usesUp k = true) ∧
    ¬ calmThinks.Deals 0 c (Thinks.eachOnce (List.replicate 3 (burn 1500 (by decide)))) := by
  have huse : ∀ k, calmThinks.usesUp k = true := fun _ => rfl
  have hstarted := @burning_started _ 1500 (by decide) (by decide) rfl
  refine ⟨_, rfl, hstarted, huse, ?_⟩
  rw [Thinks.deals_iff_fits (total_nonneg _) (hstarted.running calmThinks) fun _ => total_nonneg _,
    Thinks.fits_of_usesUp huse]
  decide

end Condition

end Eloth
