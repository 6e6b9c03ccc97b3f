import Mathlib.Data.List.Infix
import Eloth.Texts

/-!
# Splitting strings

`explodeString` with a separator of any length and a limit, which counts down before every split.
A limit of -1 stands for none.
-/

namespace Eloth.Strings

/-- `std::string::find` from a position on. -/
def find (inString separator : List UInt8) (start : Nat) : Option Nat :=
  (List.range' start (inString.length + 1 - start)).find? fun i =>
    separator.isPrefixOf (inString.drop i)

def substr (inString : List UInt8) (pos n : Nat) : List UInt8 := (inString.drop pos).take n

def explodeLoop (inString separator : List UInt8) :
    Nat → Int32 → Nat → List (List UInt8) → Option (List (List UInt8))
  | 0, _, _, _ => none
  | fuel + 1, limit, start, returnVector =>
    let limit := limit - 1
    match if limit ≠ -1 then find inString separator start else none with
    | some stop =>
      explodeLoop inString separator fuel limit (stop + separator.length)
        (returnVector ++ [substr inString start (stop - start)])
    | none => some (returnVector ++ [inString.drop start])

def explodeString (fuel : Nat) (inString separator : List UInt8) (limit : Int32) :
    Option (List (List UInt8)) :=
  explodeLoop inString separator fuel limit 0 []

variable {inString separator part rest : List UInt8} {start stop fuel : Nat} {limit : Int32}

/-! ## Finding -/

/-- What stands from the start to the end, and that the separator is not found before. -/
structure Found (inString separator : List UInt8) (start stop : Nat) : Prop where
  le : start ≤ stop
  split : inString.drop start =
    substr inString start (stop - start) ++ separator ++ inString.drop (stop + separator.length)
  inside : stop + separator.length ≤ inString.length
  first : ¬ separator <:+: substr inString start (stop - start)

theorem find_eq_some (h : find inString separator start = some stop) :
    start ≤ stop ∧ separator <+: inString.drop stop ∧
      ∀ j, start ≤ j → j < stop → ¬ separator <+: inString.drop j := by
  obtain ⟨hbegins, hmem, hfirst⟩ := List.find?_range'_eq_some.mp h
  refine ⟨(List.mem_range'_1.mp hmem).1, List.isPrefixOf_iff_prefix.mp hbegins, ?_⟩
  intro j hj hlt hbefore
  have hnot := hfirst j hj hlt
  rw [List.isPrefixOf_iff_prefix.mpr hbefore] at hnot
  exact absurd hnot (by decide)

/-- An occurrence at some place in a text starts a suffix of it. -/
theorem prefix_drop_of_infix (hne : separator ≠ []) (hpart : inString.drop start = part ++ rest)
    (h : separator <:+: part) :
    ∃ j, start ≤ j ∧ j < start + part.length ∧ separator <+: inString.drop j := by
  obtain ⟨front, back, rfl⟩ := h
  have hlength := List.length_pos_iff.mpr hne
  refine ⟨start + front.length, Nat.le_add_right _ _, ?_, back ++ rest, ?_⟩
  · simp only [List.length_append]
    omega
  · rw [← List.drop_drop, hpart, List.append_assoc, List.append_assoc, List.drop_left]

theorem found_of_find (hne : separator ≠ []) (h : find inString separator start = some stop) :
    Found inString separator start stop := by
  obtain ⟨hle, ⟨rest, hrest⟩, hfirst⟩ := find_eq_some h
  have hsplit : inString.drop start =
      substr inString start (stop - start) ++ inString.drop stop := by
    have hdrop : inString.drop stop = (inString.drop start).drop (stop - start) := by
      rw [List.drop_drop, Nat.add_sub_cancel' hle]
    rw [hdrop, substr, List.take_append_drop]
  have hafter : inString.drop (stop + separator.length) = rest := by
    rw [← List.drop_drop, ← hrest, List.drop_left]
  refine ⟨hle, ?_, ?_, fun hinfix => ?_⟩
  · rw [hafter, List.append_assoc, hrest, hsplit]
  · have hlength := congrArg List.length hrest
    have hpos := List.length_pos_iff.mpr hne
    rw [List.length_append, List.length_drop] at hlength
    omega
  · obtain ⟨j, hj, hlt, hbegins⟩ := prefix_drop_of_infix hne hsplit hinfix
    have htake : (substr inString start (stop - start)).length ≤ stop - start :=
      List.length_take_le _ _
    exact hfirst j hj (by omega) hbegins

theorem not_infix_of_find_none (hne : separator ≠ [])
    (h : find inString separator start = none) : ¬ separator <:+: inString.drop start := by
  intro hinfix
  obtain ⟨j, hj, hlt, hbegins⟩ :=
    prefix_drop_of_infix hne (List.append_nil (inString.drop start)).symm hinfix
  rw [List.length_drop] at hlt
  have hnot := List.find?_range'_eq_none.mp h j hj (by omega)
  rw [List.isPrefixOf_iff_prefix.mpr hbegins] at hnot
  exact absurd hnot (by decide)

/-! ## The loop -/

/-- The splits that a limit leaves room for. -/
def splits (limit : Int32) : Nat := limit.toUInt32.toNat

theorem splits_pred (h : limit - 1 ≠ -1) : splits limit = splits (limit - 1) + 1 := by
  have hne : limit.toUInt32.toNat ≠ 0 := by
    intro hzero
    have hbits : limit.toUInt32 = 0 := UInt32.toNat_inj.mp hzero
    have hlimit : limit.toUInt32.toInt32 = (0 : UInt32).toInt32 := congrArg UInt32.toInt32 hbits
    exact h (congrArg (· - 1) hlimit)
  have hone : (1 : UInt32).toNat = 1 := rfl
  have hpos : (1 : UInt32) ≤ limit.toUInt32 := UInt32.le_iff_toNat_le.mpr (by omega)
  have hsub : (limit - 1).toUInt32 = limit.toUInt32 - 1 := rfl
  rw [splits, splits, hsub, UInt32.toNat_sub_of_le _ _ hpos]
  omega

theorem splits_of_nonneg (h : 0 ≤ limit) : splits limit = limit.toInt.toNat := by
  rw [splits, Int32.toNat_toUInt32_of_le h]
  rfl

/-- The parts make up the text; only the last may hold the separator, when no split is left. -/
structure Parts (text separator : List UInt8) (count : Nat) (parts : List (List UInt8)) :
    Prop where
  joined : separator.intercalate parts = text
  unsplit : ∀ part ∈ parts.dropLast, ¬ separator <:+: part
  ne_nil : parts ≠ []
  length_le : parts.length ≤ count + 1
  last : parts.length < count + 1 → ∀ part ∈ parts, ¬ separator <:+: part

theorem Parts.singleton {text : List UInt8} {count : Nat}
    (h : 0 < count → ¬ separator <:+: text) : Parts text separator count [text] where
  joined := List.intercalate_singleton
  unsplit := fun _ hpart => absurd hpart List.not_mem_nil
  ne_nil := List.cons_ne_nil _ _
  length_le := Nat.succ_le_succ (Nat.zero_le _)
  last := fun hlt _ hpart =>
    List.mem_singleton.mp hpart ▸ h (Nat.lt_of_succ_lt_succ hlt)

theorem Parts.cons {text : List UInt8} {count : Nat} {parts : List (List UInt8)}
    (hparts : Parts text separator count parts) (h : ¬ separator <:+: part) :
    Parts (part ++ separator ++ text) separator (count + 1) (part :: parts) where
  joined := by rw [List.intercalate_cons_of_ne_nil hparts.ne_nil, hparts.joined]
  unsplit := by
    rw [List.dropLast_cons_of_ne_nil hparts.ne_nil]
    exact List.forall_mem_cons.mpr ⟨h, hparts.unsplit⟩
  ne_nil := List.cons_ne_nil _ _
  length_le := Nat.succ_le_succ hparts.length_le
  last := fun hlt =>
    List.forall_mem_cons.mpr ⟨h, hparts.last (Nat.lt_of_succ_lt_succ hlt)⟩

/-- What the earlier parts and their separators leave of the text is the last part. -/
theorem Parts.rest_eq {text last : List UInt8} {count : Nat} {front : List (List UInt8)}
    (h : Parts text separator count (front ++ [last])) :
    text = front.flatMap (· ++ separator) ++ last := by
  rw [← h.joined]
  clear h
  induction front with
  | nil => rw [List.nil_append, List.intercalate_singleton, List.flatMap_nil, List.nil_append]
  | cons part front ih =>
    rw [List.cons_append, List.intercalate_cons_of_ne_nil (List.append_ne_nil_of_right_ne_nil _
      (List.cons_ne_nil _ _)), ih, List.flatMap_cons, List.append_assoc (part ++ separator)]

theorem explodeLoop_succ (returnVector : List (List UInt8)) :
    explodeLoop inString separator (fuel + 1) limit start returnVector =
      match if limit - 1 ≠ -1 then find inString separator start else none with
      | some stop => explodeLoop inString separator fuel (limit - 1) (stop + separator.length)
          (returnVector ++ [substr inString start (stop - start)])
      | none => some (returnVector ++ [inString.drop start]) := rfl

/-- Every split moves the start on, and what is left over is split in the same way. -/
theorem explodeLoop_parts (hne : separator ≠ []) (hstart : start ≤ inString.length) :
    ∃ parts, Parts (inString.drop start) separator (splits limit) parts ∧
      ∀ fuel > inString.length - start, ∀ returnVector,
        explodeLoop inString separator fuel limit start returnVector =
          some (returnVector ++ parts) := by
  induction hroom : inString.length - start using Nat.strong_induction_on
    generalizing start limit with
  | _ room ih =>
    by_cases hlimit : limit - 1 = -1
    · have hzero : splits limit = 0 := by
        rw [← Int32.sub_add_cancel limit 1, hlimit]
        rfl
      refine ⟨[inString.drop start], Parts.singleton fun hlt => by omega, ?_⟩
      intro fuel hfuel returnVector
      obtain ⟨fuel, rfl⟩ := Nat.exists_eq_add_of_le' (Nat.one_le_of_lt hfuel)
      rw [explodeLoop_succ, if_neg (not_not.mpr hlimit)]
    cases hfind : find inString separator start with
    | none =>
      refine ⟨[inString.drop start], Parts.singleton fun _ => not_infix_of_find_none hne hfind, ?_⟩
      intro fuel hfuel returnVector
      obtain ⟨fuel, rfl⟩ := Nat.exists_eq_add_of_le' (Nat.one_le_of_lt hfuel)
      rw [explodeLoop_succ, if_pos hlimit, hfind]
    | some stop =>
      obtain ⟨hle, hsplit, hinside, hfirst⟩ := found_of_find hne hfind
      have hpos := List.length_pos_iff.mpr hne
      obtain ⟨parts, hparts, hloop⟩ := ih (inString.length - (stop + separator.length)) (by omega)
        hinside rfl
      refine ⟨substr inString start (stop - start) :: parts, ?_, ?_⟩
      · rw [splits_pred hlimit, hsplit]
        exact hparts.cons hfirst
      · intro fuel hfuel returnVector
        obtain ⟨fuel, rfl⟩ := Nat.exists_eq_add_of_le' (Nat.one_le_of_lt hfuel)
        rw [explodeLoop_succ, if_pos hlimit, hfind]
        dsimp only
        rw [hloop fuel (by omega), List.append_assoc, List.singleton_append]

/-- The parts of every text: the separators put back make it up again, none but the last holds a
separator, and a limit leaves room for one part more, the last, which is the rest as it stands. -/
theorem explodeString_parts (inString separator : List UInt8) (limit : Int32)
    (hne : separator ≠ []) :
    ∃ parts, (∀ fuel > inString.length,
        explodeString fuel inString separator limit = some parts) ∧
      separator.intercalate parts = inString ∧ parts ≠ [] ∧
      (∀ part ∈ parts.dropLast, ¬ separator <:+: part) ∧
      (∀ front last, parts = front ++ [last] →
        inString = front.flatMap (· ++ separator) ++ last) ∧
      (0 ≤ limit → parts.length ≤ limit.toInt.toNat + 1 ∧
        (parts.length ≤ limit.toInt.toNat → ∀ part ∈ parts, ¬ separator <:+: part)) := by
  obtain ⟨parts, hparts, hloop⟩ := explodeLoop_parts hne (Nat.zero_le inString.length)
  refine ⟨parts, fun fuel hfuel => hloop fuel hfuel [], hparts.joined, hparts.ne_nil,
    hparts.unsplit, ?_, fun hlimit => ?_⟩
  · rintro front last rfl
    exact hparts.rest_eq
  · rw [← splits_of_nonneg hlimit]
    exact ⟨hparts.length_le, fun hlt => hparts.last (Nat.lt_succ_of_le hlt)⟩

theorem explodeString_parts_one : ∃ parts,
    (∀ fuel > 5, explodeString fuel [97, 59, 98, 59, 59] [59] 1 = some parts) ∧
      [59].intercalate parts = [97, 59, 98, 59, 59] ∧ parts ≠ [] ∧
      (∀ part ∈ parts.dropLast, ¬ [59] <:+: part) ∧
      (∀ front last, parts = front ++ [last] →
        [97, 59, 98, 59, 59] = front.flatMap (· ++ [59]) ++ last) ∧
      (0 ≤ (1 : Int32) → parts.length ≤ (1 : Int32).toInt.toNat + 1 ∧
        (parts.length ≤ (1 : Int32).toInt.toNat → ∀ part ∈ parts, ¬ [59] <:+: part)) :=
  explodeString_parts [97, 59, 98, 59, 59] [59] 1 (by decide)

/-! ## Without a limit -/

/-- Every split takes at least one byte of the text. -/
theorem Parts.length_le_text {text : List UInt8} {count : Nat} {parts : List (List UInt8)}
    (h : Parts text separator count parts) (hne : separator ≠ []) :
    parts.length ≤ text.length + 1 := by
  have hpos := List.length_pos_iff.mpr hne
  obtain ⟨front, last, rfl⟩ : ∃ front last, parts = front ++ [last] :=
    ⟨parts.dropLast, parts.getLast h.ne_nil, (List.dropLast_append_getLast h.ne_nil).symm⟩
  rw [h.rest_eq]
  clear h
  induction front with
  | nil => simp
  | cons part front ih =>
    simp only [List.length_append, List.flatMap_cons, List.length_cons] at ih ⊢
    omega

/-- With a separator of one byte, and no limit, the loop is the split of `Texts`. -/
theorem explodeString_byte (separator : UInt8) (hlength : inString.length < 2 ^ 31)
    (hfuel : inString.length < fuel) :
    explodeString fuel inString [separator] (-1) =
      some (Eloth.explodeString inString separator) := by
  have hne : [separator] ≠ [] := List.cons_ne_nil _ _
  obtain ⟨parts, hparts, hloop⟩ := explodeLoop_parts hne (Nat.zero_le inString.length)
  have hcount : parts.length < splits (-1) + 1 := by
    have hle := hparts.length_le_text hne
    rw [List.drop_zero] at hle
    have hsplits : splits (-1) = 2 ^ 32 - 1 := by decide
    omega
  have hmem : ∀ part ∈ parts, separator ∉ part := by
    intro part hpart hin
    exact hparts.last hcount part hpart ((List.singleton_infix_iff _ _).mpr hin)
  have hjoined : [separator].intercalate parts = inString := hparts.joined
  have hrun : explodeString fuel inString [separator] (-1) = some parts := hloop fuel hfuel []
  rw [hrun, Eloth.explodeString, ← hjoined, List.splitOn_intercalate _ hmem hparts.ne_nil]

end Eloth.Strings
