import Mathlib.Algebra.GroupWithZero.Nat
import Mathlib.Data.List.Basic
import Mathlib.Tactic.SplitIfs

/-!
# Sequences with skipped cells

A sequence of cells, each empty or a list of symbols, is written as the symbols of the full cells
with a pair of bytes after each of them: the number of empty cells that follow, and a marker. The
reader knows the size of a symbol from its first bytes, and the second byte of a symbol is never
the marker.
-/

namespace Eloth.SkipCode

abbrev marker : UInt8 := 0xFF

/-- What the reader knows of the symbols: the size of the one at the head of some bytes. -/
structure Reader where
  size : List UInt8 → Nat

structure Readable (r : Reader) (symbol : List UInt8) : Prop where
  two_le : 2 ≤ symbol.length
  unmarked : symbol[1]? ≠ some marker
  size_eq : ∀ rest, r.size (symbol ++ rest) = symbol.length

/-- The code of the cells, with the number of empty cells before them that have not been written
yet, or `-1` where the reader is at the beginning of a cell. -/
def encode : List (Option (List (List UInt8))) → Int → List UInt8
  | [], skip => if 0 ≤ skip then [UInt8.ofNat skip.toNat, marker] else []
  | some symbols :: cells, skip =>
    (if 0 ≤ skip then [UInt8.ofNat skip.toNat, marker] else []) ++
      (symbols.flatten ++ encode cells 0)
  | none :: cells, skip =>
    if skip = 0xFE then marker :: marker :: encode cells (-1) else encode cells (skip + 1)

/-- The symbols up to the next marked pair, the count in the pair, and the bytes after it. -/
def readCell (r : Reader) (bytes : List UInt8) :
    Option (List (List UInt8) × Nat × List UInt8) :=
  match bytes with
  | skip :: second :: rest =>
    if second = marker then some ([], skip.toNat, rest)
    else
      let size := r.size (skip :: second :: rest)
      if size = 0 then none
      else (readCell r ((skip :: second :: rest).drop size)).map fun (symbols, count, bytes) =>
        ((skip :: second :: rest).take size :: symbols, count, bytes)
  | _ => none
termination_by bytes.length
decreasing_by
  simp only [List.length_drop, List.length_cons]
  omega

/-- The cells that the reader fills, by the keys of the cells: `skip` of them are still empty. The
count and the bytes that are left over come with them. -/
def decode {κ : Type*} (r : Reader) :
    List κ → Nat → List UInt8 → Option (List (κ × List (List UInt8)) × Nat × List UInt8)
  | [], skip, bytes => some ([], skip, bytes)
  | key :: keys, skip + 1, bytes =>
    (decode r keys skip bytes).map fun (cells, rest) => ((key, []) :: cells, rest)
  | key :: keys, 0, bytes =>
    match readCell r bytes with
    | none => none
    | some (symbols, skip, bytes) =>
      (decode r keys skip bytes).map fun (cells, rest) => ((key, symbols) :: cells, rest)

variable {κ : Type*} {r : Reader}

theorem readCell_symbols {symbols : List (List UInt8)} (h : ∀ s ∈ symbols, Readable r s)
    (skip : UInt8) (bytes : List UInt8) :
    readCell r (symbols.flatten ++ skip :: marker :: bytes) =
      some (symbols, skip.toNat, bytes) := by
  induction symbols with
  | nil =>
    rw [List.flatten_nil, List.nil_append, readCell]
    exact if_pos rfl
  | cons symbol symbols ih =>
    have hs := h symbol List.mem_cons_self
    have hrest := ih fun s hs => h s (List.mem_cons_of_mem _ hs)
    match symbol, hs with
    | [], hs => exact absurd hs.two_le (by decide)
    | [_], hs => exact absurd hs.two_le (by simp)
    | first :: second :: tail, hs =>
      have hne : second ≠ marker := fun he => hs.unmarked (by simp [he])
      have hsize := hs.size_eq (symbols.flatten ++ skip :: marker :: bytes)
      let rest := symbols.flatten ++ skip :: marker :: bytes
      have hdrop : (first :: second :: tail ++ rest).drop (first :: second :: tail).length = rest :=
        List.drop_left
      have htake : (first :: second :: tail ++ rest).take (first :: second :: tail).length =
          first :: second :: tail := List.take_left
      rw [List.flatten_cons, List.append_assoc]
      simp only [List.cons_append] at hsize hdrop htake ⊢
      rw [readCell]
      simp only [if_neg hne, hsize]
      rw [if_neg (by simp), hdrop, hrest, htake]
      rfl

def shown (cell : κ × Option (List (List UInt8))) : κ × List (List UInt8) := (cell.1, cell.2.getD [])

/-- The code can be read, both from the beginning of a cell and where a count is pending. -/
theorem decode_encode_both (cells : List (κ × Option (List (List UInt8))))
    (h : ∀ cell ∈ cells, ∀ symbols, cell.2 = some symbols → ∀ s ∈ symbols, Readable r s) :
    decode r (cells.map Prod.fst) 0 (encode (cells.map Prod.snd) (-1)) =
        some (cells.map shown, 0, []) ∧
      ∀ skip : Nat, skip ≤ 254 → ∃ count bytes,
        encode (cells.map Prod.snd) skip = count :: marker :: bytes ∧ skip ≤ count.toNat ∧
          decode r (cells.map Prod.fst) (count.toNat - skip) bytes =
            some (cells.map shown, 0, []) := by
  have hbyte : ∀ skip : Nat, skip ≤ 254 → (UInt8.ofNat skip).toNat = skip := fun skip hskip => by
    rw [UInt8.toNat_ofNat', Nat.mod_eq_of_lt (by omega)]
  induction cells with
  | nil =>
    refine ⟨by simp [encode, decode], fun skip hskip => ⟨UInt8.ofNat skip, [], ?_, ?_, ?_⟩⟩
    · simp [encode]
    · exact Nat.le_of_eq (hbyte skip hskip).symm
    · rw [hbyte skip hskip, Nat.sub_self]
      rfl
  | cons cell cells ih =>
    obtain ⟨hbegin, hpending⟩ := ih fun c hc => h c (List.mem_cons_of_mem _ hc)
    obtain ⟨key, cell⟩ := cell
    -- What follows the symbols of a full cell, or stands for an empty one, is a pending count.
    obtain ⟨count, bytes, hcode, -, hdecode⟩ := hpending 0 (Nat.zero_le _)
    rw [Nat.sub_zero] at hdecode
    rw [show ((0 : Nat) : Int) = 0 from rfl] at hcode
    simp only [List.map_cons]
    cases cell with
    | some symbols =>
      have hsymbols := readCell_symbols (h _ List.mem_cons_self symbols rfl) count bytes
      have hcell : decode r (key :: cells.map Prod.fst) 0
          (symbols.flatten ++ encode (cells.map Prod.snd) 0) =
            some (shown (key, some symbols) :: cells.map shown, 0, []) := by
        rw [hcode]
        simp only [decode, hsymbols, hdecode]
        rfl
      refine ⟨?_, fun skip hskip => ⟨UInt8.ofNat skip, symbols.flatten ++
        encode (cells.map Prod.snd) 0, ?_, ?_, ?_⟩⟩
      · simpa [encode] using hcell
      · simp [encode]
      · exact Nat.le_of_eq (hbyte skip hskip).symm
      · rw [hbyte skip hskip, Nat.sub_self]
        exact hcell
    | none =>
      refine ⟨?_, fun skip hskip => ?_⟩
      · have hnil : ∀ s ∈ ([] : List (List UInt8)), Readable r s := by simp
        have hempty := readCell_symbols hnil count bytes
        rw [List.flatten_nil, List.nil_append] at hempty
        simp only [encode]
        rw [if_neg (by decide), show (-1 : Int) + 1 = 0 by decide, hcode]
        simp only [decode, hempty, hdecode]
        rfl
      · by_cases hfull : skip = 254
        · subst hfull
          refine ⟨marker, encode (cells.map Prod.snd) (-1), ?_, by decide, ?_⟩
          · simp [encode]
          · rw [show marker.toNat - 254 = 0 + 1 by decide]
            simp only [decode, hbegin]
            rfl
        · obtain ⟨count, bytes, hcode, hle, hdecode⟩ := hpending (skip + 1) (by omega)
          refine ⟨count, bytes, ?_, by omega, ?_⟩
          · simp only [encode]
            rw [if_neg (by omega), ← hcode, show (skip : Int) + 1 = ((skip + 1 : Nat) : Int) by omega]
          · rw [show count.toNat - skip = count.toNat - (skip + 1) + 1 by omega]
            simp only [decode, hdecode]
            rfl

theorem decode_encode (cells : List (κ × Option (List (List UInt8))))
    (h : ∀ cell ∈ cells, ∀ symbols, cell.2 = some symbols → ∀ s ∈ symbols, Readable r s) :
    decode r (cells.map Prod.fst) 0 (encode (cells.map Prod.snd) (-1)) =
      some (cells.map shown, 0, []) := (decode_encode_both cells h).1

theorem readCell_length {bytes rest : List UInt8} {symbols : List (List UInt8)} {skip : Nat}
    (h : readCell r bytes = some (symbols, skip, rest)) :
    symbols.flatten.length + rest.length ≤ bytes.length := by
  induction bytes using readCell.induct r generalizing symbols skip rest with
  | case1 first bytes =>
    rw [readCell, if_pos rfl] at h
    cases h
    simp
    omega
  | case2 first second bytes hne size =>
    rename_i hzero
    rw [readCell, if_neg hne] at h
    dsimp only at h
    rw [if_pos hzero] at h
    cases h
  | case3 first second bytes hne size =>
    rename_i hzero ih
    rw [readCell, if_neg hne] at h
    dsimp only at h
    rw [if_neg hzero, Option.map_eq_some_iff] at h
    obtain ⟨⟨symbols', skip', rest'⟩, hrest, heq⟩ := h
    cases heq
    have hle := ih hrest
    have hsplit := congrArg List.length
      (List.take_append_drop (r.size (first :: second :: bytes)) (first :: second :: bytes))
    rw [List.length_append] at hsplit
    rw [List.flatten_cons, List.length_append]
    change _ + symbols'.flatten.length + rest'.length ≤ _
    change _ ≤ (List.drop (r.size (first :: second :: bytes)) (first :: second :: bytes)).length at hle
    omega
  | case4 bytes hshort =>
    rw [readCell.eq_def] at h
    split at h
    · exact absurd rfl (hshort _ _ _)
    · cases h

theorem decode_length {keys : List κ} {skip skip' : Nat} {bytes rest : List UInt8}
    {cells : List (κ × List (List UInt8))}
    (h : decode r keys skip bytes = some (cells, skip', rest)) :
    (cells.map fun cell => cell.2.flatten.length).sum + rest.length ≤ bytes.length := by
  induction keys generalizing skip bytes cells with
  | nil =>
    cases h
    simp
  | cons key keys ih =>
    cases skip with
    | succ skip =>
      simp only [decode, Option.map_eq_some_iff] at h
      obtain ⟨⟨cells', tail⟩, hrest, heq⟩ := h
      cases heq
      simpa using ih hrest
    | zero =>
      cases hcell : readCell r bytes with
      | none => simp [decode, hcell] at h
      | some cell =>
        obtain ⟨symbols, count, after⟩ := cell
        simp only [decode, hcell, Option.map_eq_some_iff] at h
        obtain ⟨⟨cells', tail⟩, hrest, heq⟩ := h
        cases heq
        have hle := ih hrest
        have hsymbols := readCell_length hcell
        simp only [List.map_cons, List.sum_cons]
        omega

end Eloth.SkipCode
