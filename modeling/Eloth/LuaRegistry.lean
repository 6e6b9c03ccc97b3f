import Mathlib.Data.List.Perm.Basic
import Mathlib.Data.List.ReduceOption

/-!
# The registry of Lua

`luaL_ref` keeps a value under a key that is not in use, and `luaL_unref` frees the key. The value
`nil` is not kept.
-/

namespace Eloth

/-- A value of Lua, `nil` or another. -/
abbrev LuaValue (V : Type) := Option V

/-- A reference of the registry, or `LUA_REFNIL`. -/
abbrev LuaRef := Option Nat

/-- How `luaL_ref` picks a key: one that is not in use. -/
structure LuaRefPicker where
  pick : List Nat → Nat
  fresh : ∀ used, pick used ∉ used

theorem LuaRefPicker.le_foldr_max {l : List Nat} {r : Nat} (h : r ∈ l) : r ≤ l.foldr max 0 := by
  induction l with
  | nil => cases h
  | cons k l ih =>
    rw [List.foldr_cons]
    obtain rfl | h := List.mem_cons.mp h
    · exact Nat.le_max_left _ _
    · exact Nat.le_trans (ih h) (Nat.le_max_right _ _)

/-- The key after the largest one in use. -/
def LuaRefPicker.next : LuaRefPicker where
  pick used := used.foldr max 0 + 1
  fresh _ hmem := absurd (le_foldr_max hmem) (Nat.not_succ_le_self _)

abbrev LuaRegistry (V : Type) := List (Nat × V)

namespace LuaRegistry

variable {V : Type} (picker : LuaRefPicker) (registry : LuaRegistry V)

def luaL_ref : LuaValue V → LuaRegistry V × LuaRef
  | none => (registry, none)
  | some value =>
    let ref := picker.pick (registry.map Prod.fst)
    (registry ++ [(ref, value)], some ref)

def luaL_refs (registry : LuaRegistry V) : List (LuaValue V) → LuaRegistry V × List LuaRef
  | [] => (registry, [])
  | value :: values =>
    let (registry, ref) := luaL_ref picker registry value
    let (registry, refs) := luaL_refs registry values
    (registry, ref :: refs)

def lua_rawgeti (ref : LuaRef) : LuaValue V :=
  ref.bind fun ref => (registry.find? (·.1 = ref)).map Prod.snd

def luaL_unref (ref : LuaRef) : LuaRegistry V := registry.filter fun e => some e.1 ≠ ref

/-! ## The registry -/

def keys : List Nat := registry.map Prod.fst

variable {picker registry} {registry' : LuaRegistry V} {ref : LuaRef} {value : LuaValue V}

/-- The registry has grown by the references, and gives what it gave before. -/
structure Grows (registry registry' : LuaRegistry V) (refs : List LuaRef) : Prop where
  keys : registry'.keys = registry.keys ++ refs.reduceOption
  nodup : registry.keys.Nodup → registry'.keys.Nodup
  same : ∀ r ∈ registry.keys, registry'.lua_rawgeti (some r) = registry.lua_rawgeti (some r)

theorem luaL_ref_grows (picker : LuaRefPicker) (registry : LuaRegistry V) (value : LuaValue V) :
    Grows registry (luaL_ref picker registry value).1 [(luaL_ref picker registry value).2] := by
  cases value with
  | none => exact ⟨(List.append_nil _).symm, id, fun _ _ => rfl⟩
  | some value =>
    have hfresh := picker.fresh registry.keys
    refine ⟨by simp [luaL_ref, LuaRegistry.keys, List.reduceOption], fun hnodup => ?_,
      fun r hr => ?_⟩
    · have hcons := List.nodup_cons.mpr ⟨hfresh, hnodup⟩
      have hperm := (List.perm_append_singleton (picker.pick registry.keys) registry.keys).symm
      simpa [luaL_ref, LuaRegistry.keys] using hperm.nodup_iff.mp hcons
    · obtain ⟨e, he, rfl⟩ := List.mem_map.mp hr
      have hsome : (registry.find? fun e' => decide (e'.1 = e.1)).isSome :=
        List.find?_isSome.mpr ⟨e, he, by simp⟩
      obtain ⟨found, hfound⟩ := Option.isSome_iff_exists.mp hsome
      simp [luaL_ref, lua_rawgeti, List.find?_append, hfound]

theorem lua_rawgeti_luaL_ref (picker : LuaRefPicker) (registry : LuaRegistry V)
    (value : LuaValue V) : (luaL_ref picker registry value).1.lua_rawgeti
      (luaL_ref picker registry value).2 = value := by
  cases value with
  | none => rfl
  | some value =>
    have hfresh := picker.fresh registry.keys
    have hnone : registry.find? (fun e => decide (e.1 = picker.pick registry.keys)) = none := by
      rw [List.find?_eq_none]
      intro e he hr
      exact hfresh (List.mem_map.mpr ⟨e, he, by simpa using hr⟩)
    have hnone' : registry.find? (fun e => decide (e.1 = picker.pick (registry.map Prod.fst))) =
      none := hnone
    simp [luaL_ref, lua_rawgeti, List.find?_append, hnone']

theorem Grows.lua_rawgeti {refs : List LuaRef} (h : Grows registry registry' refs)
    (href : ∀ r, ref = some r → r ∈ registry.keys) :
    registry'.lua_rawgeti ref = registry.lua_rawgeti ref := by
  cases ref with
  | none => rfl
  | some r => exact h.same r (href r rfl)

theorem Grows.trans {registry'' : LuaRegistry V} {refs refs' : List LuaRef}
    (h : Grows registry registry' refs) (h' : Grows registry' registry'' refs') :
    Grows registry registry'' (refs ++ refs') where
  keys := by rw [h'.keys, h.keys, List.reduceOption_append, List.append_assoc]
  nodup := h'.nodup ∘ h.nodup
  same r hr := by
    have hr' : r ∈ registry'.keys := by
      rw [h.keys]
      exact List.mem_append_left _ hr
    rw [h'.same r hr', h.same r hr]

theorem Grows.mem_keys {refs : List LuaRef} (h : Grows registry registry' refs) {r : Nat}
    (hr : some r ∈ refs) : r ∈ registry'.keys := by
  rw [h.keys]
  exact List.mem_append_right _ (List.reduceOption_mem_iff.mpr hr)

theorem luaL_refs_spec (picker : LuaRefPicker) (registry : LuaRegistry V)
    (values : List (LuaValue V)) :
    Grows registry (luaL_refs picker registry values).1 (luaL_refs picker registry values).2 ∧
    (luaL_refs picker registry values).2.map (luaL_refs picker registry values).1.lua_rawgeti =
      values := by
  induction values generalizing registry with
  | nil => exact ⟨⟨(List.append_nil _).symm, id, fun _ _ => rfl⟩, rfl⟩
  | cons value values ih =>
    have hgrows := luaL_ref_grows picker registry value
    have hvalue := lua_rawgeti_luaL_ref picker registry value
    obtain ⟨hrest, hvalues⟩ := ih (luaL_ref picker registry value).1
    refine ⟨hgrows.trans hrest, ?_⟩
    have hkept : (luaL_refs picker (luaL_ref picker registry value).1 values).1.lua_rawgeti
        (luaL_ref picker registry value).2 = (luaL_ref picker registry value).1.lua_rawgeti
          (luaL_ref picker registry value).2 :=
      hrest.lua_rawgeti fun r hr => hgrows.mem_keys (hr ▸ List.mem_singleton_self _)
    simp only [luaL_refs, List.map_cons, hkept, hvalue, hvalues]

theorem keys_unrefs (registry : LuaRegistry V) (refs : List LuaRef) :
    (refs.foldl luaL_unref registry).keys = registry.keys.filter fun r => some r ∉ refs := by
  induction refs generalizing registry with
  | nil => simp
  | cons ref refs ih =>
    have hone : (registry.luaL_unref ref).keys = registry.keys.filter fun r => some r ≠ ref := by
      rw [keys, luaL_unref, keys, List.filter_map]
      rfl
    rw [List.foldl_cons, ih, hone, List.filter_filter]
    refine List.filter_congr fun r _ => ?_
    by_cases hr : some r = ref
    · simp [hr]
    · simp [hr]

theorem lua_rawgeti_unrefs (registry : LuaRegistry V) {refs : List LuaRef} {r : Nat}
    (h : some r ∉ refs) :
    (refs.foldl luaL_unref registry).lua_rawgeti (some r) = registry.lua_rawgeti (some r) := by
  induction refs generalizing registry with
  | nil => rfl
  | cons ref refs ih =>
    obtain ⟨hr, hrefs⟩ := not_or.mp (List.mem_cons.not.mp h)
    rw [List.foldl_cons, ih _ hrefs]
    have hfind : (registry.luaL_unref ref).find? (fun e => decide (e.1 = r)) =
        registry.find? (fun e => decide (e.1 = r)) := by
      rw [luaL_unref, List.find?_filter]
      congr 1
      funext e
      by_cases he : e.1 = r
      · simp [he, hr]
      · simp [he]
    simp only [lua_rawgeti, Option.bind_some, hfind]

/-- What is given back is exactly what was taken. -/
theorem unrefs_perm {refs : List LuaRef} {rest : List Nat} (hnodup : registry.keys.Nodup)
    (hkeys : registry.keys.Perm (refs.reduceOption ++ rest)) :
    (refs.foldl luaL_unref registry).keys.Perm rest := by
  have hnodup' := (hkeys.nodup_iff.mp hnodup)
  have hdisjoint := (List.nodup_append.mp hnodup').2.2
  rw [keys_unrefs]
  refine (hkeys.filter _).trans (List.Perm.of_eq ?_)
  rw [List.filter_append]
  have hgone : (refs.reduceOption.filter fun r => some r ∉ refs) = [] := by
    rw [List.filter_eq_nil_iff]
    intro r hr
    simpa using List.reduceOption_mem_iff.mp hr
  have hkept : (rest.filter fun r => some r ∉ refs) = rest := by
    rw [List.filter_eq_self]
    intro r hr
    have hnot : some r ∉ refs := fun hmem =>
      hdisjoint r (List.reduceOption_mem_iff.mpr hmem) r hr rfl
    simpa using hnot
  rw [hgone, hkept, List.nil_append]

end LuaRegistry

end Eloth
