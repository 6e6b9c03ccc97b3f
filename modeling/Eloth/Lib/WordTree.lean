import Mathlib.Logic.Function.Basic
import Mathlib.Tactic.Cases
import Mathlib.Tactic.SplitIfs

/-!
# Trees of words

A tree whose edges carry letters and whose marked nodes end words. A tree without dead ends has a
word below each of its nodes but the root.
-/

namespace Eloth

variable {κ : Type*}

inductive WordTree (κ : Type*)
  | null
  | node (marked : Bool) (children : κ → WordTree κ)

namespace WordTree

def isNull : WordTree κ → Bool
  | null => true
  | node _ _ => false

def marked : WordTree κ → Bool
  | null => false
  | node m _ => m

def child : WordTree κ → κ → WordTree κ
  | null, _ => null
  | node _ c, k => c k

def leaf (m : Bool) : WordTree κ := node m fun _ => null

/-- The node that a path leads to. -/
def descend : WordTree κ → List κ → WordTree κ
  | t, [] => t
  | t, k :: w => (t.child k).descend w

def Has (t : WordTree κ) (w : List κ) : Prop := (t.descend w).marked = true

/-- The node ends a word or has a child. -/
def Live (t : WordTree κ) : Prop := t.marked = true ∨ ∃ k, (t.child k).isNull = false

/-- Below the root every node ends a word or has a child. -/
def NoDeadEnds : WordTree κ → Prop
  | null => True
  | node _ c => ∀ k, (c k).NoDeadEnds ∧ ((c k).isNull = false → (c k).Live)

variable {t s : WordTree κ} {k : κ} {w v : List κ} {m : Bool}

@[simp] theorem child_null : (null : WordTree κ).child k = null := rfl

@[simp] theorem child_node {c : κ → WordTree κ} : (node m c).child k = c k := rfl

@[simp] theorem marked_null : (null : WordTree κ).marked = false := rfl

@[simp] theorem marked_node {c : κ → WordTree κ} : (node m c).marked = m := rfl

@[simp] theorem isNull_null : (null : WordTree κ).isNull = true := rfl

@[simp] theorem isNull_node {c : κ → WordTree κ} : (node m c).isNull = false := rfl

theorem eq_null (h : t.isNull = true) : t = null := by
  cases t with
  | null => rfl
  | node m c => cases h

@[simp] theorem descend_nil : t.descend [] = t := rfl

@[simp] theorem descend_cons : t.descend (k :: w) = (t.child k).descend w := rfl

@[simp] theorem descend_null : (null : WordTree κ).descend w = null := by
  induction w with
  | nil => rfl
  | cons k w ih => exact ih

theorem descend_append : t.descend (w ++ v) = (t.descend w).descend v := by
  induction w generalizing t with
  | nil => rfl
  | cons k w ih => exact ih

theorem not_has_null : ¬ (null : WordTree κ).Has w := by
  rw [Has, descend_null]
  exact Bool.false_ne_true

theorem has_append : t.Has (w ++ v) ↔ (t.descend w).Has v := by rw [Has, Has, descend_append]

theorem NoDeadEnds.child (h : t.NoDeadEnds) (k : κ) :
    (t.child k).NoDeadEnds ∧ ((t.child k).isNull = false → (t.child k).Live) := by
  cases t with
  | null => exact ⟨trivial, nofun⟩
  | node m c => exact h k

theorem noDeadEnds_of_child (h : ∀ k, (t.child k).NoDeadEnds ∧
    ((t.child k).isNull = false → (t.child k).Live)) : t.NoDeadEnds := by
  cases t with
  | null => trivial
  | node m c => exact h

/-- What a path leads to, unless it is the root itself. -/
theorem NoDeadEnds.descend (h : t.NoDeadEnds) (w : List κ) : (t.descend w).NoDeadEnds ∧
    (w ≠ [] → (t.descend w).isNull = false → (t.descend w).Live) := by
  induction w generalizing t with
  | nil => exact ⟨h, fun hne => absurd rfl hne⟩
  | cons k w ih =>
    obtain ⟨hchild, hlive⟩ := h.child k
    obtain ⟨hends, hbelow⟩ := ih hchild
    refine ⟨hends, fun _ hsome => ?_⟩
    cases w with
    | nil => exact hlive hsome
    | cons k' w => exact hbelow (List.cons_ne_nil _ _) hsome

theorem NoDeadEnds.exists_word (h : t.NoDeadEnds) (hlive : t.Live) : ∃ w, t.Has w := by
  induction t with
  | null =>
    rcases hlive with hmarked | ⟨k, hk⟩
    · cases hmarked
    · cases hk
  | node m c ih =>
    rcases hlive with hmarked | ⟨k, hk⟩
    · exact ⟨[], hmarked⟩
    · obtain ⟨w, hw⟩ := ih k (h k).1 ((h k).2 hk)
      exact ⟨k :: w, hw⟩

/-- A node that is not there has no words below it, and any other but the root has one. -/
theorem NoDeadEnds.exists_word_iff (h : t.NoDeadEnds) (hw : w ≠ []) :
    (∃ v, t.Has (w ++ v)) ↔ (t.descend w).isNull = false := by
  constructor
  · rintro ⟨v, hv⟩
    rw [has_append] at hv
    cases hnode : t.descend w with
    | null => exact absurd (hnode ▸ hv) not_has_null
    | node m c => rfl
  · intro hsome
    obtain ⟨hends, hlive⟩ := h.descend w
    obtain ⟨v, hv⟩ := hends.exists_word (hlive hw hsome)
    exact ⟨v, has_append.mpr hv⟩

/-! ## Replacing a child, and the mark -/

variable [DecidableEq κ]

def put (t : WordTree κ) (k : κ) (s : WordTree κ) : WordTree κ :=
  node t.marked (Function.update t.child k s)

def setMark (t : WordTree κ) (m : Bool) : WordTree κ := node m t.child

@[simp] theorem marked_put : (t.put k s).marked = t.marked := rfl

@[simp] theorem isNull_put : (t.put k s).isNull = false := rfl

theorem child_put (k' : κ) : (t.put k s).child k' = if k' = k then s else t.child k' :=
  Function.update_apply t.child k s k'

@[simp] theorem child_put_self : (t.put k s).child k = s := by
  rw [child_put, if_pos rfl]

theorem has_put_cons {k' : κ} :
    (t.put k s).Has (k' :: w) ↔ if k' = k then s.Has w else t.Has (k' :: w) := by
  unfold Has
  rw [descend_cons, child_put]
  split_ifs <;> rfl

theorem NoDeadEnds.put (h : t.NoDeadEnds) (hends : s.NoDeadEnds)
    (hlive : s.isNull = false → s.Live) : (t.put k s).NoDeadEnds := by
  refine noDeadEnds_of_child fun k' => ?_
  rw [child_put]
  split_ifs
  · exact ⟨hends, hlive⟩
  · exact h.child k'

omit [DecidableEq κ] in
theorem NoDeadEnds.setMark (h : t.NoDeadEnds) (m : Bool) : (t.setMark m).NoDeadEnds :=
  noDeadEnds_of_child fun k => h.child k

omit [DecidableEq κ] in
theorem noDeadEnds_leaf (m : Bool) : (leaf m : WordTree κ).NoDeadEnds :=
  fun _ => ⟨trivial, nofun⟩

end WordTree

end Eloth
