import Mathlib.Data.List.Induction
import Mathlib.Data.List.Nodup
import Mathlib.Data.Set.Insert
import Eloth.Lib.WordTree

/-!
# The tree of player names

`WildcardTreeNode` holds the names of the players that are online, so that one can be found by the
beginning of its name. A node whose `breakpoint` is set ends a name. The children of a node are a
map, and a null child is a missing entry.
-/

namespace Eloth

abbrev WildcardTreeNode := WordTree UInt8

inductive FindError where
  | playerWithThisNameIsNotOnline
  | nameIsTooAmbiguous
  deriving DecidableEq

namespace WildcardTreeNode

open WordTree

/-- The bytes in the order of `char`, which is signed. -/
def chars : List UInt8 := (List.range 256).map fun i => UInt8.ofNat (i + 128)

/-- The keys of the map of children. -/
def children (cur : WildcardTreeNode) : List UInt8 :=
  chars.filter fun ch => !(cur.child ch).isNull

/-- The child that `addChild` returns. -/
def addChild (cur : WildcardTreeNode) (ch : UInt8) (breakpoint : Bool) : WildcardTreeNode :=
  match cur.child ch with
  | .null => leaf breakpoint
  | .node m c => if breakpoint && !m then .node true c else .node m c

def insert (cur : WildcardTreeNode) : List UInt8 → WildcardTreeNode
  | [] => cur
  | [ch] => cur.put ch (cur.addChild ch true)
  | ch :: str => cur.put ch (insert (cur.addChild ch false) str)

/-- The loops of `remove` once the path is there: the last node ends no name any more, and on the
way back a node without children that ends no name is erased from the node above. -/
def prune (cur : WildcardTreeNode) : List UInt8 → WildcardTreeNode
  | [] => cur.setMark false
  | ch :: str =>
    let child := prune (cur.child ch) str
    cur.put ch (if !child.children.isEmpty || child.marked then child else .null)

def remove (cur : WildcardTreeNode) (str : List UInt8) : WildcardTreeNode :=
  if (cur.descend str).isNull then cur else cur.prune str

/-- The loop of `findOne` at the end of the query. -/
def complete (result : List UInt8) : WildcardTreeNode → Except FindError (List UInt8)
  | .null => .ok result
  | .node breakpoint c =>
    match chars.filter fun ch => !(c ch).isNull with
    | [] => .ok result
    | [ch] =>
      if breakpoint then .error .nameIsTooAmbiguous else complete (result ++ [ch]) (c ch)
    | _ => .error .nameIsTooAmbiguous

def findOne (cur : WildcardTreeNode) (query : List UInt8) : Except FindError (List UInt8) :=
  if (cur.descend query).isNull then .error .playerWithThisNameIsNotOnline
  else complete query (cur.descend query)

/-! ## Children -/

variable {t : WildcardTreeNode} {ch : UInt8} {name str : List UInt8} {m : Bool}

theorem mem_chars (ch : UInt8) : ch ∈ chars := by
  refine List.mem_map.mpr ⟨(ch.toNat + 128) % 256, List.mem_range.mpr (Nat.mod_lt _ (by decide)), ?_⟩
  apply UInt8.toNat_inj.mp
  have hlt := ch.toNat_lt
  rw [UInt8.toNat_ofNat']
  omega

theorem nodup_chars : chars.Nodup := by
  refine List.Nodup.map_on (fun i hi j hj hij => ?_) List.nodup_range
  have hmod := congrArg UInt8.toNat hij
  rw [UInt8.toNat_ofNat', UInt8.toNat_ofNat'] at hmod
  have hi' := List.mem_range.mp hi
  have hj' := List.mem_range.mp hj
  omega

theorem mem_children : ch ∈ t.children ↔ (t.child ch).isNull = false := by
  rw [children, List.mem_filter, and_iff_right (mem_chars ch), Bool.not_eq_true']

theorem live_iff : t.Live ↔ (!t.children.isEmpty || t.marked) = true := by
  rw [Bool.or_eq_true, Bool.not_eq_true', List.isEmpty_eq_false_iff_exists_mem, Live, or_comm]
  simp only [mem_children]

instance (t : WildcardTreeNode) : Decidable t.Live := decidable_of_iff _ live_iff.symm

/-! ## The names of a tree -/

theorem has_addChild : (t.addChild ch m).Has name ↔
    (t.child ch).Has name ∨ (m = true ∧ name = []) := by
  unfold addChild
  cases hchild : t.child ch with
  | null =>
    cases name with
    | nil => simp [Has, leaf]
    | cons c name => simp [Has, leaf]
  | node m' c =>
    cases name with
    | nil => cases m <;> cases m' <;> simp [Has]
    | cons c' name => cases m <;> cases m' <;> simp [Has]

theorem has_insert (h : str ≠ []) : (t.insert str).Has name ↔ t.Has name ∨ name = str := by
  induction str generalizing t name with
  | nil => exact absurd rfl h
  | cons ch str ih =>
    cases name with
    | nil => cases str <;> simp [insert, Has]
    | cons c name =>
      by_cases hc : c = ch
      · subst hc
        cases str with
        | nil =>
          rw [insert, has_put_cons, if_pos rfl, has_addChild]
          simp [Has]
        | cons c' str =>
          rw [insert, has_put_cons, if_pos rfl, ih (List.cons_ne_nil _ _), has_addChild]
          · simp [Has]
          · exact List.cons_ne_nil c' str
      · have hne : c :: name ≠ ch :: str := fun heq => hc (List.cons.inj heq).1
        cases str with
        | nil => rw [insert, has_put_cons, if_neg hc, or_iff_left hne]
        | cons c' str =>
          rw [insert, has_put_cons, if_neg hc, or_iff_left hne]
          exact List.cons_ne_nil c' str

theorem not_has_of_not_live (h : ¬ t.Live) : ¬ t.Has name := by
  intro hname
  cases name with
  | nil => exact h (.inl hname)
  | cons c name =>
    cases hchild : t.child c with
    | null =>
      rw [Has, descend_cons, hchild] at hname
      exact not_has_null hname
    | node m' c' => exact h (.inr ⟨c, by rw [hchild]; rfl⟩)

theorem prune_cons : t.prune (ch :: str) =
    t.put ch (if (prune (t.child ch) str).Live then prune (t.child ch) str else .null) := by
  rw [prune]
  simp only [live_iff]

theorem has_prune (h : (t.descend str).isNull = false) :
    (t.prune str).Has name ↔ t.Has name ∧ name ≠ str := by
  induction str generalizing t name with
  | nil => cases name <;> simp [prune, setMark, Has, child]
  | cons ch str ih =>
    cases name with
    | nil => simp [prune, Has]
    | cons c name =>
      rw [prune_cons, has_put_cons]
      by_cases hc : c = ch
      · subst hc
        have hbelow := @ih (t.child c) name h
        rw [if_pos rfl, ne_eq, List.cons.injEq, and_iff_right rfl]
        refine Iff.trans ?_ hbelow
        split_ifs with hlive
        · exact Iff.rfl
        · exact iff_of_false not_has_null (not_has_of_not_live hlive)
      · rw [if_neg hc, and_iff_left fun heq => hc (List.cons.inj heq).1]

theorem has_remove : (t.remove str).Has name ↔ t.Has name ∧ name ≠ str := by
  unfold remove
  split_ifs with hnull
  · refine (and_iff_left_of_imp fun hname heq => ?_).symm
    subst heq
    rw [Has, eq_null hnull] at hname
    cases hname
  · exact has_prune (Bool.eq_false_iff.mpr hnull)

/-! ## No dead ends -/

theorem noDeadEnds_addChild (h : t.NoDeadEnds) : (t.addChild ch m).NoDeadEnds := by
  have hchild := (h.child ch).1
  unfold addChild
  cases hnode : t.child ch with
  | null => exact noDeadEnds_leaf m
  | node m' c =>
    rw [hnode] at hchild
    dsimp only
    split_ifs <;> exact hchild

theorem isNull_addChild : (t.addChild ch m).isNull = false := by
  unfold addChild
  split
  · rfl
  · split_ifs <;> rfl

theorem live_insert (h : str ≠ []) : (t.insert str).Live := by
  cases str with
  | nil => exact absurd rfl h
  | cons ch str =>
    refine .inr ⟨ch, ?_⟩
    cases str with
    | nil => rw [insert, child_put_self, isNull_addChild]
    | cons c str =>
      rw [insert, child_put_self]
      · cases str <;> rfl
      · exact nofun

theorem live_addChild_true : (t.addChild ch true).Live := by
  refine .inl ?_
  unfold addChild
  split
  · rfl
  · next m c _ => cases m <;> rfl

theorem noDeadEnds_insert (h : t.NoDeadEnds) : (t.insert str).NoDeadEnds := by
  induction str generalizing t with
  | nil => exact h
  | cons ch str ih =>
    cases str with
    | nil => exact h.put (noDeadEnds_addChild h) fun _ => live_addChild_true
    | cons c str =>
      rw [insert]
      · exact h.put (ih (noDeadEnds_addChild h)) fun _ => live_insert (List.cons_ne_nil _ _)
      · exact nofun

theorem noDeadEnds_prune (h : t.NoDeadEnds) : (t.prune str).NoDeadEnds := by
  induction str generalizing t with
  | nil => exact h.setMark false
  | cons ch str ih =>
    rw [prune_cons]
    split_ifs with hlive
    · exact h.put (ih (h.child ch).1) fun _ => hlive
    · exact h.put trivial nofun

theorem noDeadEnds_remove (h : t.NoDeadEnds) : (t.remove str).NoDeadEnds := by
  unfold remove
  split_ifs
  · exact h
  · exact noDeadEnds_prune h

/-! ## Finding one name -/

/-- One name below a node, or at least two. -/
theorem complete_spec (hends : t.NoDeadEnds) (hlive : t.Live) (result : List UInt8) :
    (∃ v, complete result t = .ok (result ++ v) ∧ t.Has v ∧ ∀ v', t.Has v' → v' = v) ∨
    (complete result t = .error .nameIsTooAmbiguous ∧
      ∃ v v', v ≠ v' ∧ t.Has v ∧ t.Has v') := by
  induction t generalizing result with
  | null =>
    rcases hlive with hmarked | ⟨ch, hch⟩
    · cases hmarked
    · cases hch
  | node m c ih =>
    have hword : ∀ ch ∈ children (.node m c), ∃ v, (c ch).Has v := fun ch hch =>
      (hends ch).1.exists_word ((hends ch).2 (mem_children.mp hch))
    have hnone : ∀ ch name, ch ∉ children (.node m c) → ¬ (WordTree.node m c).Has (ch :: name) := by
      intro ch name hch hname
      rw [mem_children, Bool.not_eq_false] at hch
      rw [Has, descend_cons, eq_null hch] at hname
      exact not_has_null hname
    have hbelow : ∀ ch v, (WordTree.node m c).Has (ch :: v) ↔ (c ch).Has v := fun _ _ => Iff.rfl
    rw [complete, show (chars.filter fun ch => !(c ch).isNull) = children (.node m c) from rfl]
    cases hkeys : children (.node m c) with
    | nil =>
      rw [hkeys] at hnone
      rcases hlive with hmarked | ⟨ch, hch⟩
      · refine .inl ⟨[], by rw [List.append_nil], hmarked, fun v' hv' => ?_⟩
        cases v' with
        | nil => rfl
        | cons ch v' => exact absurd hv' (hnone ch v' List.not_mem_nil)
      · have hmem := mem_children.mpr hch
        rw [hkeys] at hmem
        cases hmem
    | cons ch rest =>
      have hmem : ch ∈ children (.node m c) := hkeys ▸ List.mem_cons_self
      cases rest with
      | nil =>
        rw [hkeys] at hnone
        dsimp only
        split_ifs with hmarked
        · obtain ⟨v, hv⟩ := hword ch hmem
          exact .inr ⟨rfl, [], ch :: v, (List.cons_ne_nil ch v).symm, hmarked, hv⟩
        · rcases ih ch (hends ch).1 ((hends ch).2 (mem_children.mp hmem)) (result ++ [ch]) with
            ⟨v, hok, hv, honly⟩ | ⟨herr, v, v', hne, hv, hv'⟩
          · refine .inl ⟨ch :: v, by rw [hok, List.append_assoc]; rfl, hv, fun w hw => ?_⟩
            cases w with
            | nil => exact absurd hw hmarked
            | cons ch' w =>
              by_cases hch : ch' = ch
              · subst hch
                rw [honly w hw]
              · exact absurd hw (hnone ch' w (List.mem_singleton.not.mpr hch))
          · exact .inr ⟨herr, ch :: v, ch :: v', fun heq => hne (List.cons.inj heq).2, hv, hv'⟩
      | cons ch' rest =>
        have hmem' : ch' ∈ children (.node m c) :=
          hkeys ▸ List.mem_cons_of_mem _ List.mem_cons_self
        have hnodup : (children (.node m c)).Nodup := nodup_chars.filter _
        rw [hkeys] at hnodup
        have hne : ch ≠ ch' := fun heq =>
          (List.nodup_cons.mp hnodup).1 (heq ▸ List.mem_cons_self)
        obtain ⟨v, hv⟩ := hword ch hmem
        obtain ⟨v', hv'⟩ := hword ch' hmem'
        exact .inr ⟨rfl, ch :: v, ch' :: v', fun heq => hne (List.cons.inj heq).1, hv, hv'⟩

/-- The names below the end of a query are those that it begins. -/
theorem findOne_spec (hends : t.NoDeadEnds) (hquery : str ≠ []) :
    (findOne t str = .error .playerWithThisNameIsNotOnline ∧ ∀ v, ¬ t.Has (str ++ v)) ∨
    (∃ v, findOne t str = .ok (str ++ v) ∧ t.Has (str ++ v) ∧
      ∀ v', t.Has (str ++ v') → v' = v) ∨
    (findOne t str = .error .nameIsTooAmbiguous ∧
      ∃ v v', v ≠ v' ∧ t.Has (str ++ v) ∧ t.Has (str ++ v')) := by
  unfold findOne
  split_ifs with hnull
  · refine .inl ⟨rfl, fun v hv => ?_⟩
    have hsome := (hends.exists_word_iff hquery).mp ⟨v, hv⟩
    rw [hnull] at hsome
    cases hsome
  · obtain ⟨hbelow, hlive⟩ := hends.descend str
    simp only [has_append]
    exact .inr (complete_spec hbelow (hlive hquery (Bool.eq_false_iff.mpr hnull)) str)

/-! ## Runs -/

inductive Op where
  | insert (name : {str : List UInt8 // str ≠ []})
  | remove (name : {str : List UInt8 // str ≠ []})

def apply (cur : WildcardTreeNode) : Op → WildcardTreeNode
  | .insert name => cur.insert name
  | .remove name => cur.remove name

/-- `Game::wildcardTree` after some operations. -/
def run (ops : List Op) : WildcardTreeNode := ops.foldl apply (leaf false)

/-- The names that are inserted and not removed. -/
def names (ops : List Op) : Set (List UInt8) :=
  ops.foldl (fun names op =>
    match op with
    | .insert name => Insert.insert name.val names
    | .remove name => names \ {name.val}) ∅

/-- The marked nodes end exactly the names, and a node below the root that ends none has
children. -/
structure Represents (t : WildcardTreeNode) (names : Set (List UInt8)) : Prop where
  ends : ∀ name, t.Has name ↔ name ∈ names
  live : ∀ path ≠ [], (t.descend path).isNull = false → (t.descend path).Live

theorem run_spec (ops : List Op) :
    (run ops).NoDeadEnds ∧ ∀ name, (run ops).Has name ↔ name ∈ names ops := by
  induction ops using List.reverseRecOn with
  | nil =>
    refine ⟨noDeadEnds_leaf false, fun name => iff_of_false ?_ (Set.notMem_empty _)⟩
    cases name <;> simp [run, Has, leaf]
  | append_singleton ops op ih =>
    obtain ⟨hends, hnames⟩ := ih
    unfold run names
    rw [List.foldl_concat, List.foldl_concat]
    cases op with
    | insert name =>
      refine ⟨noDeadEnds_insert hends, fun str => ?_⟩
      change (insert (run ops) name.val).Has str ↔ str ∈ Insert.insert name.val (names ops)
      rw [has_insert name.property, hnames, Set.mem_insert_iff, or_comm]
    | remove name =>
      refine ⟨noDeadEnds_remove hends, fun str => ?_⟩
      change (remove (run ops) name.val).Has str ↔ str ∈ names ops \ {name.val}
      rw [has_remove, hnames, Set.mem_sdiff, Set.mem_singleton_iff]

theorem wildcardTree_represents (ops : List Op) :
    Represents (run ops) (names ops) ∧ ∀ query ≠ [],
      (∀ name, findOne (run ops) query = .ok name ↔
        name ∈ names ops ∧ query <+: name ∧ ∀ other ∈ names ops, query <+: other → other = name) ∧
      (findOne (run ops) query = .error .playerWithThisNameIsNotOnline ↔
        ∀ name ∈ names ops, ¬ query <+: name) ∧
      (findOne (run ops) query = .error .nameIsTooAmbiguous ↔
        ∃ name ∈ names ops, ∃ other ∈ names ops,
          name ≠ other ∧ query <+: name ∧ query <+: other) := by
  obtain ⟨hends, hnames⟩ := run_spec ops
  refine ⟨⟨hnames, fun path hpath => (hends.descend path).2 hpath⟩, fun query hquery => ?_⟩
  have hspec := findOne_spec hends hquery
  simp only [hnames] at hspec
  rcases hspec with ⟨hfind, hnone⟩ | ⟨v, hfind, hv, honly⟩ | ⟨hfind, v, v', hne, hv, hv'⟩
  · have hnone' : ∀ name ∈ names ops, ¬ query <+: name := by
      rintro name hname ⟨v, rfl⟩
      exact hnone v hname
    rw [hfind]
    refine ⟨fun name => iff_of_false nofun fun h => hnone' name h.1 h.2.1,
      iff_of_true rfl hnone', iff_of_false nofun ?_⟩
    rintro ⟨name, hname, -, -, -, hprefix, -⟩
    exact hnone' name hname hprefix
  · have honly' : ∀ other ∈ names ops, query <+: other → other = query ++ v := by
      rintro other hother ⟨v', rfl⟩
      rw [honly v' hother]
    rw [hfind]
    refine ⟨fun name => ⟨?_, fun h => ?_⟩, iff_of_false nofun fun h =>
      h _ hv (List.prefix_append _ _), iff_of_false nofun ?_⟩
    · rintro ⟨⟩
      exact ⟨hv, List.prefix_append _ _, honly'⟩
    · rw [honly' name h.1 h.2.1]
    · rintro ⟨name, hname, other, hother, hne, hprefix, hprefix'⟩
      exact hne ((honly' name hname hprefix).trans (honly' other hother hprefix').symm)
  · have hapart : query ++ v ≠ query ++ v' := fun heq => hne (List.append_cancel_left heq)
    rw [hfind]
    refine ⟨fun name => iff_of_false nofun fun h => hapart ?_, iff_of_false nofun fun h =>
      h _ hv (List.prefix_append _ _), iff_of_true rfl ⟨_, hv, _, hv', hapart,
        List.prefix_append _ _, List.prefix_append _ _⟩⟩
    exact (h.2.2 _ hv (List.prefix_append _ _)).trans (h.2.2 _ hv' (List.prefix_append _ _)).symm

end WildcardTreeNode

end Eloth
