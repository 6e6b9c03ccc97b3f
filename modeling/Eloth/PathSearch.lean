import Mathlib.Algebra.BigOperators.Group.Finset.Basic
import Mathlib.Algebra.Order.BigOperators.Group.Finset
import Mathlib.Data.Prod.Lex
import Mathlib.Logic.Relation
import Eloth.PathFinding

/-!
# The pool of the path search

Every node but the first was reached from a cheaper node beside it, over a tile that the creature
can walk to. Each round of the search enlarges the pool, lowers a cost or closes a node, so that
it ends.
-/

namespace Eloth

namespace MapPosition

def Neighbour (p p' : MapPosition) : Prop := ∃ offset ∈ allNeighbors, p' = p.shift offset

end MapPosition

theorem mem_allNeighbors_of_mem_neighbors {fpp : FindPathParams} {node : AStarNode}
    {parent : Option AStarNode} {offset : Int × Int}
    (h : offset ∈ neighbors fpp node parent) : offset ∈ allNeighbors := by
  have hdirection (d : Direction) : ∀ o ∈ dirNeighbors d, o ∈ allNeighbors := by
    cases d <;> decide
  cases parent with
  | none => exact h
  | some parent => exact hdirection _ _ (List.mem_of_mem_take h)

namespace AStarNodes

theorem tableKey_toNat (x y : UInt16) : (tableKey x y).toNat = x.toNat * 65536 + y.toNat := by
  have hx := x.toNat_lt
  have hy := y.toNat_lt
  have hor := Nat.shiftLeft_add_eq_or_of_lt (show y.toNat < 2 ^ 16 from hy) x.toNat
  have hshift : (x.toUInt32 <<< (16 : UInt32)).toNat = x.toNat <<< 16 := by
    simp only [UInt32.toNat_shiftLeft, UInt16.toNat_toUInt32, UInt32.reduceToNat,
      Nat.shiftLeft_eq, Nat.reduceMod, Nat.reducePow]
    omega
  rw [tableKey, UInt32.toNat_or, hshift, UInt16.toNat_toUInt32, ← hor, Nat.shiftLeft_eq]

theorem tableKey_inj {x y x' y' : UInt16} (h : tableKey x y = tableKey x' y') :
    x = x' ∧ y = y' := by
  have hy := y.toNat_lt
  have hy' := y'.toNat_lt
  have hkey := congrArg UInt32.toNat h
  rw [tableKey_toNat, tableKey_toNat] at hkey
  exact ⟨UInt16.toNat_inj.mp (by omega), UInt16.toNat_inj.mp (by omega)⟩

theorem getBestNode_spec {t : AStarNodes} {n : Nat} (h : t.getBestNode = some n) :
    n < t.curNode ∧ t.openNodes n := by
  have hfold (l : List Nat) (s : Nat × Option Nat)
      (hs : ∀ n, s.2 = some n → n < t.curNode ∧ t.openNodes n)
      (hl : ∀ i ∈ l, i < t.curNode) (n : Nat)
      (hn : (l.foldl (fun best i =>
        if t.openNodes i ∧ (t.nodes i).f < best.1 then ((t.nodes i).f, some i) else best) s).2 =
        some n) : n < t.curNode ∧ t.openNodes n := by
    induction l generalizing s with
    | nil => exact hs n hn
    | cons i l ih =>
      refine ih _ (fun n hn => ?_) (fun j hj => hl j (List.mem_cons_of_mem i hj)) hn
      dsimp only at hn
      split_ifs at hn with hopen
      · cases hn
        exact ⟨hl _ List.mem_cons_self, hopen.1⟩
      · exact hs n hn
  exact hfold _ _ (fun n hn => by cases hn) (fun i hi => List.mem_range.mp hi) n h

/-! ### Progress -/

def costSum (t : AStarNodes) : Nat := ∑ i ∈ Finset.range t.curNode, (t.nodes i).f

def openCount (t : AStarNodes) : Nat :=
  ((Finset.range t.curNode).filter fun i => t.openNodes i).card

/-- The pool grew, or a cost fell. -/
def Progress (t t' : AStarNodes) : Prop :=
  (t.curNode < t'.curNode ∧ t'.curNode ≤ MAX_NODES) ∨
    (t'.curNode = t.curNode ∧ t'.costSum < t.costSum)

theorem Progress.trans {t₁ t₂ t₃ : AStarNodes} (h : Progress t₁ t₂) (h' : Progress t₂ t₃) :
    Progress t₁ t₃ := by
  rcases h with ⟨h₁, h₂⟩ | ⟨h₁, h₂⟩ <;> rcases h' with ⟨h₃, h₄⟩ | ⟨h₃, h₄⟩
  · exact .inl ⟨by omega, h₄⟩
  · exact .inl ⟨by omega, by omega⟩
  · exact .inl ⟨by omega, h₄⟩
  · exact .inr ⟨by omega, by omega⟩

/-- What a round makes smaller. -/
def rank (t : AStarNodes) : Nat ×ₗ Nat ×ₗ Nat :=
  toLex (MAX_NODES - t.curNode, toLex (t.costSum, t.openCount))

@[simp] theorem openNode_nodes (t : AStarNodes) (n : Nat) : (t.openNode n).nodes = t.nodes := by
  simp only [openNode]; split_ifs <;> rfl

@[simp] theorem openNode_nodeTable (t : AStarNodes) (n : Nat) :
    (t.openNode n).nodeTable = t.nodeTable := by
  simp only [openNode]; split_ifs <;> rfl

@[simp] theorem openNode_curNode (t : AStarNodes) (n : Nat) :
    (t.openNode n).curNode = t.curNode := by
  simp only [openNode]; split_ifs <;> rfl

theorem openCount_closeNode {t : AStarNodes} {n : Nat} (hn : n < t.curNode)
    (hopen : t.openNodes n) : (t.closeNode n).openCount < t.openCount := by
  apply Finset.card_lt_card
  rw [Finset.ssubset_iff_of_subset]
  · refine ⟨n, by simp [hn, hopen], fun hclosed => ?_⟩
    have hclosed := (Finset.mem_filter.mp hclosed).2
    simp [closeNode] at hclosed
  · intro i
    simp only [closeNode, Finset.mem_filter, Function.update_apply]
    rintro ⟨hi, hopen⟩
    split_ifs at hopen
    exact ⟨hi, hopen⟩

theorem rank_closeNode {t t' : AStarNodes} {n : Nat} (hn : n < t.curNode)
    (hopen : t.openNodes n) (h : t' = t ∨ Progress t t') :
    (t'.closeNode n).rank < t.rank := by
  rw [rank, rank, Prod.Lex.toLex_lt_toLex, Prod.Lex.toLex_lt_toLex]
  have hcur : (t'.closeNode n).curNode = t'.curNode := rfl
  have hcost : (t'.closeNode n).costSum = t'.costSum := rfl
  rw [hcur, hcost]
  rcases h with rfl | ⟨h₁, h₂⟩ | ⟨h₁, h₂⟩
  · exact .inr ⟨rfl, .inr ⟨rfl, openCount_closeNode hn hopen⟩⟩
  · exact .inl (by omega)
  · exact .inr ⟨by rw [h₁], .inl h₂⟩

end AStarNodes

namespace PathQuery

variable {q : PathQuery} {t t' : AStarNodes}

def InSearchDist (q : PathQuery) (pos : MapPosition) : Prop :=
  q.fpp.maxSearchDist ≠ 0 → q.startPos.getDistanceX pos ≤ q.fpp.maxSearchDist ∧
    q.startPos.getDistanceY pos ≤ q.fpp.maxSearchDist

def Enterable (q : PathQuery) (pos : MapPosition) : Prop :=
  (q.walker.canWalkTo pos).isSome ∧ q.InSearchDist pos

/-- Every node but the first has a cheaper parent beside it, and the table knows the nodes by
their positions. -/
structure NodesInv (q : PathQuery) (t : AStarNodes) : Prop where
  pos : 0 < t.curNode
  le : t.curNode ≤ MAX_NODES
  root : t.nodes 0 = ⟨none, 0, q.startPos.x, q.startPos.y⟩
  parent : ∀ {i}, i ≠ 0 → i < t.curNode → ∃ j, (t.nodes i).parent = some j ∧ j < t.curNode ∧
    (t.nodes j).f < (t.nodes i).f ∧
    (q.position (t.nodes j)).Neighbour (q.position (t.nodes i))
  enterable : ∀ {i}, i ≠ 0 → i < t.curNode → q.Enterable (q.position (t.nodes i))
  table : ∀ {x y j}, t.getNodeByPosition x y = some j →
    j < t.curNode ∧ (t.nodes j).x = x ∧ (t.nodes j).y = y

theorem NodesInv.of_eq (h : NodesInv q t) (hnodes : t'.nodes = t.nodes)
    (htable : t'.nodeTable = t.nodeTable) (hcur : t'.curNode = t.curNode) : NodesInv q t' := by
  obtain ⟨h₁, h₂, h₃, h₄, h₅, h₆⟩ := h
  constructor <;> simpa only [hnodes, hcur, AStarNodes.getNodeByPosition, htable]

theorem nodesInv_init : NodesInv q q.init.nodes := by
  have hone {i : Nat} (hi : i ≠ 0) (hlt : i < q.init.nodes.curNode) : False := by
    have hlt : i < 1 := hlt
    omega
  constructor
  · exact Nat.one_pos
  · change 1 ≤ MAX_NODES
    decide
  · simp [init, AStarNodes.init]
  · exact fun hi hlt => (hone hi hlt).elim
  · exact fun hi hlt => (hone hi hlt).elim
  · intro x y j hj
    simp only [init, AStarNodes.init, AStarNodes.getNodeByPosition, Function.update_apply] at hj
    split_ifs at hj with hkey
    · cases hj
      obtain ⟨hx, hy⟩ := AStarNodes.tableKey_inj hkey
      simp [init, AStarNodes.init, hx, hy]

theorem inSearchDist_of_inBounds {pos : MapPosition} (h : q.inBounds pos) :
    q.InSearchDist pos := by
  intro hne
  simp only [inBounds, hne, ne_eq, not_false_eq_true, decide_true, Bool.true_and,
    Bool.and_eq_true, Bool.not_eq_true', Bool.or_eq_false_iff, decide_eq_false_iff_not] at h
  omega

theorem NodesInv.reopen (h : NodesInv q t) {n j newf : Nat} (hn : n < t.curNode)
    (hj : j < t.curNode) (hf : (t.nodes n).f < newf) (hnew : newf < (t.nodes j).f)
    (hbeside : (q.position (t.nodes n)).Neighbour (q.position (t.nodes j))) :
    NodesInv q (t.setParent j n newf) := by
  have hnj : n ≠ j := by
    rintro rfl
    omega
  have hj0 : j ≠ 0 := by
    rintro rfl
    rw [h.root] at hnew
    exact Nat.not_lt_zero _ hnew
  have hself : (t.setParent j n newf).nodes j = ⟨some n, newf, (t.nodes j).x, (t.nodes j).y⟩ :=
    Function.update_self _ _ _
  have hother {i : Nat} (hi : i ≠ j) : (t.setParent j n newf).nodes i = t.nodes i :=
    Function.update_of_ne hi _ _
  have hposition (i : Nat) :
      q.position ((t.setParent j n newf).nodes i) = q.position (t.nodes i) := by
    by_cases hi : i = j
    · rw [hi, hself]
      rfl
    · rw [hother hi]
  have hle (i : Nat) : ((t.setParent j n newf).nodes i).f ≤ (t.nodes i).f := by
    by_cases hi : i = j
    · rw [hi, hself]
      exact Nat.le_of_lt hnew
    · rw [hother hi]
  constructor
  · exact h.pos
  · exact h.le
  · exact (hother (Ne.symm hj0)).trans h.root
  · intro i hi hlt
    by_cases hij : i = j
    · refine ⟨n, ?_, hn, ?_, ?_⟩
      · rw [hij, hself]
      · rw [hij, hself, hother hnj]
        exact hf
      · rw [hposition, hposition, hij]
        exact hbeside
    · obtain ⟨k, hk, hklt, hfk, hpos⟩ := h.parent hi hlt
      refine ⟨k, ?_, hklt, ?_, ?_⟩
      · rw [hother hij]
        exact hk
      · rw [hother hij]
        exact Nat.lt_of_le_of_lt (hle k) hfk
      · rw [hposition, hposition]
        exact hpos
  · intro i hi hlt
    rw [hposition]
    exact h.enterable hi hlt
  · intro x y k hk
    obtain ⟨hlt, hx, hy⟩ := h.table hk
    exact ⟨hlt, (congrArg MapPosition.x (hposition k)).trans hx,
      (congrArg MapPosition.y (hposition k)).trans hy⟩

theorem NodesInv.create (h : NodesInv q t) {n newf : Nat} {pos : MapPosition}
    (hn : n < t.curNode) (hf : (t.nodes n).f < newf) (hz : pos.z = q.startPos.z)
    (hbeside : (q.position (t.nodes n)).Neighbour pos) (henter : q.Enterable pos)
    (ht' : t.createOpenNode n pos.x pos.y newf = some t') : NodesInv q t' := by
  have hposition : q.position ⟨some n, newf, pos.x, pos.y⟩ = pos := by
    rw [position, ← hz]
  simp only [AStarNodes.createOpenNode] at ht'
  split_ifs at ht' with hfull
  cases ht'
  have hold {i : Nat} (hi : i < t.curNode) :
      Function.update t.nodes t.curNode ⟨some n, newf, pos.x, pos.y⟩ i = t.nodes i :=
    Function.update_of_ne (Nat.ne_of_lt hi) _ _
  constructor
  · exact Nat.succ_pos _
  · exact Nat.lt_of_not_le hfull
  · exact (hold h.pos).trans h.root
  · intro i hi hlt
    dsimp only at hlt ⊢
    by_cases hlast : i = t.curNode
    · subst hlast
      refine ⟨n, ?_, Nat.lt_succ_of_lt hn, ?_, ?_⟩
      · rw [Function.update_self]
      · rw [Function.update_self, hold hn]
        exact hf
      · rw [Function.update_self, hold hn, hposition]
        exact hbeside
    · have hi' : i < t.curNode := by omega
      obtain ⟨k, hk, hklt, hfk, hpos⟩ := h.parent hi hi'
      refine ⟨k, ?_, Nat.lt_succ_of_lt hklt, ?_, ?_⟩
      · rw [hold hi']
        exact hk
      · rw [hold hi', hold hklt]
        exact hfk
      · rw [hold hi', hold hklt]
        exact hpos
  · intro i hi hlt
    dsimp only at hlt ⊢
    by_cases hlast : i = t.curNode
    · subst hlast
      rw [Function.update_self, hposition]
      exact henter
    · have hi' : i < t.curNode := by omega
      rw [hold hi']
      exact h.enterable hi hi'
  · intro x y k hk
    simp only [AStarNodes.getNodeByPosition, Function.update_apply] at hk
    split_ifs at hk with hkey
    · cases hk
      obtain ⟨rfl, rfl⟩ := AStarNodes.tableKey_inj hkey
      simp
    · obtain ⟨hlt, hx, hy⟩ := h.table hk
      dsimp only
      rw [hold hlt]
      exact ⟨Nat.lt_succ_of_lt hlt, hx, hy⟩

/-! ### A round -/

/-- The nodes stay where they are, and the work that is left becomes less. -/
structure Extends (q : PathQuery) (t t' : AStarNodes) : Prop where
  cur_le : t.curNode ≤ t'.curNode
  position : ∀ {i}, i < t.curNode → q.position (t'.nodes i) = q.position (t.nodes i)
  progress : t' = t ∨ AStarNodes.Progress t t'

theorem Extends.refl (t : AStarNodes) : Extends q t t := ⟨Nat.le_refl _, fun _ => rfl, .inl rfl⟩

theorem Extends.trans {t₁ t₂ t₃ : AStarNodes} (h : Extends q t₁ t₂) (h' : Extends q t₂ t₃) :
    Extends q t₁ t₃ := by
  refine ⟨h.cur_le.trans h'.cur_le, fun hi => ?_, ?_⟩
  · rw [h'.position (Nat.lt_of_lt_of_le hi h.cur_le), h.position hi]
  · rcases h.progress with rfl | hp
    · exact h'.progress
    · rcases h'.progress with rfl | hp'
      · exact .inr hp
      · exact .inr (hp.trans hp')

theorem getMapWalkCost_pos (node : AStarNode) (pos : MapPosition) :
    0 < AStarNodes.getMapWalkCost node pos := by
  simp only [AStarNodes.getMapWalkCost]
  split_ifs <;> decide

theorem extends_reopen {n j newf : Nat} (hj : j < t.curNode) (hnew : newf < (t.nodes j).f) :
    Extends q t ((t.setParent j n newf).openNode j) := by
  have hother {i : Nat} (hi : i ≠ j) : (t.setParent j n newf).nodes i = t.nodes i :=
    Function.update_of_ne hi _ _
  have hself : (t.setParent j n newf).nodes j = ⟨some n, newf, (t.nodes j).x, (t.nodes j).y⟩ :=
    Function.update_self _ _ _
  have hcur : (t.setParent j n newf).curNode = t.curNode := rfl
  refine ⟨?_, fun {i} _ => ?_, .inr (.inr ⟨?_, ?_⟩)⟩
  · rw [AStarNodes.openNode_curNode, hcur]
  · rw [AStarNodes.openNode_nodes]
    by_cases hi : i = j
    · rw [hi, hself]
      rfl
    · rw [hother hi]
  · rw [AStarNodes.openNode_curNode, hcur]
  · simp only [AStarNodes.costSum, AStarNodes.openNode_curNode, AStarNodes.openNode_nodes, hcur]
    refine Finset.sum_lt_sum (fun i _ => ?_) ⟨j, Finset.mem_range.mpr hj, ?_⟩
    · by_cases hi : i = j
      · rw [hi, hself]
        exact Nat.le_of_lt hnew
      · rw [hother hi]
    · rw [hself]
      exact hnew

theorem extends_createOpenNode {n newf : Nat} {x y : UInt16}
    (ht' : t.createOpenNode n x y newf = some t') : Extends q t t' := by
  simp only [AStarNodes.createOpenNode] at ht'
  split_ifs at ht' with hfull
  cases ht'
  refine ⟨Nat.le_succ _, fun hi => ?_, .inr (.inl ⟨Nat.lt_succ_self _, Nat.lt_of_not_le hfull⟩)⟩
  simp only [Function.update_of_ne (Nat.ne_of_lt hi)]

theorem NodesInv.visitNeighbor (h : NodesInv q t) {n : Nat} {node : AStarNode}
    (hn : n < t.curNode) (hnode : t.nodes n = node) {offset : Int × Int}
    (hoffset : offset ∈ allNeighbors) (ht' : q.visitNeighbor t n node offset = some t') :
    NodesInv q t' ∧ t'.nodes n = node ∧ Extends q t t' := by
  have hbeside : (q.position (t.nodes n)).Neighbour ((q.position node).shift offset) :=
    ⟨offset, hoffset, by rw [hnode]⟩
  have hz : ((q.position node).shift offset).z = q.startPos.z := rfl
  simp only [PathQuery.visitNeighbor] at ht'
  generalize (q.position node).shift offset = pos at ht' hbeside hz
  split_ifs at ht' with hbounds
  · cases ht'
    exact ⟨h, hnode, .refl t⟩
  · have hcost := getMapWalkCost_pos node pos
    cases hfound : t.getNodeByPosition pos.x pos.y with
    | some j =>
      simp only [hfound] at ht'
      obtain ⟨hj, hx, hy⟩ := h.table hfound
      have hpos : q.position (t.nodes j) = pos := by rw [position, hx, hy, ← hz]
      split_ifs at ht' with hcheaper
      · cases ht'
        exact ⟨h, hnode, .refl t⟩
      · cases ht'
        have hnew := Nat.lt_of_not_le hcheaper
        have hnj : n ≠ j := by
          rintro rfl
          rw [hnode] at hnew
          omega
        have hinv := h.reopen hn hj (by rw [hnode]; omega) hnew (hpos ▸ hbeside)
        refine ⟨hinv.of_eq (by simp) (by simp) (by simp), ?_, ?_⟩
        · rw [AStarNodes.openNode_nodes]
          exact (Function.update_of_ne hnj _ _).trans hnode
        · exact extends_reopen hj hnew
    | none =>
      simp only [hfound] at ht'
      cases hwalk : q.walker.canWalkTo pos with
      | none =>
        simp only [hwalk, Option.some.injEq] at ht'
        exact ht' ▸ ⟨h, hnode, .refl t⟩
      | some tile =>
        simp only [hwalk] at ht'
        have henter : q.Enterable pos :=
          ⟨by rw [hwalk]; rfl, inSearchDist_of_inBounds (by simpa using hbounds)⟩
        have hext := extends_createOpenNode (q := q) ht'
        refine ⟨h.create hn (by rw [hnode]; omega) hz hbeside henter ht', ?_, hext⟩
        simp only [AStarNodes.createOpenNode] at ht'
        split_ifs at ht'
        cases ht'
        exact (Function.update_of_ne (Nat.ne_of_lt hn) _ _).trans hnode

theorem NodesInv.visitNeighbors (h : NodesInv q t) {n : Nat} {node : AStarNode}
    (hn : n < t.curNode) (hnode : t.nodes n = node) {offsets : List (Int × Int)}
    (hoffsets : ∀ o ∈ offsets, o ∈ allNeighbors) :
    NodesInv q (q.visitNeighbors n node offsets t).1 ∧
      Extends q t (q.visitNeighbors n node offsets t).1 := by
  induction offsets generalizing t with
  | nil => exact ⟨h, .refl t⟩
  | cons offset offsets ih =>
    simp only [PathQuery.visitNeighbors]
    cases hvisit : q.visitNeighbor t n node offset with
    | none => exact ⟨h, .refl t⟩
    | some t' =>
      obtain ⟨hinv, hnode', hext⟩ :=
        h.visitNeighbor hn hnode (hoffsets offset List.mem_cons_self) hvisit
      have hrest := ih hinv (Nat.lt_of_lt_of_le hn hext.cur_le) hnode'
        fun o ho => hoffsets o (List.mem_cons_of_mem offset ho)
      exact ⟨hrest.1, hext.trans hrest.2⟩

/-- The search ends on a node that met the condition when it was tested. -/
structure SearchInv (q : PathQuery) (s : PathSearch) : Prop where
  nodes : NodesInv q s.nodes
  found : ∀ {i}, s.found = some i → i < s.nodes.curNode ∧
    s.endPos = q.position (s.nodes.nodes i) ∧ ∃ bestMatch,
      (q.fpp.pathCondition q.walker q.targetPos q.startPos s.endPos bestMatch).1

theorem searchInv_init : SearchInv q q.init :=
  ⟨nodesInv_init, fun hi => by cases hi⟩

theorem SearchInv.expand {s s' : PathSearch} (h : SearchInv q s) {n : Nat}
    (hn : n < s.nodes.curNode) (hopen : s.nodes.openNodes n)
    (hs' : q.expand s n = .running s') :
    SearchInv q s' ∧ s'.nodes.rank < s.nodes.rank := by
  have hvisit := h.nodes.visitNeighbors hn rfl
    (fun o (ho : o ∈ neighbors q.fpp (s.nodes.nodes n)
      ((s.nodes.nodes n).parent.map s.nodes.nodes)) => mem_allNeighbors_of_mem_neighbors ho)
  simp only [PathQuery.expand] at hs'
  split_ifs at hs'
  cases hs'
  obtain ⟨hinv, hext⟩ := hvisit
  refine ⟨⟨hinv.of_eq rfl rfl rfl, fun {i} hi => ?_⟩,
    AStarNodes.rank_closeNode hn hopen hext.progress⟩
  obtain ⟨hlt, hend, hmatch⟩ := h.found hi
  exact ⟨Nat.lt_of_lt_of_le hlt hext.cur_le, hend.trans (hext.position hlt).symm, hmatch⟩

theorem SearchInv.round_cases {s : PathSearch} (h : SearchInv q s) :
    q.round s = .failed ∨ ∃ s₁, SearchInv q s₁ ∧ s₁.nodes = s.nodes ∧
      (q.round s = .finished s₁ ∨ ∃ n, n < s.nodes.curNode ∧ s.nodes.openNodes n ∧
        q.round s = q.expand s₁ n) := by
  by_cases hgo : q.fpp.maxSearchDist ≠ 0 ∨ s.nodes.closedNodes < 100
  · cases hbest : s.nodes.getBestNode with
    | none =>
      by_cases hfound : s.found.isSome
      · exact .inr ⟨s, h, rfl, .inl (by simp only [PathQuery.round, hgo, hbest, hfound]; rfl)⟩
      · exact .inl (by simp only [PathQuery.round, hgo, hbest, hfound]; rfl)
    | some n =>
      obtain ⟨hn, hopen⟩ := AStarNodes.getBestNode_spec hbest
      cases hcond : q.fpp.pathCondition q.walker q.targetPos q.startPos
        (q.position (s.nodes.nodes n)) s.bestMatch with
      | mk holds bestMatch =>
      cases holds with
      | true =>
        let s₁ := { s with
          found := some n, endPos := q.position (s.nodes.nodes n), bestMatch := bestMatch }
        have hs₁ : SearchInv q s₁ := by
          refine ⟨h.nodes, fun hi => ?_⟩
          cases hi
          exact ⟨hn, rfl, s.bestMatch, by rw [hcond]⟩
        refine .inr ⟨s₁, hs₁, rfl, ?_⟩
        by_cases hzero : bestMatch = 0
        · exact .inl (by simp only [PathQuery.round, hgo, hbest, hcond, hzero, s₁]; rfl)
        · exact .inr ⟨n, hn, hopen, by
            simp only [PathQuery.round, hgo, hbest, hcond, hzero, s₁]; rfl⟩
      | false =>
        exact .inr ⟨{ s with bestMatch := bestMatch }, ⟨h.nodes, h.found⟩, rfl,
          .inr ⟨n, hn, hopen, by simp only [PathQuery.round, hgo, hbest, hcond]; rfl⟩⟩
  · exact .inr ⟨s, h, rfl, .inl (by simp only [PathQuery.round, hgo]; rfl)⟩

theorem expand_ne_finished {s s' : PathSearch} {n : Nat} : q.expand s n ≠ .finished s' := by
  simp only [PathQuery.expand]
  split_ifs <;> nofun

theorem SearchInv.running {s s' : PathSearch} (h : SearchInv q s)
    (hs' : q.round s = .running s') : SearchInv q s' ∧ s'.nodes.rank < s.nodes.rank := by
  rcases h.round_cases with hfail | ⟨s₁, hs₁, hnodes, hfin | ⟨n, hn, hopen, hexp⟩⟩
  · rw [hfail] at hs'
    cases hs'
  · rw [hfin] at hs'
    cases hs'
  · rw [← hnodes] at hn hopen ⊢
    exact hs₁.expand hn hopen (hexp.symm.trans hs')

theorem SearchInv.finished {s s' : PathSearch} (h : SearchInv q s)
    (hs' : q.round s = .finished s') : SearchInv q s' := by
  rcases h.round_cases with hfail | ⟨s₁, hs₁, -, hfin | ⟨n, -, -, hexp⟩⟩
  · rw [hfail] at hs'
    cases hs'
  · rw [hfin] at hs'
    cases hs'
    exact hs₁
  · exact absurd (hexp.symm.trans hs') expand_ne_finished

theorem SearchInv.terminates {s : PathSearch} (h : SearchInv q s) :
    ∃ fuel result, q.searchLoop fuel s = some result := by
  induction hrank : s.nodes.rank using WellFoundedLT.induction generalizing s with
  | _ rank ih =>
    cases hround : q.round s with
    | running s' =>
      obtain ⟨hs', hlt⟩ := h.running hround
      obtain ⟨fuel, result, hresult⟩ := ih _ (hrank ▸ hlt) hs' rfl
      exact ⟨fuel + 1, result, by rw [searchLoop, hround]; exact hresult⟩
    | finished s' => exact ⟨1, some s', by rw [searchLoop, hround]⟩
    | failed => exact ⟨1, none, by rw [searchLoop, hround]⟩

theorem SearchInv.of_searchLoop {s s' : PathSearch} (h : SearchInv q s) {fuel : Nat}
    (hs' : q.searchLoop fuel s = some (some s')) : SearchInv q s' := by
  induction fuel generalizing s with
  | zero => cases hs'
  | succ fuel ih =>
    rw [searchLoop] at hs'
    cases hround : q.round s with
    | running s₁ =>
      simp only [hround] at hs'
      exact ih (h.running hround).1 hs'
    | finished s₁ =>
      simp only [hround, Option.some.injEq] at hs'
      exact hs' ▸ h.finished hround
    | failed => simp [hround] at hs'

end PathQuery

end Eloth
