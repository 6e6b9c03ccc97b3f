import Eloth.PathContract

/-!
# The path search finds a cheapest path

The nodes close in the order of their costs, so that a closed node never gets a new parent, and
each position beside a closed node has a node that is no dearer than the step to it. A neighbour
behind the direction of travel is as near to the parent.
-/

namespace Eloth

namespace Direction

def isDiagonal : Direction → Bool
  | .north | .east | .south | .west => false
  | .southwest | .southeast | .northwest | .northeast => true

end Direction

namespace MapPosition

theorem Adjacent.offset {p p' : MapPosition} (h : p.Adjacent p') :
    ((p'.x.toNat : Int) - p.x.toNat, (p'.y.toNat : Int) - p.y.toNat) ∈ allNeighbors := by
  obtain ⟨hne, hz, hx, hy⟩ := h
  simp only [getDistanceX, getDistanceY] at hx hy
  have hxy : p.x.toNat ≠ p'.x.toNat ∨ p.y.toNat ≠ p'.y.toNat := by
    by_contra hsame
    rw [not_or, not_not, not_not] at hsame
    refine hne ?_
    cases p
    cases p'
    simp_all [UInt16.toNat_inj]
  generalize hdx : (p'.x.toNat : Int) - p.x.toNat = dx
  generalize hdy : (p'.y.toNat : Int) - p.y.toNat = dy
  have hdxs : dx = 0 ∨ dx = 1 ∨ dx = -1 := by omega
  have hdys : dy = 0 ∨ dy = 1 ∨ dy = -1 := by omega
  have hnot : ¬(dx = 0 ∧ dy = 0) := by omega
  rcases hdxs with rfl | rfl | rfl <;> rcases hdys with rfl | rfl | rfl <;>
    first | decide | exact absurd ⟨rfl, rfl⟩ hnot

theorem Adjacent.eq_shift {p p' : MapPosition} (h : p.Adjacent p') :
    p' = p.shift ((p'.x.toNat : Int) - p.x.toNat, (p'.y.toNat : Int) - p.y.toNat) := by
  have hback (a b : UInt16) : b = UInt16.ofInt ((a.toNat : Int) + ((b.toNat : Int) - a.toNat)) := by
    apply UInt16.toNat_inj.mp
    have hb := b.toNat_lt
    simp only [UInt16.ofInt, UInt16.toNat_ofNat']
    omega
  obtain ⟨x', y', z'⟩ := p'
  rw [shift]
  congr 1
  · exact hback _ _
  · exact hback _ _
  · exact h.2.1.symm

theorem Adjacent.symm {p p' : MapPosition} (h : p.Adjacent p') : p'.Adjacent p := by
  obtain ⟨hne, hz, hx, hy⟩ := h
  simp only [getDistanceX, getDistanceY] at hx hy
  refine ⟨hne.symm, hz.symm, ?_, ?_⟩
  · simp only [getDistanceX]
    omega
  · simp only [getDistanceY]
    omega

end MapPosition

/-- A neighbour that is not looked at is the parent, or one straight step away from it. -/
theorem behind_cases {fpp : FindPathParams} (hdiagonal : fpp.allowDiagonal = true)
    {node parent : AStarNode} (hparent : ((parent.x.toNat : Int) - node.x.toNat,
      (parent.y.toNat : Int) - node.y.toNat) ∈ allNeighbors) {offset : Int × Int}
    (hoffset : offset ∈ allNeighbors) (hbehind : offset ∉ neighbors fpp node (some parent)) :
    (offset.1 = (parent.x.toNat : Int) - node.x.toNat ∧
      offset.2 = (parent.y.toNat : Int) - node.y.toNat) ∨
    (offset.1 - ((parent.x.toNat : Int) - node.x.toNat)).natAbs +
      (offset.2 - ((parent.y.toNat : Int) - node.y.toNat)).natAbs = 1 := by
  simp only [neighbors, hdiagonal] at hbehind
  generalize (parent.x.toNat : Int) - node.x.toNat = dx at *
  generalize (parent.y.toNat : Int) - node.y.toNat = dy at *
  simp only [allNeighbors, List.mem_cons, Prod.mk.injEq, List.not_mem_nil, or_false] at hparent
  rcases hparent with ⟨rfl, rfl⟩ | ⟨rfl, rfl⟩ | ⟨rfl, rfl⟩ | ⟨rfl, rfl⟩ | ⟨rfl, rfl⟩ | ⟨rfl, rfl⟩ |
    ⟨rfl, rfl⟩ | ⟨rfl, rfl⟩ <;> revert offset <;> decide

theorem AStarNodes.openNode_openNodes (t : AStarNodes) (n : Nat) :
    (t.openNode n).openNodes = Function.update t.openNodes n true := by
  rw [AStarNodes.openNode]
  split_ifs with hopen
  · exact ((Function.update_eq_self_iff).mpr hopen.symm).symm
  · rfl

namespace PathQuery

variable {q : PathQuery} {t t' : AStarNodes}

/-! ### The cost of a path -/

/-- The cost of a step and of entering the tile that it leads to. -/
def walkCost (q : PathQuery) : MapPosition → List Direction → Nat
  | _, [] => 0
  | p, d :: ds =>
    (if d.isDiagonal then MAP_DIAGONALWALKCOST else MAP_NORMALWALKCOST) +
      AStarNodes.getTileWalkCost q.walker (q.walker.getTile (getNextPosition d p)) +
      walkCost q (getNextPosition d p) ds

def stepCost (q : PathQuery) (p p' : MapPosition) : Nat :=
  AStarNodes.getMapWalkCost ⟨none, 0, p.x, p.y⟩ p' +
    AStarNodes.getTileWalkCost q.walker (q.walker.getTile p')

theorem walkCost_append (p : MapPosition) (ds : List Direction) {ok : MapPosition → Prop}
    {mid : MapPosition} (h : MapPosition.WalksTo ok p ds mid) (ds' : List Direction) :
    q.walkCost p (ds ++ ds') = q.walkCost p ds + q.walkCost mid ds' := by
  induction ds generalizing p with
  | nil =>
    cases h
    rw [List.nil_append, walkCost, Nat.zero_add]
  | cons d ds ih =>
    rw [List.cons_append, walkCost, walkCost, ih _ h.2.2]
    exact (Nat.add_assoc _ _ _).symm

theorem walkCost_cons {p : MapPosition} {d : Direction} (ds : List Direction)
    (h : p.Adjacent (getNextPosition d p)) :
    q.walkCost p (d :: ds) =
      q.stepCost p (getNextPosition d p) + q.walkCost (getNextPosition d p) ds := by
  rw [walkCost, stepCost, AStarNodes.getMapWalkCost]
  obtain ⟨hne, -, hx, hy⟩ := h
  simp only [MapPosition.getDistanceX, MapPosition.getDistanceY] at hx hy
  have hstep (a : UInt16) : ((a + 1).toNat : Int) ≠ a.toNat ∧ ((a - 1).toNat : Int) ≠ a.toNat := by
    have ha := a.toNat_lt
    simp only [UInt16.toNat_add, UInt16.toNat_sub, UInt16.reduceToNat]
    omega
  have hsx := hstep p.x
  have hsy := hstep p.y
  congr 2
  cases d <;> simp only [getNextPosition] at hx hy ⊢
  case north | south | east | west => exact (if_neg (by omega)).symm
  case southwest | southeast | northwest | northeast => exact (if_pos (by omega)).symm

theorem stepCost_ge (p p' : MapPosition) :
    MAP_NORMALWALKCOST + AStarNodes.getTileWalkCost q.walker (q.walker.getTile p') ≤
      q.stepCost p p' := by
  rw [stepCost, AStarNodes.getMapWalkCost]
  refine Nat.add_le_add_right ?_ _
  split_ifs <;> decide

theorem inBounds_of_inSearchDist (hkeep : q.fpp.keepDistance = false) {pos : MapPosition}
    (h : q.InSearchDist pos) : q.inBounds pos = true := by
  rw [inBounds, hkeep, Bool.false_and, Bool.not_false, Bool.and_true]
  by_cases hzero : q.fpp.maxSearchDist = 0
  · simp [hzero]
  · obtain ⟨hx, hy⟩ := h hzero
    simp [hzero, hx, hy]

/-! ### The expansion of a node -/

/-- Some node at the position is no dearer than the step to it from node `i`. -/
def Covers (q : PathQuery) (t : AStarNodes) (i : Nat) (p : MapPosition) : Prop :=
  ∃ j < t.curNode, q.position (t.nodes j) = p ∧
    (t.nodes j).f ≤ (t.nodes i).f + q.stepCost (q.position (t.nodes i)) p

/-- The pool while node `n` is expanded; `done` are the closed nodes and `n` itself. -/
structure Expanding (q : PathQuery) (n : Nat) (done : Nat → Prop) (t : AStarNodes) : Prop where
  nodes : NodesInv q t
  done_self : done n
  done_lt : ∀ {i}, done i → i < t.curNode
  open_iff : ∀ {i}, i < t.curNode → i ≠ n → (t.openNodes i = true ↔ ¬done i)
  low : ∀ {i}, done i → (t.nodes i).f ≤ (t.nodes n).f
  high : ∀ {i}, i < t.curNode → ¬done i → (t.nodes n).f ≤ (t.nodes i).f
  parent : ∀ {i}, i ≠ 0 → i < t.curNode → ∃ k, (t.nodes i).parent = some k ∧ done k ∧
    (t.nodes i).f = (t.nodes k).f + q.stepCost (q.position (t.nodes k)) (q.position (t.nodes i))
  covered : ∀ {i p}, done i → i ≠ n → (q.position (t.nodes i)).Adjacent p → q.Enterable p →
    q.Covers t i p

/-- The nodes of `done` stay as they are, and no cost rises. -/
structure Lowers (q : PathQuery) (done : Nat → Prop) (t t' : AStarNodes) : Prop where
  cur_le : t.curNode ≤ t'.curNode
  same : ∀ {i}, done i → t'.nodes i = t.nodes i
  le : ∀ {i}, i < t.curNode → q.position (t'.nodes i) = q.position (t.nodes i) ∧
    (t'.nodes i).f ≤ (t.nodes i).f

theorem Lowers.refl (done : Nat → Prop) (t : AStarNodes) : Lowers q done t t :=
  ⟨le_rfl, fun _ => rfl, fun _ => ⟨rfl, le_rfl⟩⟩

theorem Lowers.covers {done : Nat → Prop} (h : Lowers q done t t') {i : Nat} (hi : done i)
    {p : MapPosition} (hp : q.Covers t i p) : q.Covers t' i p := by
  obtain ⟨j, hj, hposition, hle⟩ := hp
  obtain ⟨hsame, hlow⟩ := h.le hj
  refine ⟨j, hj.trans_le h.cur_le, hsame.trans hposition, ?_⟩
  rw [h.same hi]
  exact hlow.trans hle

theorem visitNeighbor_cases {n : Nat} {node : AStarNode} {offset : Int × Int}
    {pos : MapPosition} (hpos : (q.position node).shift offset = pos)
    (htile : ∀ tile, q.walker.canWalkTo pos = some tile → q.walker.getTile pos = some tile)
    (h : q.visitNeighbor t n node offset = some t') :
    (t' = t ∧ (q.inBounds pos = true → (q.walker.canWalkTo pos).isSome →
      ∃ j, t.getNodeByPosition pos.x pos.y = some j ∧
        (t.nodes j).f ≤ node.f + q.stepCost (q.position node) pos)) ∨
    (∃ j, t.getNodeByPosition pos.x pos.y = some j ∧
      node.f + q.stepCost (q.position node) pos < (t.nodes j).f ∧
      t' = (t.setParent j n (node.f + q.stepCost (q.position node) pos)).openNode j) ∨
    t.createOpenNode n pos.x pos.y (node.f + q.stepCost (q.position node) pos) = some t' := by
  have hcost : node.f + q.stepCost (q.position node) pos =
      node.f + AStarNodes.getMapWalkCost node pos +
        AStarNodes.getTileWalkCost q.walker (q.walker.getTile pos) :=
    (Nat.add_assoc _ _ _).symm
  simp only [visitNeighbor, hpos] at h
  rw [hcost]
  split_ifs at h with hbounds
  · cases h
    refine .inl ⟨rfl, fun hin => ?_⟩
    rw [hin] at hbounds
    cases hbounds
  · cases hfound : t.getNodeByPosition pos.x pos.y with
    | some j =>
      simp only [hfound] at h
      split_ifs at h with hle
      · cases h
        exact .inl ⟨rfl, fun _ _ => ⟨j, rfl, hle⟩⟩
      · cases h
        exact .inr (.inl ⟨j, rfl, Nat.lt_of_not_le hle, rfl⟩)
    | none =>
      simp only [hfound] at h
      cases hwalk : q.walker.canWalkTo pos with
      | none =>
        simp only [hwalk, Option.some.injEq] at h
        exact .inl ⟨h.symm, fun _ hsome => absurd hsome Bool.false_ne_true⟩
      | some tile =>
        simp only [hwalk] at h
        rw [htile tile hwalk]
        exact .inr (.inr h)

/-- The walkable tile of a position is the tile there. -/
def TilesAgree (w : Walker) : Prop :=
  ∀ pos tile, w.canWalkTo pos = some tile → w.getTile pos = some tile

theorem tilesAgree_ofCreature (c : WalkCache) (getTile : MapPosition → Option TileRef)
    (queryAdd getTopVisibleCreature avoidsField : TileRef → Bool)
    (isSightClear : MapPosition → MapPosition → Bool) :
    TilesAgree (.ofCreature c getTile queryAdd getTopVisibleCreature avoidsField isSightClear) := by
  intro pos tile hwalk
  change canWalkTo c getTile queryAdd pos = some tile at hwalk
  change getTile pos = some tile
  simp only [canWalkTo] at hwalk
  split_ifs at hwalk with hcached
  · exact hwalk
  · cases htile : getTile pos with
    | none => simp [htile] at hwalk
    | some there =>
      simp only [htile] at hwalk
      split_ifs at hwalk
      exact hwalk
  · exact hwalk

section

variable {n : Nat} {done : Nat → Prop}

theorem Expanding.of_lowers (h : Expanding q n done t) (hlowers : Lowers q done t t')
    (hnodes : NodesInv q t')
    (hopen : ∀ {i}, i < t'.curNode → i ≠ n → (t'.openNodes i = true ↔ ¬done i))
    (hhigh : ∀ {i}, i < t'.curNode → ¬done i → (t.nodes n).f ≤ (t'.nodes i).f)
    (hparent : ∀ {i}, i ≠ 0 → i < t'.curNode → ∃ k, (t'.nodes i).parent = some k ∧ done k ∧
      (t'.nodes i).f =
        (t.nodes k).f + q.stepCost (q.position (t.nodes k)) (q.position (t'.nodes i))) :
    Expanding q n done t' where
  nodes := hnodes
  done_self := h.done_self
  done_lt hi := (h.done_lt hi).trans_le hlowers.cur_le
  open_iff := hopen
  low hi := by
    rw [hlowers.same hi, hlowers.same h.done_self]
    exact h.low hi
  high hi hdone := by
    rw [hlowers.same h.done_self]
    exact hhigh hi hdone
  parent hi hlt := by
    obtain ⟨k, hk, hdone, hf⟩ := hparent hi hlt
    refine ⟨k, hk, hdone, ?_⟩
    rw [hlowers.same hdone]
    exact hf
  covered hi hne hadjacent henter := by
    rw [hlowers.same hi] at hadjacent
    exact hlowers.covers hi (h.covered hi hne hadjacent henter)

theorem lowers_reopen {j newf : Nat} (hj : ¬done j)
    (hnewf : newf ≤ (t.nodes j).f) :
    Lowers q done t ((t.setParent j n newf).openNode j) := by
  refine ⟨?_, fun {i} hi => ?_, fun {i} _ => ?_⟩
  · rw [AStarNodes.openNode_curNode]
    exact le_rfl
  · have hne : i ≠ j := by
      rintro rfl
      exact hj hi
    rw [AStarNodes.openNode_nodes]
    exact Function.update_of_ne hne _ _
  · rw [AStarNodes.openNode_nodes]
    by_cases hij : i = j
    · subst hij
      rw [show (t.setParent i n newf).nodes i = _ from Function.update_self _ _ _]
      exact ⟨rfl, hnewf⟩
    · rw [show (t.setParent j n newf).nodes i = _ from Function.update_of_ne hij _ _]
      exact ⟨rfl, le_rfl⟩

theorem Expanding.reopen (h : Expanding q n done t) {j newf : Nat} {pos : MapPosition}
    (hj : j < t.curNode) (hposition : q.position (t.nodes j) = pos)
    (hnewf : newf = (t.nodes n).f + q.stepCost (q.position (t.nodes n)) pos)
    (hless : newf < (t.nodes j).f)
    (hnodes : NodesInv q ((t.setParent j n newf).openNode j)) :
    Expanding q n done ((t.setParent j n newf).openNode j) ∧
      Lowers q done t ((t.setParent j n newf).openNode j) ∧
      q.Covers ((t.setParent j n newf).openNode j) n pos := by
  have hdone : ¬done j := fun hdone => by
    have hlow := h.low hdone
    omega
  have hnj : n ≠ j := fun heq => hdone (heq ▸ h.done_self)
  have hlowers : Lowers q done t ((t.setParent j n newf).openNode j) :=
    lowers_reopen hdone hless.le
  have hself : ((t.setParent j n newf).openNode j).nodes j =
      ⟨some n, newf, (t.nodes j).x, (t.nodes j).y⟩ := by
    rw [AStarNodes.openNode_nodes]
    exact Function.update_self _ _ _
  have hother {i : Nat} (hi : i ≠ j) :
      ((t.setParent j n newf).openNode j).nodes i = t.nodes i := by
    rw [AStarNodes.openNode_nodes]
    exact Function.update_of_ne hi _ _
  have hcur : ((t.setParent j n newf).openNode j).curNode = t.curNode := by
    rw [AStarNodes.openNode_curNode]
    rfl
  refine ⟨h.of_lowers hlowers hnodes ?_ ?_ ?_, hlowers, j, hcur ▸ hj, ?_, ?_⟩
  · intro i hi hne
    rw [AStarNodes.openNode_openNodes, Function.update_apply]
    split_ifs with hij
    · rw [hij]
      exact ⟨fun _ => hdone, fun _ => rfl⟩
    · exact h.open_iff (hcur ▸ hi) hne
  · intro i hi hnot
    by_cases hij : i = j
    · rw [hij, hself]
      exact hnewf ▸ Nat.le_add_right _ _
    · rw [hother hij]
      exact h.high (hcur ▸ hi) hnot
  · intro i hi hlt
    by_cases hij : i = j
    · subst hij
      refine ⟨n, by rw [hself], h.done_self, ?_⟩
      rw [hself, show q.position ⟨some n, newf, (t.nodes i).x, (t.nodes i).y⟩ = pos from hposition]
      exact hnewf
    · rw [hother hij]
      exact h.parent hi (hcur ▸ hlt)
  · rw [hself]
    exact hposition
  · rw [hself, hother hnj]
    exact hnewf.le

theorem Expanding.create (h : Expanding q n done t) {newf : Nat} {pos : MapPosition}
    (hz : pos.z = q.startPos.z)
    (hnewf : newf = (t.nodes n).f + q.stepCost (q.position (t.nodes n)) pos)
    (hnodes : NodesInv q t') (ht' : t.createOpenNode n pos.x pos.y newf = some t') :
    Expanding q n done t' ∧ Lowers q done t t' ∧ q.Covers t' n pos := by
  simp only [AStarNodes.createOpenNode] at ht'
  split_ifs at ht' with hfull
  have hlast : t'.nodes t.curNode = ⟨some n, newf, pos.x, pos.y⟩ := by
    rw [← Option.some.inj ht']
    exact Function.update_self _ _ _
  have hold {i : Nat} (hi : i < t.curNode) : t'.nodes i = t.nodes i := by
    rw [← Option.some.inj ht']
    exact Function.update_of_ne hi.ne _ _
  have hcur : t'.curNode = t.curNode + 1 := by rw [← Option.some.inj ht']
  have hopen : t'.openNodes = Function.update t.openNodes t.curNode true := by
    rw [← Option.some.inj ht']
  have hposition : q.position ⟨some n, newf, pos.x, pos.y⟩ = pos := by rw [position, ← hz]
  have hdone : ¬done t.curNode := fun hdone => lt_irrefl _ (h.done_lt hdone)
  have hlowers : Lowers q done t t' :=
    ⟨by omega, fun hi => hold (h.done_lt hi), fun hi => by rw [hold hi]; exact ⟨rfl, le_rfl⟩⟩
  refine ⟨h.of_lowers hlowers hnodes ?_ ?_ ?_, hlowers, t.curNode, by omega, ?_, ?_⟩
  · intro i hi hne
    rw [hopen, Function.update_apply]
    split_ifs with heq
    · rw [heq]
      exact ⟨fun _ => hdone, fun _ => rfl⟩
    · exact h.open_iff (by omega) hne
  · intro i hi hnot
    by_cases heq : i = t.curNode
    · rw [heq, hlast]
      exact hnewf ▸ Nat.le_add_right _ _
    · rw [hold (by omega)]
      exact h.high (by omega) hnot
  · intro i hi hlt
    by_cases heq : i = t.curNode
    · rw [heq, hlast, hposition]
      exact ⟨n, rfl, h.done_self, hnewf⟩
    · rw [hold (by omega)]
      exact h.parent hi (by omega)
  · rw [hlast]
    exact hposition
  · rw [hlast, hold (h.done_lt h.done_self)]
    exact hnewf.le

theorem Expanding.visitNeighbor (h : Expanding q n done t) (htiles : TilesAgree q.walker)
    (hkeep : q.fpp.keepDistance = false) {node : AStarNode} (hnode : t.nodes n = node)
    {offset : Int × Int} (hoffset : offset ∈ allNeighbors)
    (ht' : q.visitNeighbor t n node offset = some t') :
    Expanding q n done t' ∧ Lowers q done t t' ∧
      (q.Enterable ((q.position node).shift offset) →
        q.Covers t' n ((q.position node).shift offset)) := by
  obtain ⟨hnodes, -, -⟩ := h.nodes.visitNeighbor (h.done_lt h.done_self) hnode hoffset ht'
  have hz : ((q.position node).shift offset).z = q.startPos.z := rfl
  generalize hpos : (q.position node).shift offset = pos at hz ⊢
  subst hnode
  rcases visitNeighbor_cases hpos (htiles pos) ht' with ⟨rfl, hskip⟩ | ⟨j, hfound, hless, rfl⟩ |
    hcreate
  · refine ⟨h, .refl done _, fun henter => ?_⟩
    obtain ⟨j, hfound, hle⟩ := hskip (inBounds_of_inSearchDist hkeep henter.2) henter.1
    obtain ⟨hj, hx, hy⟩ := h.nodes.table hfound
    exact ⟨j, hj, by rw [position, hx, hy, ← hz], hle⟩
  · obtain ⟨hj, hx, hy⟩ := h.nodes.table hfound
    obtain ⟨hexpanding, hlowers, hcovers⟩ :=
      h.reopen hj (by rw [position, hx, hy, ← hz]) rfl hless hnodes
    exact ⟨hexpanding, hlowers, fun _ => hcovers⟩
  · obtain ⟨hexpanding, hlowers, hcovers⟩ := h.create hz rfl hnodes hcreate
    exact ⟨hexpanding, hlowers, fun _ => hcovers⟩

theorem Lowers.trans {t₁ t₂ t₃ : AStarNodes} (h : Lowers q done t₁ t₂) (h' : Lowers q done t₂ t₃) :
    Lowers q done t₁ t₃ := by
  refine ⟨h.cur_le.trans h'.cur_le, fun hi => (h'.same hi).trans (h.same hi), fun hi => ?_⟩
  obtain ⟨hposition, hle⟩ := h.le hi
  obtain ⟨hposition', hle'⟩ := h'.le (hi.trans_le h.cur_le)
  exact ⟨hposition'.trans hposition, hle'.trans hle⟩

theorem Expanding.visitNeighbors (h : Expanding q n done t) (htiles : TilesAgree q.walker)
    (hkeep : q.fpp.keepDistance = false) {node : AStarNode} (hnode : t.nodes n = node)
    {offsets : List (Int × Int)} (hoffsets : ∀ o ∈ offsets, o ∈ allNeighbors)
    (ht' : q.visitNeighbors n node offsets t = (t', false)) :
    Expanding q n done t' ∧ Lowers q done t t' ∧
      ∀ o ∈ offsets, q.Enterable ((q.position node).shift o) →
        q.Covers t' n ((q.position node).shift o) := by
  induction offsets generalizing t with
  | nil =>
    cases ht'
    exact ⟨h, .refl done _, fun o ho => nomatch ho⟩
  | cons offset offsets ih =>
    simp only [PathQuery.visitNeighbors] at ht'
    cases hvisit : q.visitNeighbor t n node offset with
    | none =>
      rw [hvisit] at ht'
      cases ht'
    | some t₁ =>
      rw [hvisit] at ht'
      obtain ⟨h₁, hlowers₁, hcovers₁⟩ :=
        h.visitNeighbor htiles hkeep hnode (hoffsets offset List.mem_cons_self) hvisit
      obtain ⟨h₂, hlowers₂, hcovers₂⟩ := ih h₁ ((hlowers₁.same h.done_self).trans hnode)
        (fun o ho => hoffsets o (List.mem_cons_of_mem offset ho)) ht'
      refine ⟨h₂, hlowers₁.trans hlowers₂, fun o ho henter => ?_⟩
      rcases List.mem_cons.mp ho with rfl | ho
      · exact hlowers₂.covers h.done_self (hcovers₁ henter)
      · exact hcovers₂ o ho henter

end

/-! ### The rounds -/

/-- What the test of a position answers, as long as nothing matched. -/
def Matches (q : PathQuery) (pos : MapPosition) : Prop :=
  (q.fpp.pathCondition q.walker q.targetPos q.startPos pos 0).1 = true

/-- Every match sets the best distance to 0. -/
def StopsAtMatch (q : PathQuery) : Prop :=
  ∀ pos, q.Matches pos → (q.fpp.pathCondition q.walker q.targetPos q.startPos pos 0).2 = 0

/-- No two of the start and the positions to enter are neighbours across the end of the
coordinates only. -/
def NoSeam (q : PathQuery) : Prop :=
  ∀ p p', p.Neighbour p' → p = q.startPos ∨ q.Enterable p → q.Enterable p' → p.Adjacent p'

theorem pathCondition_snd {fpp : FindPathParams} {w : Walker}
    {targetPos startPos testPos : MapPosition} {bestMatchDist : Int}
    (h : (fpp.pathCondition w targetPos startPos testPos bestMatchDist).1 = false) :
    (fpp.pathCondition w targetPos startPos testPos bestMatchDist).2 = bestMatchDist := by
  revert h
  simp only [FindPathParams.pathCondition]
  split_ifs <;> simp

/-- The pool at the head of the outer loop. -/
structure Frontier (q : PathQuery) (t : AStarNodes) : Prop where
  nodes : NodesInv q t
  low : ∀ {i j}, i < t.curNode → j < t.curNode → t.openNodes i = false → t.openNodes j = true →
    (t.nodes i).f ≤ (t.nodes j).f
  parent : ∀ {i}, i ≠ 0 → i < t.curNode → ∃ k < t.curNode, (t.nodes i).parent = some k ∧
    t.openNodes k = false ∧
    (t.nodes i).f = (t.nodes k).f + q.stepCost (q.position (t.nodes k)) (q.position (t.nodes i))
  covered : ∀ {i p}, i < t.curNode → t.openNodes i = false →
    (q.position (t.nodes i)).Adjacent p → q.Enterable p → q.Covers t i p
  unmatched : ∀ {i}, i < t.curNode → t.openNodes i = false → ¬q.Matches (q.position (t.nodes i))

theorem frontier_init : Frontier q q.init.nodes where
  nodes := nodesInv_init
  low hi _ hclosed _ := by
    obtain rfl : _ = 0 := Nat.lt_one_iff.mp hi
    cases hclosed
  parent hi hlt := absurd (Nat.lt_one_iff.mp hlt) hi
  covered hi hclosed := by
    obtain rfl : _ = 0 := Nat.lt_one_iff.mp hi
    cases hclosed
  unmatched hi hclosed := by
    obtain rfl : _ = 0 := Nat.lt_one_iff.mp hi
    cases hclosed

theorem getBestNode_cases (t : AStarNodes) :
    (t.getBestNode = none ∧
      ∀ j < t.curNode, t.openNodes j = true → 0x7FFFFFFF ≤ (t.nodes j).f) ∨
    ∃ n, t.getBestNode = some n ∧
      ∀ j < t.curNode, t.openNodes j = true → (t.nodes n).f ≤ (t.nodes j).f := by
  let best (s : Nat × Option Nat) (i : Nat) : Nat × Option Nat :=
    if t.openNodes i ∧ (t.nodes i).f < s.1 then ((t.nodes i).f, some i) else s
  let fits (s : Nat × Option Nat) : Prop :=
    s = (0x7FFFFFFF, none) ∨ ∃ n, s = ((t.nodes n).f, some n)
  have hfold (l : List Nat) (s : Nat × Option Nat) (hs : fits s) : fits (l.foldl best s) ∧
      (l.foldl best s).1 ≤ s.1 ∧
      ∀ i ∈ l, t.openNodes i = true → (l.foldl best s).1 ≤ (t.nodes i).f := by
    induction l generalizing s with
    | nil => exact ⟨hs, le_rfl, fun i hi => nomatch hi⟩
    | cons i l ih =>
      have hstep : fits (best s i) ∧ (best s i).1 ≤ s.1 ∧
          (t.openNodes i = true → (best s i).1 ≤ (t.nodes i).f) := by
        simp only [best]
        split_ifs with hless
        · exact ⟨.inr ⟨i, rfl⟩, hless.2.le, fun _ => le_rfl⟩
        · exact ⟨hs, le_rfl, fun hi => Nat.le_of_not_lt fun hlt => hless ⟨hi, hlt⟩⟩
      obtain ⟨hfits, hle, hall⟩ := ih (best s i) hstep.1
      refine ⟨hfits, hle.trans hstep.2.1, fun j hj hopen => ?_⟩
      rcases List.mem_cons.mp hj with rfl | hj
      · exact hle.trans (hstep.2.2 hopen)
      · exact hall j hj hopen
  obtain ⟨hfits, -, hall⟩ := hfold (List.range t.curNode) (0x7FFFFFFF, none) (.inl rfl)
  have hresult : t.getBestNode = ((List.range t.curNode).foldl best (0x7FFFFFFF, none)).2 := rfl
  rw [hresult]
  rcases hfits with hfits | ⟨n, hfits⟩
  · rw [hfits] at hall ⊢
    exact .inl ⟨rfl, fun j hj => hall j (List.mem_range.mpr hj)⟩
  · rw [hfits] at hall ⊢
    exact .inr ⟨n, rfl, fun j hj => hall j (List.mem_range.mpr hj)⟩

theorem getBestNode_le {n : Nat} (h : t.getBestNode = some n) {j : Nat} (hj : j < t.curNode)
    (hopen : t.openNodes j = true) : (t.nodes n).f ≤ (t.nodes j).f := by
  rcases getBestNode_cases t with ⟨hnone, -⟩ | ⟨n', hn', hle⟩
  · rw [hnone] at h
    cases h
  · obtain rfl := Option.some.inj (h.symm.trans hn')
    exact hle j hj hopen

/-- What is done while node `n` of this pool is expanded. -/
def Done (t : AStarNodes) (n : Nat) (i : Nat) : Prop :=
  i = n ∨ i < t.curNode ∧ t.openNodes i = false

theorem Frontier.expanding (h : Frontier q t) {n : Nat} (hbest : t.getBestNode = some n) :
    Expanding q n (Done t n) t := by
  obtain ⟨hn, hopen⟩ := AStarNodes.getBestNode_spec hbest
  refine ⟨h.nodes, .inl rfl, ?_, ?_, ?_, ?_, ?_, ?_⟩
  · rintro i (rfl | hi)
    · exact hn
    · exact hi.1
  · intro i hi hne
    rw [Done, not_or, not_and, Bool.not_eq_false]
    exact ⟨fun hopen => ⟨hne, fun _ => hopen⟩, fun hdone => hdone.2 hi⟩
  · rintro i (rfl | hi)
    · exact le_rfl
    · exact h.low hi.1 hn hi.2 hopen
  · intro i hi hdone
    refine getBestNode_le hbest hi ?_
    rw [Done, not_or, not_and, Bool.not_eq_false] at hdone
    exact hdone.2 hi
  · intro i hi hlt
    obtain ⟨k, hk, hparent, hclosed, hf⟩ := h.parent hi hlt
    exact ⟨k, hparent, .inr ⟨hk, hclosed⟩, hf⟩
  · rintro i p (rfl | hi) hne
    · exact absurd rfl hne
    · exact h.covered hi.1 hi.2

/-- A position behind the direction of travel has a node that came from the parent. -/
theorem Expanding.covers_behind {n : Nat} {done : Nat → Prop} (h : Expanding q n done t)
    (hseam : q.NoSeam) (hdiagonal : q.fpp.allowDiagonal = true) (hn : n ≠ 0) {k : Nat}
    (hk : (t.nodes n).parent = some k) {p : MapPosition}
    (hadjacent : (q.position (t.nodes n)).Adjacent p) (henter : q.Enterable p)
    (hbehind : ((p.x.toNat : Int) - (t.nodes n).x.toNat, (p.y.toNat : Int) - (t.nodes n).y.toNat) ∉
      neighbors q.fpp (t.nodes n) (some (t.nodes k))) : q.Covers t n p := by
  have hlt := h.done_lt h.done_self
  obtain ⟨k', hk', hdone, hf⟩ := h.parent hn hlt
  obtain rfl := Option.some.inj (hk.symm.trans hk')
  obtain ⟨k', hk', hklt, -, hbeside⟩ := h.nodes.parent hn hlt
  obtain rfl := Option.some.inj (hk.symm.trans hk')
  have hkstart : q.position (t.nodes k) = q.startPos ∨ q.Enterable (q.position (t.nodes k)) := by
    by_cases hzero : k = 0
    · exact .inl (by rw [hzero, h.nodes.root]; rfl)
    · exact .inr (h.nodes.enterable hzero hklt)
  have hstep := hseam _ _ hbeside hkstart (h.nodes.enterable hn hlt)
  have hcost : (t.nodes k).f + MAP_NORMALWALKCOST ≤ (t.nodes n).f := by
    have hge := stepCost_ge (q := q) (q.position (t.nodes k)) (q.position (t.nodes n))
    omega
  have hz : p.z = q.startPos.z := hadjacent.2.1.symm
  rcases behind_cases hdiagonal hstep.symm.offset hadjacent.offset hbehind with ⟨hx, hy⟩ | hnear
  · have hposition : q.position (t.nodes k) = p := by
      obtain ⟨x, y, z⟩ := p
      simp only [position, MapPosition.mk.injEq]
      dsimp only [position] at hx hy hz
      exact ⟨UInt16.toNat_inj.mp (by omega), UInt16.toNat_inj.mp (by omega), hz.symm⟩
    exact ⟨k, hklt, hposition, by omega⟩
  · have hstraight : (q.position (t.nodes k)).Adjacent p ∧
        AStarNodes.getMapWalkCost ⟨none, 0, (t.nodes k).x, (t.nodes k).y⟩ p =
          MAP_NORMALWALKCOST := by
      dsimp only [position] at hnear
      refine ⟨⟨?_, hz.symm, ?_, ?_⟩, if_neg ?_⟩
      · rintro rfl
        simp only [position] at hnear
        omega
      · simp only [MapPosition.getDistanceX, position]
        omega
      · simp only [MapPosition.getDistanceY, position]
        omega
      · dsimp only
        omega
    have hkn : k ≠ n := by
      have hpos : 0 < MAP_NORMALWALKCOST := by decide
      rintro rfl
      omega
    obtain ⟨j, hj, hposition, hle⟩ := h.covered hdone hkn hstraight.1 henter
    refine ⟨j, hj, hposition, hle.trans ?_⟩
    have hge := stepCost_ge (q := q) (q.position (t.nodes n)) p
    rw [stepCost]
    change (t.nodes k).f +
      (AStarNodes.getMapWalkCost ⟨none, 0, (t.nodes k).x, (t.nodes k).y⟩ p + _) ≤ _
    rw [hstraight.2]
    omega

theorem Expanding.close {n : Nat} {done : Nat → Prop} (h : Expanding q n done t)
    (hcovered : ∀ p, (q.position (t.nodes n)).Adjacent p → q.Enterable p → q.Covers t n p)
    (hunmatched : ∀ i, done i → ¬q.Matches (q.position (t.nodes i))) :
    Frontier q (t.closeNode n) := by
  have hclosed {i : Nat} (hi : i < t.curNode) : (t.closeNode n).openNodes i = false ↔ done i := by
    simp only [AStarNodes.closeNode, Function.update_apply]
    split_ifs with hin
    · exact ⟨fun _ => hin ▸ h.done_self, fun _ => rfl⟩
    · rw [← Bool.not_eq_true, h.open_iff hi hin, not_not]
  refine ⟨h.nodes.of_eq rfl rfl rfl, fun {i j} hi hj hdone hopen => ?_, fun hi hlt => ?_,
    fun {i p} hi hdone hadjacent henter => ?_, fun hi hdone => ?_⟩
  · have hnot : ¬done j := by
      rw [← hclosed hj, hopen]
      decide
    exact (h.low ((hclosed hi).mp hdone)).trans (h.high hj hnot)
  · obtain ⟨k, hparent, hdone, hf⟩ := h.parent hi hlt
    exact ⟨k, h.done_lt hdone, hparent, (hclosed (h.done_lt hdone)).mpr hdone, hf⟩
  · by_cases hin : i = n
    · subst hin
      exact hcovered p hadjacent henter
    · exact h.covered ((hclosed hi).mp hdone) hin hadjacent henter
  · exact hunmatched _ ((hclosed hi).mp hdone)

/-- What the search keeps until it finishes. -/
structure Seeking (q : PathQuery) (s : PathSearch) : Prop where
  frontier : Frontier q s.nodes
  found : s.found = none
  bestMatch : s.bestMatch = 0

section

variable {s s' : PathSearch}

theorem Seeking.expand (h : Seeking q s) (htiles : TilesAgree q.walker) (hseam : q.NoSeam)
    (hkeep : q.fpp.keepDistance = false) (hdiagonal : q.fpp.allowDiagonal = true) {n : Nat}
    (hbest : s.nodes.getBestNode = some n)
    (hunmatched : ¬q.Matches (q.position (s.nodes.nodes n)))
    (hs' : q.expand s n = .running s') : Seeking q s' := by
  have hexpanding := h.frontier.expanding hbest
  simp only [PathQuery.expand] at hs'
  generalize hresult : q.visitNeighbors n (s.nodes.nodes n) (neighbors q.fpp (s.nodes.nodes n)
    ((s.nodes.nodes n).parent.map s.nodes.nodes)) s.nodes = result at hs'
  obtain ⟨t', full⟩ := result
  split_ifs at hs' with hfull
  cases hs'
  have hnotfull : full = false := by
    rw [h.found] at hfull
    simpa using hfull
  subst hnotfull
  obtain ⟨hafter, hlowers, hcovers⟩ := hexpanding.visitNeighbors htiles hkeep rfl
    (fun o ho => mem_allNeighbors_of_mem_neighbors ho) hresult
  have hsame := hlowers.same hexpanding.done_self
  refine ⟨hafter.close ?_ ?_, h.found, h.bestMatch⟩
  · intro p hadjacent henter
    by_cases hlooked : ((p.x.toNat : Int) - (t'.nodes n).x.toNat,
        (p.y.toNat : Int) - (t'.nodes n).y.toNat) ∈ neighbors q.fpp (s.nodes.nodes n)
          ((s.nodes.nodes n).parent.map s.nodes.nodes)
    · have hshift := hadjacent.eq_shift
      rw [hsame] at hlooked hshift
      have hcovered : q.Enterable ((q.position (s.nodes.nodes n)).shift
            ((p.x.toNat : Int) - (q.position (s.nodes.nodes n)).x.toNat,
              (p.y.toNat : Int) - (q.position (s.nodes.nodes n)).y.toNat)) →
          q.Covers t' n ((q.position (s.nodes.nodes n)).shift
            ((p.x.toNat : Int) - (q.position (s.nodes.nodes n)).x.toNat,
              (p.y.toNat : Int) - (q.position (s.nodes.nodes n)).y.toNat)) := hcovers _ hlooked
      rw [← hshift] at hcovered
      exact hcovered henter
    · by_cases hn : n = 0
      · subst hn
        refine absurd ?_ hlooked
        rw [h.frontier.nodes.root]
        exact hadjacent.offset
      · obtain ⟨k, hparent, hdone, -⟩ := hafter.parent hn (hafter.done_lt hafter.done_self)
        refine hafter.covers_behind hseam hdiagonal hn hparent hadjacent henter ?_
        rwa [← hsame, hparent, Option.map_some, ← hlowers.same hdone] at hlooked
  · rintro i (rfl | hi)
    · rw [hsame]
      exact hunmatched
    · rw [hlowers.same (.inr hi)]
      exact h.frontier.unmatched hi.1 hi.2

/-- A round goes on seeking, or finishes on a best node that matches. -/
theorem Seeking.round (h : Seeking q s) (htiles : TilesAgree q.walker) (hseam : q.NoSeam)
    (hkeep : q.fpp.keepDistance = false) (hdiagonal : q.fpp.allowDiagonal = true)
    (hstops : q.StopsAtMatch) :
    (∀ s', q.round s = .running s' → Seeking q s') ∧
    (∀ s', q.round s = .finished s' → s'.found = none ∨ ∃ n, s'.found = some n ∧
      s.nodes.getBestNode = some n ∧ q.Matches (q.position (s.nodes.nodes n)) ∧
      s'.nodes = s.nodes ∧ s'.endPos = q.position (s.nodes.nodes n)) := by
  by_cases hgo : q.fpp.maxSearchDist ≠ 0 ∨ s.nodes.closedNodes < 100
  · cases hbest : s.nodes.getBestNode with
    | none =>
      have hround : q.round s = .failed := by
        simp only [PathQuery.round, hgo, hbest, h.found]
        rfl
      rw [hround]
      refine ⟨fun s' hs' => ?_, fun s' hs' => ?_⟩
      · cases hs'
      · cases hs'
    | some n =>
      cases hcond : q.fpp.pathCondition q.walker q.targetPos q.startPos
        (q.position (s.nodes.nodes n)) s.bestMatch with
      | mk holds bestMatch =>
      rw [h.bestMatch] at hcond
      cases holds with
      | true =>
        have hmatches : q.Matches (q.position (s.nodes.nodes n)) := by rw [Matches, hcond]
        have hzero : bestMatch = 0 := by
          have hstop := hstops _ hmatches
          rwa [hcond] at hstop
        have hround : q.round s = .finished { s with
            found := some n, endPos := q.position (s.nodes.nodes n), bestMatch := bestMatch } := by
          simp only [PathQuery.round, hgo, hbest, h.bestMatch, hcond, hzero]
          rfl
        rw [hround]
        refine ⟨fun s' hs' => ?_, fun s' hs' => .inr ⟨n, ?_⟩⟩
        · cases hs'
        · cases hs'
          exact ⟨rfl, rfl, hmatches, rfl, rfl⟩
      | false =>
        have hunmatched : ¬q.Matches (q.position (s.nodes.nodes n)) := by
          rw [Matches, hcond]
          exact Bool.false_ne_true
        have hzero : bestMatch = 0 := by
          have hsnd := pathCondition_snd (congrArg Prod.fst hcond)
          rwa [hcond] at hsnd
        have hround : q.round s = q.expand { s with bestMatch := bestMatch } n := by
          simp only [PathQuery.round, hgo, hbest, h.bestMatch, hcond]
          rfl
        rw [hround]
        have hs : Seeking q { s with bestMatch := bestMatch } := ⟨h.frontier, h.found, hzero⟩
        exact ⟨fun s' hs' => hs.expand htiles hseam hkeep hdiagonal hbest hunmatched hs',
          fun s' hs' => absurd hs' expand_ne_finished⟩
  · have hround : q.round s = .finished s := by
      simp only [PathQuery.round, hgo]
      rfl
    rw [hround]
    refine ⟨fun s' hs' => ?_, fun s' hs' => .inl ?_⟩
    · cases hs'
    · cases hs'
      exact h.found

end

/-! ### The result -/

/-- Along a walk from a node either all positions have closed nodes that are no dearer, or some
node still open is no dearer than the whole walk. -/
theorem Frontier.walk (h : Frontier q t) (ds : List Direction) {i : Nat} (hi : i < t.curNode)
    {endPos : MapPosition}
    (hwalk : MapPosition.WalksTo q.Enterable (q.position (t.nodes i)) ds endPos) :
    (∃ j < t.curNode, t.openNodes j = false ∧ q.position (t.nodes j) = endPos) ∨
    ∃ j < t.curNode, t.openNodes j = true ∧
      (t.nodes j).f ≤ (t.nodes i).f + q.walkCost (q.position (t.nodes i)) ds := by
  cases hopen : t.openNodes i with
  | true => exact .inr ⟨i, hi, hopen, Nat.le_add_right _ _⟩
  | false =>
    induction ds generalizing i with
    | nil => exact .inl ⟨i, hi, hopen, hwalk⟩
    | cons d ds ih =>
      obtain ⟨hadjacent, henter, hrest⟩ := hwalk
      obtain ⟨j, hj, hposition, hle⟩ := h.covered hi hopen hadjacent henter
      rw [walkCost_cons ds hadjacent]
      rw [← hposition] at hrest
      cases hopenj : t.openNodes j with
      | true => exact .inr ⟨j, hj, hopenj, by omega⟩
      | false =>
        rcases ih hj hrest hopenj with hend | ⟨k, hk, hopenk, hlek⟩
        · exact .inl hend
        · rw [hposition] at hlek
          exact .inr ⟨k, hk, hopenk, by omega⟩

theorem Frontier.collect (h : Frontier q t) (hseam : q.NoSeam) {fuel i : Nat}
    (hi : i < t.curNode) {dirList result : List Direction}
    (hresult : collectDirections t fuel (t.nodes i).parent (t.nodes i).x (t.nodes i).y dirList =
      some result) :
    ∃ ds, result = dirList ++ ds ∧
      MapPosition.WalksTo q.Enterable q.startPos ds.reverse (q.position (t.nodes i)) ∧
      q.walkCost q.startPos ds.reverse = (t.nodes i).f := by
  induction fuel generalizing i dirList with
  | zero => cases hresult
  | succ fuel ih =>
    by_cases hi0 : i = 0
    · subst hi0
      rw [h.nodes.root] at hresult ⊢
      cases hresult
      exact ⟨[], (List.append_nil _).symm, rfl, rfl⟩
    · obtain ⟨j, hj, hparent, -, hf⟩ := h.parent hi0 hi
      obtain ⟨j', hparent', -, -, hbeside⟩ := h.nodes.parent hi0 hi
      obtain rfl := Option.some.inj (hparent.symm.trans hparent')
      have hstart : q.position (t.nodes j) = q.startPos ∨
          q.Enterable (q.position (t.nodes j)) := by
        by_cases hj0 : j = 0
        · exact .inl (by rw [hj0, h.nodes.root]; rfl)
        · exact .inr (h.nodes.enterable hj0 hj)
      have henter := h.nodes.enterable hi0 hi
      have hadjacent := hseam _ _ hbeside hstart henter
      obtain ⟨d, hd, hnext⟩ := hadjacent.stepDirection
      simp only [position] at hd
      simp only [hparent, collectDirections, hd, Option.toList_some] at hresult
      obtain ⟨ds, hds, hwalk, hcost⟩ := ih hj hresult
      refine ⟨d :: ds, ?_, ?_, ?_⟩
      · rw [hds, List.append_assoc]
        rfl
      · rw [List.reverse_cons]
        exact hwalk.append hnext hadjacent henter
      · rw [List.reverse_cons, walkCost_append _ _ hwalk,
          walkCost_cons [] (by rw [hnext]; exact hadjacent), hnext, hcost, hf]
        rfl

/-- The directions lead to a match, over positions to enter, and no such way is cheaper. -/
def Cheapest (q : PathQuery) (dirList : List Direction) : Prop :=
  ∃ endPos, MapPosition.WalksTo q.Enterable q.startPos dirList.reverse endPos ∧
    q.Matches endPos ∧ ∀ ds endPos', MapPosition.WalksTo q.Enterable q.startPos ds endPos' →
      q.Matches endPos' → q.walkCost q.startPos dirList.reverse ≤ q.walkCost q.startPos ds

theorem Seeking.cheapest {s s' : PathSearch} (h : Seeking q s) (htiles : TilesAgree q.walker)
    (hseam : q.NoSeam) (hkeep : q.fpp.keepDistance = false)
    (hdiagonal : q.fpp.allowDiagonal = true) (hstops : q.StopsAtMatch) {fuel fuel' : Nat}
    (hs' : q.searchLoop fuel s = some (some s')) {found : Nat} (hfound : s'.found = some found)
    {dirList : List Direction}
    (hresult : collectDirections s'.nodes fuel' (s'.nodes.nodes found).parent s'.endPos.x
      s'.endPos.y [] = some dirList) : q.Cheapest dirList := by
  induction fuel generalizing s with
  | zero => cases hs'
  | succ fuel ih =>
    rw [searchLoop] at hs'
    obtain ⟨hrunning, hfinished⟩ := h.round htiles hseam hkeep hdiagonal hstops
    cases hround : q.round s with
    | running s₁ =>
      simp only [hround] at hs'
      exact ih (hrunning s₁ hround) hs'
    | failed => simp [hround] at hs'
    | finished s₁ =>
      simp only [hround, Option.some.injEq] at hs'
      subst hs'
      obtain hnone | ⟨n, hn, hbest, hmatches, hnodes, hend⟩ := hfinished s₁ hround
      · rw [hnone] at hfound
        cases hfound
      obtain rfl := Option.some.inj (hn.symm.trans hfound)
      rw [hnodes, hend] at hresult
      obtain ⟨hlt, -⟩ := AStarNodes.getBestNode_spec hbest
      obtain ⟨ds, hds, hwalk, hcost⟩ := h.frontier.collect hseam hlt hresult
      rw [List.nil_append] at hds
      subst hds
      refine ⟨_, hwalk, hmatches, fun ds' endPos' hwalk' hmatches' => ?_⟩
      have hroot : q.position (s.nodes.nodes 0) = q.startPos := by
        rw [h.frontier.nodes.root]
        rfl
      rw [← hroot] at hwalk'
      obtain ⟨j, hj, hclosed, hposition⟩ | ⟨j, hj, hopen, hle⟩ :=
        h.frontier.walk ds' h.frontier.nodes.pos hwalk'
      · rw [← hposition] at hmatches'
        exact absurd hmatches' (h.frontier.unmatched hj hclosed)
      · have hzero : (s.nodes.nodes 0).f = 0 := by rw [h.frontier.nodes.root]
        rw [hroot, hzero, Nat.zero_add] at hle
        rw [hcost]
        exact (getBestNode_le hbest hj hopen).trans hle

theorem getPathMatching_cheapest (htiles : TilesAgree q.walker)
    (hdiagonal : q.fpp.allowDiagonal = true) (hkeep : q.fpp.keepDistance = false)
    (hstops : q.StopsAtMatch) (hseam : q.NoSeam) {fuel : Nat} {dirList : List Direction}
    (h : q.getPathMatching fuel [] = some (true, dirList)) : q.Cheapest dirList := by
  have hseeking : Seeking q q.init := ⟨frontier_init, rfl, rfl⟩
  simp only [getPathMatching] at h
  split at h
  · cases h
  · cases h
  next s hsearch =>
    split at h
    · cases h
    next i hfound =>
      split at h
      · cases h
      next dirs hcollect =>
        cases h
        exact hseeking.cheapest htiles hseam hkeep hdiagonal hstops hsearch hfound hcollect

end PathQuery

/-! ### Maps -/

/-- The tiles of a floor and where a creature can walk. -/
structure WalkMap where
  getTile : MapPosition → Option TileRef
  canWalkTo : MapPosition → Option TileRef
  isSightClear : MapPosition → MapPosition → Bool
  agrees : ∀ pos tile, canWalkTo pos = some tile → getTile pos = some tile
  distinct : ∀ pos pos' tile, getTile pos = some tile → getTile pos' = some tile → pos = pos'

namespace WalkMap

/-- The map of a creature with this cache. -/
def ofCreature (c : WalkCache) (getTile : MapPosition → Option TileRef)
    (queryAdd : TileRef → Bool) (isSightClear : MapPosition → MapPosition → Bool)
    (hdistinct : ∀ pos pos' tile, getTile pos = some tile → getTile pos' = some tile →
      pos = pos') : WalkMap where
  getTile := getTile
  canWalkTo := Eloth.canWalkTo c getTile queryAdd
  isSightClear := isSightClear
  agrees := PathQuery.tilesAgree_ofCreature c getTile queryAdd (fun _ => false) (fun _ => false)
    isSightClear
  distinct := hdistinct

variable (T : WalkMap)

/-- The walker that also meets creatures and fields on the tiles. -/
def walker (getTopVisibleCreature avoidsField : TileRef → Bool) : Walker :=
  ⟨T.getTile, T.canWalkTo, getTopVisibleCreature, avoidsField, T.isSightClear⟩

/-- No two walkable positions are neighbours across the end of the coordinates only. -/
def NoSeam : Prop :=
  ∀ p p', p.Neighbour p' → (T.canWalkTo p).isSome → (T.canWalkTo p').isSome → p.Adjacent p'

/-- Every search with diagonal steps and without a distance to keep, which stops at the first
match, returns a cheapest path. -/
def FindsCheapest : Prop :=
  ∀ getTopVisibleCreature avoidsField fpp startPos targetPos fuel dirList,
    let q : PathQuery := ⟨T.walker getTopVisibleCreature avoidsField, fpp, startPos, targetPos⟩
    (T.canWalkTo startPos).isSome → fpp.allowDiagonal = true → fpp.keepDistance = false →
      q.StopsAtMatch → q.getPathMatching fuel [] = some (true, dirList) → q.Cheapest dirList

/-! ### Across the end of the coordinates -/

/-- The search for a place, with fields on all other tiles. -/
def seamSearch (p p' : MapPosition) : PathQuery where
  walker := T.walker (fun _ => false) fun tile => decide (T.getTile p' ≠ some tile)
  fpp := { clearSight := false, maxSearchDist := 0xFFFF, maxTargetDist := 0 }
  startPos := p
  targetPos := p'

variable {T} {p p' : MapPosition}

theorem pathCondition_seamSearch (T : WalkMap) (p p' startPos pos : MapPosition) :
    (T.seamSearch p p').fpp.pathCondition (T.seamSearch p p').walker p' startPos pos 0 =
      (decide (pos.x = p'.x ∧ pos.y = p'.y), 0) := by
  have hrange : (T.seamSearch p p').fpp.isInRange p' startPos pos = true ↔
      pos.x = p'.x ∧ pos.y = p'.y := by
    simp [seamSearch, FindPathParams.isInRange, ← UInt16.toNat_inj]
    omega
  rw [FindPathParams.pathCondition]
  by_cases hsame : pos.x = p'.x ∧ pos.y = p'.y
  · rw [hrange.mpr hsame, decide_eq_true hsame]
    simp [seamSearch, MapPosition.getDistanceX, MapPosition.getDistanceY, hsame.1, hsame.2]
  · rw [Bool.not_eq_true _ |>.mp (mt hrange.mp hsame), decide_eq_false hsame]
    rfl

theorem inSearchDist_seamSearch (pos : MapPosition) : (T.seamSearch p p').InSearchDist pos := by
  intro _
  have hx := p.x.toNat_lt
  have hy := p.y.toNat_lt
  have hx' := pos.x.toNat_lt
  have hy' := pos.y.toNat_lt
  simp only [seamSearch, MapPosition.getDistanceX, MapPosition.getDistanceY]
  omega

theorem visitNeighbors_fits (q : PathQuery) {n : Nat} {node : AStarNode}
    (offsets : List (Int × Int)) {t : AStarNodes}
    (h : t.curNode + offsets.length ≤ MAX_NODES) :
    (q.visitNeighbors n node offsets t).2 = false := by
  induction offsets generalizing t with
  | nil => rfl
  | cons offset offsets ih =>
    rw [List.length_cons] at h
    have hvisit : ∃ t', q.visitNeighbor t n node offset = some t' ∧
        t'.curNode ≤ t.curNode + 1 := by
      rw [PathQuery.visitNeighbor]
      dsimp only
      split_ifs
      · exact ⟨t, rfl, by omega⟩
      · split
        · split_ifs
          · exact ⟨t, rfl, by omega⟩
          · refine ⟨_, rfl, ?_⟩
            rw [AStarNodes.openNode_curNode]
            exact Nat.le_succ _
        · split
          · exact ⟨t, rfl, by omega⟩
          · rw [AStarNodes.createOpenNode, if_neg (by omega)]
            exact ⟨_, rfl, le_rfl⟩
    obtain ⟨t', ht', hcur⟩ := hvisit
    rw [PathQuery.visitNeighbors, ht']
    exact ih (by omega)

theorem stepCost_seamSearch_le : (T.seamSearch p p').stepCost p p' ≤ MAP_DIAGONALWALKCOST := by
  have htile : AStarNodes.getTileWalkCost (T.seamSearch p p').walker (T.getTile p') = 0 := by
    cases htile : T.getTile p' with
    | none => rfl
    | some tile => simp [AStarNodes.getTileWalkCost, seamSearch, walker, htile]
  rw [PathQuery.stepCost]
  change _ + AStarNodes.getTileWalkCost (T.seamSearch p p').walker (T.getTile p') ≤ _
  rw [htile, AStarNodes.getMapWalkCost]
  split_ifs <;> decide

theorem stepCost_seamSearch_ge {pos : MapPosition} (hwalk : (T.canWalkTo pos).isSome)
    (hne : pos ≠ p') : MAP_NORMALWALKCOST * 18 ≤ (T.seamSearch p p').stepCost p pos := by
  obtain ⟨tile, htile⟩ := Option.isSome_iff_exists.mp hwalk
  have hthere := T.agrees pos tile htile
  have hother : T.getTile p' ≠ some tile := fun heq => hne (T.distinct _ _ _ hthere heq)
  rw [PathQuery.stepCost]
  change _ ≤ _ + AStarNodes.getTileWalkCost (T.seamSearch p p').walker (T.getTile pos)
  rw [hthere, AStarNodes.getTileWalkCost]
  simp [seamSearch, walker, hother]

/-- The first round opens a node at the place, and all other nodes are dearer. -/
theorem round_init_seamSearch (hbeside : p.Neighbour p') (hne : ¬(p.x = p'.x ∧ p.y = p'.y))
    (hwalk : (T.canWalkTo p').isSome) :
    ∃ t n, (T.seamSearch p p').round (T.seamSearch p p').init =
        .running { (T.seamSearch p p').init with nodes := t } ∧
      t.getBestNode = some n ∧ (T.seamSearch p p').position (t.nodes n) = p' ∧
      (t.nodes n).parent = some 0 ∧ t.nodes 0 = ⟨none, 0, p.x, p.y⟩ := by
  have hbest : (T.seamSearch p p').init.nodes.getBestNode = some 0 := by
    simp [PathQuery.init, AStarNodes.getBestNode, AStarNodes.init]
  have hroot : (T.seamSearch p p').init.nodes.nodes 0 = ⟨none, 0, p.x, p.y⟩ := by
    simp [PathQuery.init, AStarNodes.init, seamSearch]
  have hpp' : p' ≠ p := by
    rintro rfl
    exact hne ⟨rfl, rfl⟩
  generalize hresult : (T.seamSearch p p').visitNeighbors 0 ⟨none, 0, p.x, p.y⟩ allNeighbors
    (T.seamSearch p p').init.nodes = result
  have hfits : result.2 = false := by
    rw [← hresult]
    exact visitNeighbors_fits _ _ (show 1 + 8 ≤ 512 by decide)
  obtain ⟨t, full⟩ := result
  obtain rfl : full = false := hfits
  have hexpanding := PathQuery.frontier_init.expanding hbest
  have hdone {i : Nat} : PathQuery.Done (T.seamSearch p p').init.nodes 0 i ↔ i = 0 := by
    refine ⟨?_, .inl⟩
    rintro (rfl | ⟨hi, -⟩)
    · rfl
    · exact Nat.lt_one_iff.mp hi
  obtain ⟨hafter, hlowers, hcovers⟩ := hexpanding.visitNeighbors
    (q := T.seamSearch p p') T.agrees rfl hroot (fun o ho => ho) hresult
  have hroot' : t.nodes 0 = ⟨none, 0, p.x, p.y⟩ := (hlowers.same (hdone.mpr rfl)).trans hroot
  have hstart : (T.seamSearch p p').position (t.nodes 0) = p := by
    rw [hroot']
    rfl
  have hcost {i : Nat} (hi : i ≠ 0) (hlt : i < t.curNode) :
      (t.nodes i).parent = some 0 ∧ (t.nodes i).f =
        (T.seamSearch p p').stepCost p ((T.seamSearch p p').position (t.nodes i)) := by
    obtain ⟨k, hk, hkdone, hf⟩ := hafter.parent hi hlt
    obtain rfl := hdone.mp hkdone
    rw [hstart] at hf
    rw [hroot', Nat.zero_add] at hf
    exact ⟨hk, hf⟩
  obtain ⟨j, hj, hposition, hle⟩ : (T.seamSearch p p').Covers t 0 p' := by
    obtain ⟨o, ho, rfl⟩ := hbeside
    exact hcovers o ho ⟨hwalk, inSearchDist_seamSearch _⟩
  rw [hstart] at hle
  rw [hroot', Nat.zero_add] at hle
  have hj0 : j ≠ 0 := by
    rintro rfl
    exact hpp' (hposition.symm.trans hstart)
  have hopen {i : Nat} (hi : i ≠ 0) : (t.closeNode 0).openNodes i = t.openNodes i :=
    Function.update_of_ne hi _ _
  have hjopen : (t.closeNode 0).openNodes j = true := by
    rw [hopen hj0, hafter.open_iff hj hj0, hdone]
    exact hj0
  have hround : (T.seamSearch p p').round (T.seamSearch p p').init =
      .running { (T.seamSearch p p').init with nodes := t.closeNode 0 } := by
    have hcond : (T.seamSearch p p').fpp.pathCondition (T.seamSearch p p').walker
        (T.seamSearch p p').targetPos (T.seamSearch p p').startPos
        ((T.seamSearch p p').position ⟨none, 0, p.x, p.y⟩)
        (T.seamSearch p p').init.bestMatch = (false, 0) := by
      refine (pathCondition_seamSearch T p p' p p).trans ?_
      rw [decide_eq_false hne]
    have hgo : (T.seamSearch p p').fpp.maxSearchDist ≠ 0 ∨
        (T.seamSearch p p').init.nodes.closedNodes < 100 := .inr (show (0 : Int) < 100 by decide)
    have hvisit : (T.seamSearch p p').visitNeighbors 0 ⟨none, 0, p.x, p.y⟩
        (neighbors (T.seamSearch p p').fpp ⟨none, 0, p.x, p.y⟩ none)
        (T.seamSearch p p').init.nodes = (t, false) := hresult
    simp only [PathQuery.round, hgo, not_true_eq_false, if_false, hbest, hroot, hcond,
      PathQuery.expand, Option.map_none, hvisit, Bool.false_eq_true, false_and]
    rfl
  refine ⟨t.closeNode 0, ?_⟩
  rcases PathQuery.getBestNode_cases (t.closeNode 0) with ⟨-, hall⟩ | ⟨n, hn, hall⟩
  · have hfar := (hall j hj hjopen).trans (hle.trans stepCost_seamSearch_le)
    exact absurd hfar (by decide)
  · have hn' := AStarNodes.getBestNode_spec hn
    have hn0 : n ≠ 0 := by
      rintro rfl
      exact absurd hn'.2 (by simp [AStarNodes.closeNode])
    obtain ⟨hparent, hf⟩ := hcost hn0 hn'.1
    refine ⟨n, hround, hn, ?_, hparent, hroot'⟩
    by_contra hother
    have hge := stepCost_seamSearch_ge (p := p) (hafter.nodes.enterable hn0 hn'.1).1 hother
    have hchain := (hge.trans hf.ge).trans ((hall j hj hjopen).trans
      (hle.trans stepCost_seamSearch_le))
    exact absurd hchain (by decide)

theorem getPathMatching_seamSearch (hbeside : p.Neighbour p') (hne : ¬(p.x = p'.x ∧ p.y = p'.y))
    (hwalk : (T.canWalkTo p').isSome) :
    (T.seamSearch p p').getPathMatching 2 [] =
      some (true, (PathQuery.stepDirection ((p.x.toNat : Int) - p'.x.toNat)
        ((p.y.toNat : Int) - p'.y.toNat)).toList) := by
  obtain ⟨t, n, hround, hbest, hposition, hparent, hroot⟩ := round_init_seamSearch hbeside hne hwalk
  have hgo : (T.seamSearch p p').fpp.maxSearchDist ≠ 0 ∨ t.closedNodes < 100 :=
    .inl (show (0xFFFF : Int) ≠ 0 by decide)
  have hcond : (T.seamSearch p p').fpp.pathCondition (T.seamSearch p p').walker
      (T.seamSearch p p').targetPos (T.seamSearch p p').startPos p'
      (T.seamSearch p p').init.bestMatch = (true, 0) := by
    refine (pathCondition_seamSearch T p p' p p').trans ?_
    rw [decide_eq_true ⟨rfl, rfl⟩]
  have hfinish : (T.seamSearch p p').round { (T.seamSearch p p').init with nodes := t } =
      .finished ⟨t, some n, p', 0⟩ := by
    simp only [PathQuery.round, hgo, not_true_eq_false, if_false, hbest, hposition, hcond, if_true]
  have hsearch : (T.seamSearch p p').searchLoop 2 (T.seamSearch p p').init =
      some (some ⟨t, some n, p', 0⟩) := by
    simp only [PathQuery.searchLoop, hround, hfinish]
  simp only [PathQuery.getPathMatching, hsearch, hparent, PathQuery.collectDirections, hroot,
    List.nil_append]

/-- Searches find cheapest paths, whatever stands on the tiles, exactly on maps without a
seam. -/
theorem findsCheapest_iff_noSeam (T : WalkMap) : T.FindsCheapest ↔ T.NoSeam := by
  constructor
  · intro hfinds p p' hbeside hp hp'
    by_contra hseam
    have hne : ¬(p.x = p'.x ∧ p.y = p'.y) := PathQuery.ne_of_neighbour hbeside
    have hstops : (T.seamSearch p p').StopsAtMatch := by
      intro pos _
      exact congrArg Prod.snd (pathCondition_seamSearch T p p' p pos)
    obtain ⟨endPos, hwalk, hmatches, -⟩ := hfinds _ _ _ _ _ _ _ hp rfl rfl hstops
      (getPathMatching_seamSearch hbeside hne hp')
    have hreverse (d : Option Direction) : d.toList.reverse = d.toList := by cases d <;> rfl
    rw [hreverse] at hwalk
    refine PathQuery.not_walksTo_of_seam hbeside hseam hne hwalk ?_
    have hcond := congrArg Prod.fst (pathCondition_seamSearch T p p' p endPos)
    exact of_decide_eq_true (hcond.symm.trans hmatches)
  · intro hseam getTopVisibleCreature avoidsField fpp startPos targetPos fuel dirList q hstart
      hdiagonal hkeep hstops h
    refine PathQuery.getPathMatching_cheapest (q := q) T.agrees hdiagonal hkeep hstops ?_ h
    intro p p' hbeside hp hp'
    refine hseam p p' hbeside ?_ hp'.1
    rcases hp with rfl | hp
    · exact hstart
    · exact hp.1

/-- Walkable tiles at both ends of a row. -/
def edge : WalkMap where
  getTile := PathQuery.edgeWalker.getTile
  canWalkTo := PathQuery.edgeWalker.canWalkTo
  isSightClear _ _ := true
  agrees _ _ h := h
  distinct pos pos' tile h h' := by
    simp only [PathQuery.edgeWalker] at h h'
    split_ifs at h h' with h₁ h₂ h₃ h₄ <;> cases h <;> simp_all

/-- The search from one end to the other succeeds with no directions. -/
theorem not_findsCheapest_edge : ¬edge.FindsCheapest := by
  intro hfinds
  have hstops (pos : MapPosition) :
      (FindPathParams.pathCondition { minTargetDist := 0, maxTargetDist := 1 }
        (edge.walker (fun _ => false) fun _ => false) ⟨0xFFFF, 100, 7⟩ ⟨0, 100, 7⟩ pos 0).2 =
        0 := by
    simp only [FindPathParams.pathCondition]
    split_ifs <;> rfl
  obtain ⟨endPos, hwalk, hmatches, -⟩ := hfinds (fun _ => false) (fun _ => false)
    { minTargetDist := 0, maxTargetDist := 1 } ⟨0, 100, 7⟩ ⟨0xFFFF, 100, 7⟩ 3 [] (by decide) rfl
    rfl (fun pos _ => hstops pos) (by decide)
  cases hwalk
  exact Bool.false_ne_true hmatches

end WalkMap

end Eloth
