import Eloth.PathSearch

/-!
# What the path search returns

The search always ends. Its directions lead over walkable tiles to a place that meets the
condition, unless two walkable tiles lie beside each other across the end of the coordinates: a
step between them is read back as no direction or a wrong one.
-/

namespace Eloth

namespace MapPosition

def Adjacent (p p' : MapPosition) : Prop :=
  p ≠ p' ∧ p.z = p'.z ∧ p.getDistanceX p' ≤ 1 ∧ p.getDistanceY p' ≤ 1

/-- The way of a creature that takes the directions one by one. -/
def WalksTo (ok : MapPosition → Prop) : MapPosition → List Direction → MapPosition → Prop
  | p, [], endPos => p = endPos
  | p, d :: ds, endPos =>
    p.Adjacent (getNextPosition d p) ∧ ok (getNextPosition d p) ∧
      WalksTo ok (getNextPosition d p) ds endPos

theorem WalksTo.append {ok : MapPosition → Prop} {p mid : MapPosition} {ds : List Direction}
    (h : WalksTo ok p ds mid) {d : Direction} {endPos : MapPosition}
    (hnext : getNextPosition d mid = endPos) (hbeside : mid.Adjacent endPos) (hok : ok endPos) :
    WalksTo ok p (ds ++ [d]) endPos := by
  induction ds generalizing p with
  | nil =>
    cases h
    simp only [List.nil_append, WalksTo, hnext]
    exact ⟨hbeside, hok, trivial⟩
  | cons d' ds ih => exact ⟨h.1, h.2.1, ih h.2.2⟩

theorem sub_one_eq {a b : UInt16} (h : (a.toNat : Int) - b.toNat = 1) : a - 1 = b := by
  have ha := a.toNat_lt
  apply UInt16.toNat_inj.mp
  simp only [UInt16.toNat_sub, UInt16.reduceToNat]
  omega

theorem add_one_eq {a b : UInt16} (h : (a.toNat : Int) - b.toNat = -1) : a + 1 = b := by
  have hb := b.toNat_lt
  apply UInt16.toNat_inj.mp
  simp only [UInt16.toNat_add, UInt16.reduceToNat]
  omega

theorem Adjacent.stepDirection {p p' : MapPosition} (h : p.Adjacent p') :
    ∃ d, PathQuery.stepDirection ((p.x.toNat : Int) - p'.x.toNat)
      ((p.y.toNat : Int) - p'.y.toNat) = some d ∧ getNextPosition d p = p' := by
  obtain ⟨hne, hz, hx, hy⟩ := h
  simp only [getDistanceX, getDistanceY] at hx hy
  have hxs : (p.x.toNat : Int) - p'.x.toNat = 0 ∨ (p.x.toNat : Int) - p'.x.toNat = 1 ∨
    (p.x.toNat : Int) - p'.x.toNat = -1 := by omega
  have hys : (p.y.toNat : Int) - p'.y.toNat = 0 ∨ (p.y.toNat : Int) - p'.y.toNat = 1 ∨
    (p.y.toNat : Int) - p'.y.toNat = -1 := by omega
  have hext (p₁ : MapPosition) (h₁ : p₁.x = p'.x) (h₂ : p₁.y = p'.y) (h₃ : p₁.z = p.z) :
      p₁ = p' := by
    cases p₁
    cases p'
    simp_all
  have heq (a b : UInt16) (hab : (a.toNat : Int) - b.toNat = 0) : a = b :=
    UInt16.toNat_inj.mp (by omega)
  rcases hxs with hx | hx | hx <;> rcases hys with hy | hy | hy <;>
    simp only [PathQuery.stepDirection, hx, hy]
  · exact absurd (hext p (heq _ _ hx) (heq _ _ hy) rfl) hne
  · exact ⟨.north, rfl, hext _ (heq _ _ hx) (sub_one_eq hy) rfl⟩
  · exact ⟨.south, rfl, hext _ (heq _ _ hx) (add_one_eq hy) rfl⟩
  · exact ⟨.west, rfl, hext _ (sub_one_eq hx) (heq _ _ hy) rfl⟩
  · exact ⟨.northwest, rfl, hext _ (sub_one_eq hx) (sub_one_eq hy) rfl⟩
  · exact ⟨.southwest, rfl, hext _ (sub_one_eq hx) (add_one_eq hy) rfl⟩
  · exact ⟨.east, rfl, hext _ (add_one_eq hx) (heq _ _ hy) rfl⟩
  · exact ⟨.northeast, rfl, hext _ (add_one_eq hx) (sub_one_eq hy) rfl⟩
  · exact ⟨.southeast, rfl, hext _ (add_one_eq hx) (add_one_eq hy) rfl⟩

end MapPosition

/-- No two walkable positions are neighbours across the end of the coordinates only. -/
def Walker.NoSeam (w : Walker) : Prop :=
  ∀ p p', p.Neighbour p' → (w.canWalkTo p).isSome → (w.canWalkTo p').isSome → p.Adjacent p'

namespace PathQuery

variable {q : PathQuery} {t : AStarNodes}

/-- The states at the head of the outer loop. -/
inductive Reached (q : PathQuery) : PathSearch → Prop
  | init : Reached q q.init
  | round {s s' : PathSearch} (h : Reached q s) (hs' : q.round s = .running s') : Reached q s'

/-- No node is among its own forebears. -/
def Acyclic (t : AStarNodes) : Prop :=
  ∀ i < t.curNode, ¬Relation.TransGen (fun i j => (t.nodes i).parent = some j) i i

/-- The search ends with an acyclic pool, and a path that it finds leads over adjacent positions
that the creature may enter to one that meets the condition. -/
structure MeetsContract (q : PathQuery) : Prop where
  terminates : ∃ fuel result, q.getPathMatching fuel [] = some result
  acyclic : ∀ s, Reached q s → Acyclic s.nodes
  path : ∀ fuel dirList, q.getPathMatching fuel [] = some (true, dirList) →
    ∃ endPos, MapPosition.WalksTo q.Enterable q.startPos dirList.reverse endPos ∧
      ∃ bestMatch,
        (q.fpp.pathCondition q.walker q.targetPos q.startPos endPos bestMatch).1

/-! ### Termination -/

theorem searchLoop_mono {fuel : Nat} {s : PathSearch} {result : Option PathSearch}
    (h : q.searchLoop fuel s = some result) (k : Nat) :
    q.searchLoop (fuel + k) s = some result := by
  induction fuel generalizing s with
  | zero => cases h
  | succ fuel ih =>
    rw [Nat.succ_add, searchLoop]
    rw [searchLoop] at h
    cases hround : q.round s with
    | running s' =>
      simp only [hround] at h
      exact ih h
    | finished s' => simpa only [hround] using h
    | failed => simpa only [hround] using h

theorem collectDirections_mono {fuel : Nat} {found : Option Nat} {prevx prevy : UInt16}
    {dirList result : List Direction}
    (h : collectDirections t fuel found prevx prevy dirList = some result) (k : Nat) :
    collectDirections t (fuel + k) found prevx prevy dirList = some result := by
  induction fuel generalizing found prevx prevy dirList with
  | zero => cases h
  | succ fuel ih =>
    rw [Nat.succ_add]
    cases found with
    | none => exact h
    | some found => exact ih h

theorem NodesInv.parent_lt (h : NodesInv q t) {i j : Nat} (hi : i < t.curNode)
    (hj : (t.nodes i).parent = some j) : j < t.curNode ∧ (t.nodes j).f < (t.nodes i).f := by
  have hi0 : i ≠ 0 := by
    rintro rfl
    rw [h.root] at hj
    cases hj
  obtain ⟨k, hk, hlt, hf, -⟩ := h.parent hi0 hi
  cases hk.symm.trans hj
  exact ⟨hlt, hf⟩

theorem NodesInv.acyclic (h : NodesInv q t) : Acyclic t := by
  intro i hi hcycle
  have hfall {j : Nat}
      (hj : Relation.TransGen (fun i j => (t.nodes i).parent = some j) i j) :
      j < t.curNode ∧ (t.nodes j).f < (t.nodes i).f := by
    induction hj with
    | single hj => exact h.parent_lt hi hj
    | tail _ hk ih =>
      obtain ⟨hlt, hf⟩ := h.parent_lt ih.1 hk
      exact ⟨hlt, hf.trans ih.2⟩
  exact Nat.lt_irrefl _ (hfall hcycle).2

theorem NodesInv.collect_terminates (h : NodesInv q t) {found : Option Nat}
    (hfound : ∀ i, found = some i → i < t.curNode) (prevx prevy : UInt16)
    (dirList : List Direction) :
    ∃ fuel result, collectDirections t fuel found prevx prevy dirList = some result := by
  cases found with
  | none => exact ⟨1, dirList, rfl⟩
  | some i =>
    have hi := hfound i rfl
    clear hfound
    induction hf : (t.nodes i).f using Nat.strong_induction_on
      generalizing i prevx prevy dirList with
    | _ f ih =>
      cases hparent : (t.nodes i).parent with
      | none => exact ⟨2, _, by simp only [collectDirections, hparent]; rfl⟩
      | some j =>
        obtain ⟨hj, hlt⟩ := h.parent_lt hi hparent
        obtain ⟨fuel, result, hresult⟩ := ih _ (hf ▸ hlt) _ _ _ _ hj rfl
        refine ⟨fuel + 1, result, ?_⟩
        simp only [collectDirections, hparent]
        exact hresult

theorem getPathMatching_terminates (q : PathQuery) :
    ∃ fuel result, q.getPathMatching fuel [] = some result := by
  obtain ⟨fuel, result, hresult⟩ := searchInv_init (q := q).terminates
  cases result with
  | none => exact ⟨fuel, (false, []), by simp only [getPathMatching, hresult]⟩
  | some s =>
    have hinv := searchInv_init.of_searchLoop hresult
    cases hfound : s.found with
    | none => exact ⟨fuel, (false, []), by simp only [getPathMatching, hresult, hfound]⟩
    | some i =>
      have hi := (hinv.found hfound).1
      obtain ⟨fuel', dirList, hdirs⟩ := hinv.nodes.collect_terminates
        (fun j hj => (hinv.nodes.parent_lt hi hj).1) s.endPos.x s.endPos.y []
      have hsearch := searchLoop_mono hresult fuel'
      have hcollect := collectDirections_mono hdirs fuel
      rw [Nat.add_comm] at hcollect
      exact ⟨fuel + fuel', (true, dirList), by
        simp only [getPathMatching, hsearch, hfound, hcollect]⟩

theorem acyclic_of_reached {s : PathSearch} (h : Reached q s) : Acyclic s.nodes := by
  have hinv : SearchInv q s := by
    induction h with
    | init => exact searchInv_init
    | round _ hs' ih => exact (ih.running hs').1
  exact hinv.nodes.acyclic

/-! ### The path -/

theorem NodesInv.walkable (h : NodesInv q t) (hstart : (q.walker.canWalkTo q.startPos).isSome)
    {i : Nat} (hi : i < t.curNode) :
    (q.walker.canWalkTo (q.position (t.nodes i))).isSome := by
  by_cases hi0 : i = 0
  · subst hi0
    rw [h.root]
    exact hstart
  · exact (h.enterable hi0 hi).1

theorem NodesInv.walksTo (h : NodesInv q t) (hseam : q.walker.NoSeam)
    (hstart : (q.walker.canWalkTo q.startPos).isSome) {fuel i : Nat} (hi : i < t.curNode)
    {dirList result : List Direction}
    (hresult : collectDirections t fuel (t.nodes i).parent (t.nodes i).x (t.nodes i).y dirList =
      some result) :
    ∃ ds, result = dirList ++ ds ∧
      MapPosition.WalksTo q.Enterable q.startPos ds.reverse (q.position (t.nodes i)) := by
  induction fuel generalizing i dirList with
  | zero => cases hresult
  | succ fuel ih =>
    by_cases hi0 : i = 0
    · subst hi0
      rw [h.root] at hresult ⊢
      cases hresult
      exact ⟨[], (List.append_nil _).symm, rfl⟩
    · obtain ⟨j, hparent, hj, -, hbeside⟩ := h.parent hi0 hi
      have hadj := hseam _ _ hbeside (h.walkable hstart hj) (h.walkable hstart hi)
      obtain ⟨d, hd, hnext⟩ := hadj.stepDirection
      simp only [position] at hd
      simp only [hparent, collectDirections, hd, Option.toList_some] at hresult
      obtain ⟨ds, hds, hwalk⟩ := ih hj hresult
      refine ⟨d :: ds, ?_, ?_⟩
      · rw [hds, List.append_assoc]
        rfl
      · rw [List.reverse_cons]
        exact hwalk.append hnext hadj (h.enterable hi0 hi)

theorem meetsContract_of_noSeam (hseam : q.walker.NoSeam)
    (hstart : (q.walker.canWalkTo q.startPos).isSome) : q.MeetsContract := by
  refine ⟨q.getPathMatching_terminates, fun s hs => acyclic_of_reached hs,
    fun fuel dirList hpath => ?_⟩
  simp only [getPathMatching] at hpath
  split at hpath
  · cases hpath
  · cases hpath
  next s hsearch =>
    split at hpath
    · cases hpath
    next i hfound =>
      split at hpath
      · cases hpath
      next dirs hcollect =>
        cases hpath
        have hinv := searchInv_init.of_searchLoop hsearch
        obtain ⟨hi, hend, hmatch⟩ := hinv.found hfound
        rw [hend] at hcollect hmatch
        obtain ⟨ds, hds, hwalk⟩ := hinv.nodes.walksTo hseam hstart hi hcollect
        rw [List.nil_append] at hds
        exact ⟨_, hds ▸ hwalk, hmatch⟩

/-! ### Across the end of the coordinates -/

def seamQuery (w : Walker) (p p' : MapPosition) : PathQuery where
  walker := w
  fpp := { clearSight := false, keepDistance := true, maxTargetDist := 0 }
  startPos := p
  targetPos := p'

section

variable {w : Walker} {p p' : MapPosition}

theorem isInRange_seamQuery (startPos pos : MapPosition) :
    (seamQuery w p p').fpp.isInRange p' startPos pos ↔ pos.x = p'.x ∧ pos.y = p'.y := by
  simp [seamQuery, FindPathParams.isInRange, ← UInt16.toNat_inj]
  omega

theorem inBounds_seamQuery (pos : MapPosition) :
    (seamQuery w p p').inBounds pos ↔ pos.x = p'.x ∧ pos.y = p'.y := by
  rw [← isInRange_seamQuery (w := w) (p := p) p pos]
  simp [inBounds, seamQuery]

theorem shift_inj {o o' : Int × Int} (ho : o ∈ allNeighbors) (ho' : o' ∈ allNeighbors)
    (hx : (p.shift o).x = (p.shift o').x) (hy : (p.shift o).y = (p.shift o').y) : o = o' := by
  have hbound : ∀ o ∈ allNeighbors, -1 ≤ o.1 ∧ o.1 ≤ 1 ∧ -1 ≤ o.2 ∧ o.2 ≤ 1 := by decide
  have h := hbound o ho
  have h' := hbound o' ho'
  have hcoord (a : UInt16) (d d' : Int) (hd : -1 ≤ d ∧ d ≤ 1) (hd' : -1 ≤ d' ∧ d' ≤ 1)
      (heq : UInt16.ofInt (a.toNat + d) = UInt16.ofInt (a.toNat + d')) : d = d' := by
    have heq := congrArg UInt16.toNat heq
    simp only [UInt16.ofInt, UInt16.toNat_ofNat'] at heq
    omega
  exact Prod.ext (hcoord _ _ _ ⟨h.1, h.2.1⟩ ⟨h'.1, h'.2.1⟩ hx)
    (hcoord _ _ _ h.2.2 h'.2.2 hy)

theorem visitNeighbors_skip (q : PathQuery) {n : Nat} {node : AStarNode}
    {l l' : List (Int × Int)} {t : AStarNodes}
    (h : ∀ o ∈ l, ¬q.inBounds ((q.position node).shift o)) :
    q.visitNeighbors n node (l ++ l') t = q.visitNeighbors n node l' t := by
  induction l with
  | nil => rfl
  | cons o l ih =>
    have hskip : q.visitNeighbor t n node o = some t := by
      simp only [visitNeighbor]
      rw [if_pos (by simpa using h o List.mem_cons_self)]
    rw [List.cons_append, visitNeighbors, hskip]
    exact ih fun o ho => h o (List.mem_cons_of_mem _ ho)

def seamNodes (p p' : MapPosition) (f : Nat) : AStarNodes :=
  let t := AStarNodes.init p.x p.y
  { t with
    curNode := 2
    openNodes := Function.update t.openNodes 1 true
    nodeTable := Function.update t.nodeTable (AStarNodes.tableKey p'.x p'.y) (some 1)
    nodes := Function.update t.nodes 1 ⟨some 0, f, p'.x, p'.y⟩ }

theorem visitNeighbors_seamQuery (hbeside : p.Neighbour p') (hne : ¬(p.x = p'.x ∧ p.y = p'.y))
    (hwalk : (w.canWalkTo p').isSome) :
    ∃ f, f < 0x7FFFFFFF ∧ (seamQuery w p p').visitNeighbors 0 ⟨none, 0, p.x, p.y⟩ allNeighbors
      (AStarNodes.init p.x p.y) = (seamNodes p p' f, false) := by
  obtain ⟨o, ho, hshift⟩ := hbeside
  obtain ⟨tile, htile⟩ := Option.isSome_iff_exists.mp hwalk
  obtain ⟨l₁, l₂, hl⟩ := List.append_of_mem ho
  have hnodup : allNeighbors.Nodup := by decide
  let node : AStarNode := ⟨none, 0, p.x, p.y⟩
  have hnode : (seamQuery w p p').position node = p := rfl
  have hother (o' : Int × Int) (ho' : o' ∈ l₁ ++ l₂) :
      ¬(seamQuery w p p').inBounds (((seamQuery w p p').position node).shift o') := by
    rw [inBounds_seamQuery, hnode, hshift]
    rintro ⟨hx, hy⟩
    have hmem : o' ∈ allNeighbors := by
      rw [hl]
      simp only [List.mem_append, List.mem_cons] at ho' ⊢
      tauto
    have heq := shift_inj hmem ho hx hy
    rw [hl, List.nodup_middle, List.nodup_cons] at hnodup
    exact hnodup.1 (heq ▸ ho')
  let f := AStarNodes.getMapWalkCost node p' + AStarNodes.getTileWalkCost w (some tile)
  have hvisit : (seamQuery w p p').visitNeighbor (AStarNodes.init p.x p.y) 0 node o =
      some (seamNodes p p' f) := by
    have hbounds : (seamQuery w p p').inBounds p' := (inBounds_seamQuery p').mpr ⟨rfl, rfl⟩
    have hfree : (AStarNodes.init p.x p.y).getNodeByPosition p'.x p'.y = none := by
      have hkey : AStarNodes.tableKey p'.x p'.y ≠ AStarNodes.tableKey p.x p.y := by
        intro hkey
        obtain ⟨hx, hy⟩ := AStarNodes.tableKey_inj hkey
        exact hne ⟨hx.symm, hy.symm⟩
      simp only [AStarNodes.getNodeByPosition, AStarNodes.init, Function.update_of_ne hkey]
    have htile' : (seamQuery w p p').walker.canWalkTo p' = some tile := htile
    simp only [visitNeighbor, hnode, ← hshift, hbounds, hfree, htile']
    simp [AStarNodes.createOpenNode, AStarNodes.init, seamNodes, f, node, seamQuery, MAX_NODES]
  have htail : (seamQuery w p p').visitNeighbors 0 node l₂ (seamNodes p p' f) =
      (seamNodes p p' f, false) := by
    rw [← List.append_nil l₂,
      visitNeighbors_skip _ fun o' ho' => hother o' (List.mem_append_right l₁ ho')]
    rfl
  refine ⟨f, ?_, ?_⟩
  · simp only [f, AStarNodes.getMapWalkCost, AStarNodes.getTileWalkCost]
    split_ifs <;> decide
  · change (seamQuery w p p').visitNeighbors 0 node allNeighbors _ = _
    rw [hl, visitNeighbors_skip _ fun o' ho' => hother o' (List.mem_append_left _ ho')]
    simp only [visitNeighbors, hvisit]
    exact htail

theorem round_init_seamQuery (hbeside : p.Neighbour p') (hne : ¬(p.x = p'.x ∧ p.y = p'.y))
    (hwalk : (w.canWalkTo p').isSome) :
    ∃ f, f < 0x7FFFFFFF ∧ (seamQuery w p p').round (seamQuery w p p').init =
      .running { (seamQuery w p p').init with nodes := (seamNodes p p' f).closeNode 0 } := by
  obtain ⟨f, hf, hvisit⟩ := visitNeighbors_seamQuery hbeside hne hwalk
  have hbest : (seamQuery w p p').init.nodes.getBestNode = some 0 := by
    simp [init, AStarNodes.getBestNode, AStarNodes.init]
  have hnode : (seamQuery w p p').init.nodes.nodes 0 = ⟨none, 0, p.x, p.y⟩ := by
    simp [init, AStarNodes.init, seamQuery]
  have hrange : (seamQuery w p p').fpp.isInRange p' p p = false := by
    rw [← Bool.not_eq_true, isInRange_seamQuery]
    exact hne
  have hcond : (seamQuery w p p').fpp.pathCondition w p' p p 0 = (false, 0) := by
    simp only [FindPathParams.pathCondition, hrange, Bool.not_false, if_true]
  refine ⟨f, hf, ?_⟩
  have hgo : (seamQuery w p p').fpp.maxSearchDist ≠ 0 ∨
      (seamQuery w p p').init.nodes.closedNodes < 100 := .inr (show (0 : Int) < 100 by decide)
  have hcond' : (seamQuery w p p').fpp.pathCondition (seamQuery w p p').walker
      (seamQuery w p p').targetPos (seamQuery w p p').startPos
      ((seamQuery w p p').position ⟨none, 0, p.x, p.y⟩) (seamQuery w p p').init.bestMatch =
      (false, 0) := hcond
  simp only [round, hgo, not_true_eq_false, if_false, hbest, hnode, hcond', expand]
  have hvisit' : (seamQuery w p p').visitNeighbors 0 ⟨none, 0, p.x, p.y⟩
      (neighbors (seamQuery w p p').fpp ⟨none, 0, p.x, p.y⟩ none)
      (seamQuery w p p').init.nodes = (seamNodes p p' f, false) := hvisit
  simp only [Option.map_none, hvisit', Bool.false_eq_true, false_and, if_false]
  rfl

theorem round_seamNodes {f : Nat} (hf : f < 0x7FFFFFFF) :
    (seamQuery w p p').round
      { (seamQuery w p p').init with nodes := (seamNodes p p' f).closeNode 0 } =
      .finished ⟨(seamNodes p p' f).closeNode 0, some 1, ⟨p'.x, p'.y, p.z⟩, 0⟩ := by
  have hbest : ((seamNodes p p' f).closeNode 0).getBestNode = some 1 := by
    simp [AStarNodes.getBestNode, seamNodes, AStarNodes.closeNode, AStarNodes.init,
      List.range_succ, hf]
  have hnode : ((seamNodes p p' f).closeNode 0).nodes 1 = ⟨some 0, f, p'.x, p'.y⟩ := by
    simp [seamNodes, AStarNodes.closeNode]
  have hrange : (seamQuery w p p').fpp.isInRange p' p ⟨p'.x, p'.y, p.z⟩ := by
    rw [isInRange_seamQuery]
    exact ⟨rfl, rfl⟩
  have hcond : (seamQuery w p p').fpp.pathCondition w p' p ⟨p'.x, p'.y, p.z⟩ 0 = (true, 0) := by
    simp only [FindPathParams.pathCondition, hrange, MapPosition.getDistanceX,
      MapPosition.getDistanceY, Int.sub_self]
    simp [seamQuery]
  have hgo : (seamQuery w p p').fpp.maxSearchDist ≠ 0 ∨
      ((seamNodes p p' f).closeNode 0).closedNodes < 100 :=
    .inr (show ((0 : Int) + 1 < 100) by decide)
  have hcond' : (seamQuery w p p').fpp.pathCondition (seamQuery w p p').walker
      (seamQuery w p p').targetPos (seamQuery w p p').startPos
      ((seamQuery w p p').position ⟨some 0, f, p'.x, p'.y⟩)
      (seamQuery w p p').init.bestMatch = (true, 0) := hcond
  simp only [round, hgo, not_true_eq_false, if_false, hbest, hnode, hcond', if_true]
  rfl

theorem getPathMatching_seamQuery (hbeside : p.Neighbour p')
    (hne : ¬(p.x = p'.x ∧ p.y = p'.y)) (hwalk : (w.canWalkTo p').isSome) :
    (seamQuery w p p').getPathMatching 2 [] =
      some (true, (stepDirection ((p.x.toNat : Int) - p'.x.toNat)
        ((p.y.toNat : Int) - p'.y.toNat)).toList) := by
  obtain ⟨f, hf, hround⟩ := round_init_seamQuery hbeside hne hwalk
  have hsearch : (seamQuery w p p').searchLoop 2 (seamQuery w p p').init =
      some (some ⟨(seamNodes p p' f).closeNode 0, some 1, ⟨p'.x, p'.y, p.z⟩, 0⟩) := by
    simp only [searchLoop, hround, round_seamNodes hf]
  have hnode : ((seamNodes p p' f).closeNode 0).nodes 1 = ⟨some 0, f, p'.x, p'.y⟩ := by
    simp [seamNodes, AStarNodes.closeNode]
  have hroot : ((seamNodes p p' f).closeNode 0).nodes 0 = ⟨none, 0, p.x, p.y⟩ := by
    simp [seamNodes, AStarNodes.closeNode, AStarNodes.init]
  simp only [getPathMatching, hsearch, hnode, collectDirections, hroot, List.nil_append]

theorem not_walksTo_of_seam (hbeside : p.Neighbour p') (hseam : ¬p.Adjacent p')
    (hne : ¬(p.x = p'.x ∧ p.y = p'.y)) {ok : MapPosition → Prop} {endPos : MapPosition}
    (hwalk : MapPosition.WalksTo ok p (stepDirection ((p.x.toNat : Int) - p'.x.toNat)
      ((p.y.toNat : Int) - p'.y.toNat)).toList endPos) :
    ¬(endPos.x = p'.x ∧ endPos.y = p'.y) := by
  obtain ⟨o, -, hshift⟩ := hbeside
  have hz : p.z = p'.z := by rw [hshift]; rfl
  have hfar : ¬(p.getDistanceX p' ≤ 1 ∧ p.getDistanceY p' ≤ 1) := by
    rintro ⟨hx, hy⟩
    exact hseam ⟨fun heq => hne ⟨by rw [heq], by rw [heq]⟩, hz, hx, hy⟩
  simp only [MapPosition.getDistanceX, MapPosition.getDistanceY] at hfar
  rintro ⟨hx, hy⟩
  have hx' : (endPos.x.toNat : Int) = p'.x.toNat := by rw [hx]
  have hy' : (endPos.y.toNat : Int) = p'.y.toNat := by rw [hy]
  generalize hdx : (p.x.toNat : Int) - p'.x.toNat = dx at hwalk hfar
  generalize hdy : (p.y.toNat : Int) - p'.y.toNat = dy at hwalk hfar
  by_cases hfarx : dx.natAbs ≤ 1
  · -- the second coordinate wraps around
    have h₁ : dy ≠ 1 := by omega
    have h₂ : dy ≠ -1 := by omega
    simp only [stepDirection, h₁, h₂, and_false, if_false] at hwalk
    have hend : endPos.y = p.y := by
      split_ifs at hwalk
      · exact (congrArg MapPosition.y hwalk.2.2).symm
      · exact (congrArg MapPosition.y hwalk.2.2).symm
      · exact (congrArg MapPosition.y hwalk).symm
    rw [hend] at hy'
    omega
  · have h₁ : dx ≠ 1 := by omega
    have h₂ : dx ≠ -1 := by omega
    simp only [stepDirection, h₁, h₂, false_and, if_false] at hwalk
    have hend : endPos.x = p.x := by
      split_ifs at hwalk
      · exact (congrArg MapPosition.x hwalk.2.2).symm
      · exact (congrArg MapPosition.x hwalk.2.2).symm
      · exact (congrArg MapPosition.x hwalk).symm
    rw [hend] at hx'
    omega

theorem ne_of_neighbour (h : p.Neighbour p') : ¬(p.x = p'.x ∧ p.y = p'.y) := by
  rintro ⟨hx, hy⟩
  obtain ⟨o, ho, hshift⟩ := h
  have hbound : ∀ o ∈ allNeighbors, (o.1 ≠ 0 ∨ o.2 ≠ 0) ∧ -1 ≤ o.1 ∧ o.1 ≤ 1 ∧ -1 ≤ o.2 ∧
    o.2 ≤ 1 := by decide
  have hx := congrArg UInt16.toNat (hx.trans (congrArg MapPosition.x hshift))
  have hy := congrArg UInt16.toNat (hy.trans (congrArg MapPosition.y hshift))
  have ho := hbound o ho
  have hlt := p.x.toNat_lt
  have hlt' := p.y.toNat_lt
  simp only [MapPosition.shift, UInt16.ofInt, UInt16.toNat_ofNat'] at hx hy
  omega

theorem not_meetsContract_seamQuery (hbeside : p.Neighbour p') (hseam : ¬p.Adjacent p')
    (hwalk : (w.canWalkTo p').isSome) : ¬(seamQuery w p p').MeetsContract := by
  intro hmeets
  have hne := ne_of_neighbour hbeside
  obtain ⟨endPos, hwalks, bestMatch, hmatch⟩ :=
    hmeets.path 2 _ (getPathMatching_seamQuery hbeside hne hwalk)
  have hreverse (d : Option Direction) : d.toList.reverse = d.toList := by cases d <;> rfl
  rw [hreverse] at hwalks
  refine not_walksTo_of_seam hbeside hseam hne hwalks ?_
  by_contra hrange
  have hrange : (seamQuery w p p').fpp.isInRange p' p endPos = false := by
    rw [← Bool.not_eq_true, isInRange_seamQuery]
    exact hrange
  have hcond : ((seamQuery w p p').fpp.pathCondition w p' p endPos bestMatch).1 = true := hmatch
  simp [FindPathParams.pathCondition, hrange] at hcond

end

/-- Every search of a creature keeps its contract exactly on the maps without such neighbours. -/
theorem meetsContract_iff_noSeam (w : Walker) :
    (∀ fpp startPos targetPos, (w.canWalkTo startPos).isSome →
      MeetsContract ⟨w, fpp, startPos, targetPos⟩) ↔ w.NoSeam := by
  constructor
  · intro hmeets p p' hbeside hp hp'
    by_contra hseam
    exact not_meetsContract_seamQuery hbeside hseam hp' (hmeets _ p p' hp)
  · intro hseam fpp startPos targetPos hstart
    exact meetsContract_of_noSeam hseam hstart

theorem meetsContract_ofCreature (c : WalkCache) (getTile : MapPosition → Option TileRef)
    (queryAdd getTopVisibleCreature avoidsField : TileRef → Bool)
    (isSightClear : MapPosition → MapPosition → Bool) (fpp : FindPathParams)
    (targetPos : MapPosition) (htile : (getTile c.position).isSome)
    (hseam : (Walker.ofCreature c getTile queryAdd getTopVisibleCreature avoidsField
      isSightClear).NoSeam) :
    MeetsContract ⟨.ofCreature c getTile queryAdd getTopVisibleCreature avoidsField isSightClear,
      fpp, c.position, targetPos⟩ := by
  refine meetsContract_of_noSeam hseam ?_
  change (canWalkTo c getTile queryAdd c.position).isSome
  rwa [canWalkTo_position]

def edgeWalker : Walker where
  getTile pos :=
    if pos = ⟨0, 100, 7⟩ then some 0 else if pos = ⟨0xFFFF, 100, 7⟩ then some 1 else none
  canWalkTo pos :=
    if pos = ⟨0, 100, 7⟩ then some 0 else if pos = ⟨0xFFFF, 100, 7⟩ then some 1 else none
  getTopVisibleCreature tile := tile == 0
  avoidsField _ := false
  isSightClear _ _ := true

theorem not_meetsContract_edgeWalker :
    ¬MeetsContract ⟨edgeWalker, { minTargetDist := 0, maxTargetDist := 1 }, ⟨0, 100, 7⟩,
      ⟨0xFFFF, 100, 7⟩⟩ := by
  intro hmeets
  obtain ⟨endPos, hwalk, bestMatch, hmatch⟩ := hmeets.path 3 [] (by decide)
  cases hwalk
  simp [FindPathParams.pathCondition, FindPathParams.isInRange] at hmatch

end PathQuery

end Eloth
