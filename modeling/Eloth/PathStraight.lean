import Eloth.PathOptimal

/-!
# Paths without diagonal steps

Without diagonal steps a node is looked at from its straight neighbours only, whatever parent it
has got meanwhile. The first node looks all around, so the directions are straight for all
parameters exactly where the creature can walk to no position diagonally beside its own.
-/

namespace Eloth

namespace MapPosition

/-- Beside the position in both coordinates. -/
def Diagonal (p p' : MapPosition) : Prop :=
  p.z = p'.z ∧ p.getDistanceX p' = 1 ∧ p.getDistanceY p' = 1

theorem Diagonal.adjacent {p p' : MapPosition} (h : p.Diagonal p') : p.Adjacent p' := by
  refine ⟨?_, h.1, h.2.1.le, h.2.2.le⟩
  rintro rfl
  have hx := h.2.1
  simp [getDistanceX] at hx

theorem Adjacent.neighbour {p p' : MapPosition} (h : p.Adjacent p') : p.Neighbour p' :=
  ⟨_, h.offset, h.eq_shift⟩

/-- A straight step keeps one of the coordinates. -/
theorem not_diagonal_shift {p : MapPosition} {o : Int × Int} (h : o.1 = 0 ∨ o.2 = 0) :
    ¬ p.Diagonal (p.shift o) := by
  rintro ⟨-, hx, hy⟩
  have hkeep (a : UInt16) : (UInt16.ofInt ((a.toNat : Int) + 0)).toNat = a.toNat := by
    have ha := a.toNat_lt
    simp only [UInt16.ofInt, UInt16.toNat_ofNat']
    omega
  rcases h with ho | ho
  · simp only [getDistanceX, shift, ho, hkeep, Int.sub_self] at hx
    cases hx
  · simp only [getDistanceY, shift, ho, hkeep, Int.sub_self] at hy
    cases hy

end MapPosition

theorem straight_of_mem_neighbors {fpp : FindPathParams} (hstraight : fpp.allowDiagonal = false)
    {node parent : AStarNode} {o : Int × Int} (ho : o ∈ neighbors fpp node (some parent)) :
    o.1 = 0 ∨ o.2 = 0 := by
  have hwest : ∀ o ∈ (dirNeighbors .west).take 3, o.1 = 0 ∨ o.2 = 0 := by decide
  have heast : ∀ o ∈ (dirNeighbors .east).take 3, o.1 = 0 ∨ o.2 = 0 := by decide
  have hnorth : ∀ o ∈ (dirNeighbors .north).take 3, o.1 = 0 ∨ o.2 = 0 := by decide
  have hsouth : ∀ o ∈ (dirNeighbors .south).take 3, o.1 = 0 ∨ o.2 = 0 := by decide
  simp only [neighbors, hstraight, Bool.not_false, true_or, if_true, Bool.false_eq_true,
    if_false] at ho
  split_ifs at ho
  · exact hwest o ho
  · exact heast o ho
  · exact hnorth o ho
  · exact hsouth o ho

namespace PathQuery

variable {q : PathQuery} {t t' : AStarNodes}

theorem stepDirection_diagonal {dx dy : Int} {d : Direction} (h : stepDirection dx dy = some d) :
    d.isDiagonal = true ↔ dx.natAbs = 1 ∧ dy.natAbs = 1 := by
  have habs (n : Int) : n.natAbs = 1 ↔ n = 1 ∨ n = -1 := Int.natAbs_eq_iff
  rw [habs, habs]
  simp only [stepDirection] at h
  split_ifs at h <;> cases h <;>
    simp only [Direction.isDiagonal, Bool.false_eq_true, true_iff, false_iff] <;> omega

/-! ### The steps of the pool -/

/-- No node was reached diagonally. -/
def StraightSteps (q : PathQuery) (t : AStarNodes) : Prop :=
  ∀ i < t.curNode, ∀ k, (t.nodes i).parent = some k →
    ¬ (q.position (t.nodes k)).Diagonal (q.position (t.nodes i))

/-- A visit gives a parent to nothing but the node at the place it visits. -/
theorem NodesInv.visitNeighbor_parent (h : NodesInv q t) {n : Nat} {node : AStarNode}
    {offset : Int × Int} (ht' : q.visitNeighbor t n node offset = some t')
    {i k : Nat} (hi : i < t'.curNode) (hk : (t'.nodes i).parent = some k) :
    (i < t.curNode ∧ (t.nodes i).parent = some k) ∨
      (k = n ∧ q.position (t'.nodes i) = (q.position node).shift offset ∧
        q.Enterable ((q.position node).shift offset)) := by
  have hz : ((q.position node).shift offset).z = q.startPos.z := rfl
  simp only [PathQuery.visitNeighbor] at ht'
  generalize (q.position node).shift offset = pos at ht' hz ⊢
  split_ifs at ht' with hbounds
  · cases ht'
    exact .inl ⟨hi, hk⟩
  · cases hfound : t.getNodeByPosition pos.x pos.y with
    | some j =>
      simp only [hfound] at ht'
      obtain ⟨hj, hx, hy⟩ := h.table hfound
      have hpos : q.position (t.nodes j) = pos := by rw [position, hx, hy, ← hz]
      split_ifs at ht' with hcheaper
      · cases ht'
        exact .inl ⟨hi, hk⟩
      · cases ht'
        have hj0 : j ≠ 0 := by
          rintro rfl
          rw [h.root] at hcheaper
          exact hcheaper (Nat.zero_le _)
        rw [AStarNodes.openNode_curNode] at hi
        rw [AStarNodes.openNode_nodes] at hk ⊢
        by_cases hij : i = j
        · subst hij
          simp only [AStarNodes.setParent, Function.update_self, Option.some.injEq] at hk ⊢
          exact .inr ⟨hk.symm, hpos, hpos ▸ h.enterable hj0 hj⟩
        · simp only [AStarNodes.setParent, Function.update_of_ne hij] at hk
          exact .inl ⟨hi, hk⟩
    | none =>
      simp only [hfound] at ht'
      cases hwalk : q.walker.canWalkTo pos with
      | none =>
        simp only [hwalk, Option.some.injEq] at ht'
        subst ht'
        exact .inl ⟨hi, hk⟩
      | some tile =>
        simp only [hwalk, AStarNodes.createOpenNode] at ht'
        have henter : q.Enterable pos :=
          ⟨by rw [hwalk]; rfl, inSearchDist_of_inBounds (by simpa using hbounds)⟩
        split_ifs at ht' with hfull
        cases ht'
        by_cases hlast : i = t.curNode
        · subst hlast
          simp only [Function.update_self, Option.some.injEq] at hk ⊢
          exact .inr ⟨hk.symm, by rw [position, ← hz], henter⟩
        · simp only [Function.update_of_ne hlast] at hk
          exact .inl ⟨by dsimp only at hi; omega, hk⟩

theorem StraightSteps.visitNeighbors (hs : StraightSteps q t) (h : NodesInv q t) {n : Nat}
    {node : AStarNode} (hn : n < t.curNode) (hnode : t.nodes n = node)
    {offsets : List (Int × Int)} (hoffsets : ∀ o ∈ offsets, o ∈ allNeighbors)
    (hstraight : ∀ o ∈ offsets, q.Enterable ((q.position node).shift o) →
      ¬ (q.position node).Diagonal ((q.position node).shift o)) :
    StraightSteps q (q.visitNeighbors n node offsets t).1 := by
  induction offsets generalizing t with
  | nil => exact hs
  | cons offset offsets ih =>
    simp only [PathQuery.visitNeighbors]
    cases hvisit : q.visitNeighbor t n node offset with
    | none => exact hs
    | some t' =>
      obtain ⟨hinv, hnode', hext⟩ :=
        h.visitNeighbor hn hnode (hoffsets offset List.mem_cons_self) hvisit
      have hs' : StraightSteps q t' := by
        intro i hi k hk
        rcases h.visitNeighbor_parent hvisit hi hk with ⟨hlt, hold⟩ | ⟨rfl, hpos, henter⟩
        · rw [hext.position hlt, hext.position (h.parent_lt hlt hold).1]
          exact hs i hlt k hold
        · rw [hpos, hnode']
          exact hstraight offset List.mem_cons_self henter
      exact ih hs' hinv (Nat.lt_of_lt_of_le hn hext.cur_le) hnode'
        (fun o ho => hoffsets o (List.mem_cons_of_mem offset ho))
        fun o ho => hstraight o (List.mem_cons_of_mem offset ho)

/-! ### The search -/

/-- No position diagonally beside the start can be entered. -/
def CornersClosed (q : PathQuery) : Prop :=
  ∀ p, q.startPos.Diagonal p → ¬ q.Enterable p

theorem StraightSteps.running {s s' : PathSearch} (hs : StraightSteps q s.nodes)
    (hfpp : q.fpp.allowDiagonal = false) (hclosed : q.CornersClosed) (h : SearchInv q s)
    (hs' : q.round s = .running s') : StraightSteps q s'.nodes := by
  rcases h.round_cases with hfail | ⟨s₁, hs₁, hnodes, hfin | ⟨n, hn, -, hexp⟩⟩
  · rw [hfail] at hs'
    cases hs'
  · rw [hfin] at hs'
    cases hs'
  · rw [← hnodes] at hn hs
    rw [hexp] at hs'
    have hvisit := hs.visitNeighbors hs₁.nodes hn rfl
      (fun o (ho : o ∈ neighbors q.fpp (s₁.nodes.nodes n)
        ((s₁.nodes.nodes n).parent.map s₁.nodes.nodes)) => mem_allNeighbors_of_mem_neighbors ho)
      (by
        intro o ho henter
        cases hparent : (s₁.nodes.nodes n).parent with
        | some k =>
          rw [hparent, Option.map_some] at ho
          exact MapPosition.not_diagonal_shift (straight_of_mem_neighbors hfpp ho)
        | none =>
          -- only the first node has no parent
          have hn0 : n = 0 := by
            by_contra hn0
            obtain ⟨k, hk, -⟩ := hs₁.nodes.parent hn0 hn
            rw [hparent] at hk
            cases hk
          have hstart : q.position (s₁.nodes.nodes n) = q.startPos := by
            rw [hn0, hs₁.nodes.root, position]
          rw [hstart] at henter ⊢
          exact fun hdiag => hclosed _ hdiag henter)
    simp only [PathQuery.expand] at hs'
    split_ifs at hs'
    cases hs'
    exact hvisit

theorem StraightSteps.of_searchLoop {s s' : PathSearch} (hs : StraightSteps q s.nodes)
    (hfpp : q.fpp.allowDiagonal = false) (hclosed : q.CornersClosed) (h : SearchInv q s)
    {fuel : Nat} (hs' : q.searchLoop fuel s = some (some s')) : StraightSteps q s'.nodes := by
  induction fuel generalizing s with
  | zero => cases hs'
  | succ fuel ih =>
    rw [searchLoop] at hs'
    cases hround : q.round s with
    | running s₁ =>
      simp only [hround] at hs'
      exact ih (hs.running hfpp hclosed h hround) (h.running hround).1 hs'
    | finished s₁ =>
      simp only [hround, Option.some.injEq] at hs'
      subst hs'
      rcases h.round_cases with hfail | ⟨s₂, -, hnodes, hfin | ⟨n, -, -, hexp⟩⟩
      · rw [hfail] at hround
        cases hround
      · rw [hfin] at hround
        cases hround
        rw [hnodes]
        exact hs
      · exact absurd (hexp.symm.trans hround) expand_ne_finished
    | failed => simp [hround] at hs'

theorem StraightSteps.collectDirections (hs : StraightSteps q t) (h : NodesInv q t)
    {fuel i : Nat} (hi : i < t.curNode) {dirList result : List Direction}
    (hdirs : ∀ d ∈ dirList, d.isDiagonal = false)
    (hresult : collectDirections t fuel (t.nodes i).parent (t.nodes i).x (t.nodes i).y dirList =
      some result) : ∀ d ∈ result, d.isDiagonal = false := by
  induction fuel generalizing i dirList with
  | zero => cases hresult
  | succ fuel ih =>
    cases hparent : (t.nodes i).parent with
    | none =>
      rw [hparent] at hresult
      cases hresult
      exact hdirs
    | some k =>
      rw [hparent, PathQuery.collectDirections] at hresult
      refine ih (h.parent_lt hi hparent).1 ?_ hresult
      intro d hd
      rcases List.mem_append.mp hd with hd | hd
      · exact hdirs d hd
      · rw [← Bool.not_eq_true]
        intro hdiag
        have hstep := (stepDirection_diagonal (Option.mem_toList.mp hd)).mp hdiag
        refine hs i hi k hparent ⟨rfl, ?_, ?_⟩
        · exact congrArg Nat.cast hstep.1
        · exact congrArg Nat.cast hstep.2

theorem straight_of_cornersClosed (hfpp : q.fpp.allowDiagonal = false) (hclosed : q.CornersClosed)
    {fuel : Nat} {found : Bool} {dirList : List Direction}
    (hpath : q.getPathMatching fuel [] = some (found, dirList)) :
    ∀ d ∈ dirList, d.isDiagonal = false := by
  have hinit : StraightSteps q q.init.nodes := by
    intro i hi k hk
    have hi0 : i = 0 := Nat.lt_one_iff.mp hi
    subst hi0
    cases hk
  simp only [getPathMatching] at hpath
  split at hpath
  · cases hpath
  · cases hpath
    exact fun d hd => absurd hd List.not_mem_nil
  next s hsearch =>
    split at hpath
    · cases hpath
      exact fun d hd => absurd hd List.not_mem_nil
    next i hfound =>
      split at hpath
      · cases hpath
      next dirs hcollect =>
        cases hpath
        have hinv := searchInv_init.of_searchLoop hsearch
        have hs := hinit.of_searchLoop hfpp hclosed searchInv_init hsearch
        obtain ⟨hi, hend, -⟩ := hinv.found hfound
        rw [hend] at hcollect
        exact hs.collectDirections hinv.nodes hi
          (fun d hd => absurd hd List.not_mem_nil) hcollect

/-! ### An open corner -/

def straightOnly (q : PathQuery) : PathQuery :=
  { q with fpp := { q.fpp with allowDiagonal := false } }

theorem visitNeighbors_straightOnly (n : Nat) (node : AStarNode) (offsets : List (Int × Int))
    (t : AStarNodes) :
    q.straightOnly.visitNeighbors n node offsets t = q.visitNeighbors n node offsets t := by
  have hvisit (t : AStarNodes) (o : Int × Int) :
      q.straightOnly.visitNeighbor t n node o = q.visitNeighbor t n node o := rfl
  induction offsets generalizing t with
  | nil => rfl
  | cons o offsets ih =>
    rw [PathQuery.visitNeighbors, PathQuery.visitNeighbors, hvisit]
    cases q.visitNeighbor t n node o with
    | none => rfl
    | some t' => exact ih t'

theorem expand_straightOnly {s : PathSearch} {n : Nat} (h : (s.nodes.nodes n).parent = none) :
    q.straightOnly.expand s n = q.expand s n := by
  simp only [expand, h, Option.map_none, visitNeighbors_straightOnly]
  rfl

/-- A round reads the parameter in the expansion of its node only. -/
theorem round_straightOnly {s : PathSearch}
    (h : ∀ n, s.nodes.getBestNode = some n → (s.nodes.nodes n).parent = none ∨
      ∃ s', q.round s = .finished s') :
    q.straightOnly.round s = q.round s := by
  have hgo' : (q.straightOnly.fpp.maxSearchDist ≠ 0 ∨ s.nodes.closedNodes < 100) ↔
      (q.fpp.maxSearchDist ≠ 0 ∨ s.nodes.closedNodes < 100) := Iff.rfl
  by_cases hgo : q.fpp.maxSearchDist ≠ 0 ∨ s.nodes.closedNodes < 100
  · cases hbest : s.nodes.getBestNode with
    | none => simp only [round, hbest]; rfl
    | some n =>
      have hcond : q.straightOnly.fpp.pathCondition q.straightOnly.walker
          q.straightOnly.targetPos q.straightOnly.startPos
          (q.straightOnly.position (s.nodes.nodes n)) s.bestMatch =
          q.fpp.pathCondition q.walker q.targetPos q.startPos
            (q.position (s.nodes.nodes n)) s.bestMatch := rfl
      rcases h n hbest with hroot | ⟨s', hfin⟩
      · have hexp (s₁ : PathSearch) (hs₁ : s₁.nodes = s.nodes) :
            q.straightOnly.expand s₁ n = q.expand s₁ n :=
          expand_straightOnly (by rw [hs₁]; exact hroot)
        simp only [round, hgo', hgo, hbest, hcond, not_true_eq_false, if_false]
        split
        · exact if_congr Iff.rfl rfl (hexp _ rfl)
        · exact hexp _ rfl
      · simp only [round, hgo, hbest, not_true_eq_false, if_false] at hfin
        simp only [round, hgo', hgo, hbest, hcond, not_true_eq_false, if_false]
        split at hfin
        · split at hfin
          · next hzero => simp only [hzero, if_true]; rfl
          · exact absurd hfin expand_ne_finished
        · exact absurd hfin expand_ne_finished
  · simp only [round, hgo', hgo, not_false_eq_true, if_true]

theorem getPathMatching_corner {w : Walker} {p p' : MapPosition} (h : p.Diagonal p')
    (hwalk : (w.canWalkTo p').isSome) :
    (seamQuery w p p').straightOnly.getPathMatching 2 [] =
      some (true, (stepDirection ((p.x.toNat : Int) - p'.x.toNat)
        ((p.y.toNat : Int) - p'.y.toNat)).toList) := by
  have hbeside := h.adjacent.neighbour
  have hne := ne_of_neighbour hbeside
  obtain ⟨f, hf, hround⟩ := round_init_seamQuery hbeside hne hwalk
  have hinit : (seamQuery w p p').straightOnly.round (seamQuery w p p').init =
      (seamQuery w p p').round (seamQuery w p p').init := by
    apply round_straightOnly
    intro n hn
    have hn0 : n = 0 := Nat.lt_one_iff.mp (AStarNodes.getBestNode_spec hn).1
    subst hn0
    exact .inl rfl
  have hlast : (seamQuery w p p').straightOnly.round
        { (seamQuery w p p').init with nodes := (seamNodes p p' f).closeNode 0 } =
      (seamQuery w p p').round
        { (seamQuery w p p').init with nodes := (seamNodes p p' f).closeNode 0 } :=
    round_straightOnly fun _ _ => .inr ⟨_, round_seamNodes hf⟩
  have hpath := getPathMatching_seamQuery hbeside hne hwalk
  have hloop : (seamQuery w p p').straightOnly.searchLoop 2 (seamQuery w p p').init =
      (seamQuery w p p').searchLoop 2 (seamQuery w p p').init := by
    simp only [searchLoop, hinit, hround, hlast]
  have hstart : (seamQuery w p p').straightOnly.init = (seamQuery w p p').init := rfl
  rw [← hpath]
  simp only [getPathMatching, hstart, hloop]

/-- The directions are straight for all parameters exactly where no corner can be walked to. -/
theorem straight_iff_corners (w : Walker) (startPos : MapPosition) :
    (∀ fpp targetPos fuel found dirList, fpp.allowDiagonal = false →
      getPathMatching ⟨w, fpp, startPos, targetPos⟩ fuel [] = some (found, dirList) →
      ∀ d ∈ dirList, d.isDiagonal = false) ↔
    ∀ p, startPos.Diagonal p → w.canWalkTo p = none := by
  constructor
  · intro hstraight p hdiag
    by_contra hwalk
    have hsome : (w.canWalkTo p).isSome := Option.ne_none_iff_isSome.mp hwalk
    obtain ⟨d, hd, -⟩ := hdiag.adjacent.stepDirection
    have hpath := getPathMatching_corner hdiag hsome
    rw [hd, Option.toList_some] at hpath
    have hfalse := hstraight _ p 2 true [d] rfl hpath d List.mem_cons_self
    have htrue := (stepDirection_diagonal hd).mpr
      ⟨Int.ofNat_inj.mp hdiag.2.1, Int.ofNat_inj.mp hdiag.2.2⟩
    rw [htrue] at hfalse
    cases hfalse
  · intro hclosed fpp targetPos fuel found dirList hfpp hpath
    refine straight_of_cornersClosed hfpp (fun p hdiag henter => ?_) hpath
    have hsome : (w.canWalkTo p).isSome := henter.1
    rw [hclosed p hdiag] at hsome
    cases hsome

def cornerWalker : Walker where
  getTile pos :=
    if pos = ⟨100, 100, 7⟩ then some 0 else if pos = ⟨101, 101, 7⟩ then some 1 else none
  canWalkTo pos :=
    if pos = ⟨100, 100, 7⟩ then some 0 else if pos = ⟨101, 101, 7⟩ then some 1 else none
  getTopVisibleCreature _ := false
  avoidsField _ := false
  isSightClear _ _ := true

theorem corner_taken_diagonally :
    ¬ ∀ (q : PathQuery) (fuel : Nat) (found : Bool) (dirList : List Direction),
      q.fpp.allowDiagonal = false → q.getPathMatching fuel [] = some (found, dirList) →
      ∀ d ∈ dirList, d.isDiagonal = false := by
  intro hstraight
  have hpath := hstraight
    ⟨cornerWalker, { allowDiagonal := false, minTargetDist := 0, maxTargetDist := 0 },
      ⟨100, 100, 7⟩, ⟨101, 101, 7⟩⟩ 3 true [.southeast] rfl (by decide)
  exact absurd (hpath .southeast List.mem_cons_self) (by decide)

end PathQuery

end Eloth
