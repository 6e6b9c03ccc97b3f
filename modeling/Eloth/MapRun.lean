import Eloth.MapLeaves

/-!
# Runs of the map

Tiles get set, and creatures are placed, moved and removed. Every leaf stays linked with the
leaves beside it and lists the creatures of its square.
-/

namespace Eloth

namespace Map

open QTreeNode (cell)

variable {m : Map} {isPlayer : CreatureId → Bool}

/-! ### Creatures -/

def InSquare (m : Map) (x y : UInt32) (c : CreatureId) : Prop :=
  ∃ p, m.position c = some p ∧ cell p.x.toUInt32 = cell x ∧ cell p.y.toUInt32 = cell y

/-- Every leaf lists the creatures of its square. -/
def Enrolled (isPlayer : CreatureId → Bool) (m : Map) : Prop :=
  ∀ x y r, m.root.getLeaf x y = some r →
    ListSet.Lists (m.leaves r).creature_list (m.InSquare x y) ∧
      ListSet.Lists (m.leaves r).player_list fun c => m.InSquare x y c ∧ isPlayer c

theorem Enrolled.of_lists {m' : Map} (h : Enrolled isPlayer m)
    (hroot : ∀ x y, m'.root.getLeaf x y = m.root.getLeaf x y)
    (hlists : ∀ r, (m'.leaves r).creature_list = (m.leaves r).creature_list ∧
      (m'.leaves r).player_list = (m.leaves r).player_list)
    (hsquare : ∀ x y c, m.InSquare x y c ↔ m'.InSquare x y c) : Enrolled isPlayer m' := by
  intro x y r hr
  rw [hroot] at hr
  obtain ⟨hcreatures, hplayers⟩ := h x y r hr
  rw [(hlists r).1, (hlists r).2]
  exact ⟨hcreatures.congr (hsquare x y), hplayers.congr fun c => by rw [hsquare x y c]⟩

theorem Enrolled.add {m' : Map} (hL : Linked m) (h : Enrolled isPlayer m) {c : CreatureId}
    {dest : MapPosition} {leaf : LeafRef} (hc : m.position c = none)
    (hleaf : m.root.getLeaf dest.x.toUInt32 dest.y.toUInt32 = some leaf)
    (hroot : m'.root = m.root)
    (hleaves : ∀ r, m'.leaves r =
      if leaf = r then (m.leaves r).addCreature isPlayer c else m.leaves r)
    (hposition : m'.position = Function.update m.position c (some dest)) :
    Enrolled isPlayer m' := by
  have hnot (x y : UInt32) : ¬m.InSquare x y c := by
    rintro ⟨p, hp, -⟩
    rw [hc] at hp
    cases hp
  have hsquare (x y : UInt32) (d : CreatureId) : m'.InSquare x y d ↔
      (d = c ∧ cell dest.x.toUInt32 = cell x ∧ cell dest.y.toUInt32 = cell y) ∨
        m.InSquare x y d := by
    by_cases hd : d = c
    · subst hd
      rw [or_iff_left (hnot x y)]
      simp only [true_and, InSquare, hposition, Function.update_self,
        Option.some.injEq, exists_eq_left']
    · simp only [InSquare, hposition, Function.update_of_ne hd, hd, false_and, false_or]
  intro x y r hr
  rw [hroot] at hr
  obtain ⟨hcreatures, hplayers⟩ := h x y r hr
  rw [hleaves]
  split_ifs with hrl
  · subst hrl
    have hcell := hL.inj hleaf hr
    have hmem (d : CreatureId) : (d = c ∨ m.InSquare x y d) ↔ m'.InSquare x y d := by
      rw [hsquare]
      simp only [hcell, and_self, and_true]
    exact ⟨(hcreatures.concat (hnot x y)).congr hmem,
      (hplayers.concat_if (hnot x y)).congr fun d => by rw [hmem]⟩
  · have hmem (d : CreatureId) : m.InSquare x y d ↔ m'.InSquare x y d := by
      rw [hsquare]
      constructor
      · exact .inr
      · rintro (⟨-, hcell⟩ | hd)
        · have hsame := QTreeNode.getLeaf_congr m.root hcell.1 hcell.2
          exact absurd (Option.some.inj (hleaf.symm.trans (hsame.trans hr))) hrl
        · exact hd
    exact ⟨hcreatures.congr hmem, hplayers.congr fun d => by rw [hmem]⟩

theorem Enrolled.remove {m' : Map} (hL : Linked m) (h : Enrolled isPlayer m) {c : CreatureId}
    {pos : MapPosition} {leaf : LeafRef} (hc : m.position c = some pos)
    (hleaf : m.root.getLeaf pos.x.toUInt32 pos.y.toUInt32 = some leaf)
    (hroot : m'.root = m.root)
    (hleaves : ∀ r, m'.leaves r =
      if leaf = r then (m.leaves r).removeCreature isPlayer c else m.leaves r)
    (hposition : m'.position = Function.update m.position c none) :
    Enrolled isPlayer m' := by
  have hsquare (x y : UInt32) (d : CreatureId) :
      m'.InSquare x y d ↔ d ≠ c ∧ m.InSquare x y d := by
    by_cases hd : d = c
    · subst hd
      simp [InSquare, hposition]
    · simp [InSquare, hposition, hd]
  intro x y r hr
  rw [hroot] at hr
  obtain ⟨hcreatures, hplayers⟩ := h x y r hr
  rw [hleaves]
  split_ifs with hrl
  · subst hrl
    have hin : m.InSquare x y c := ⟨pos, hc, hL.inj hleaf hr⟩
    exact ⟨(hcreatures.swapErase hin).congr fun d => (hsquare x y d).symm,
      (hplayers.swapErase_if hin).congr fun d => by rw [hsquare]⟩
  · have hout : ¬m.InSquare x y c := by
      rintro ⟨p, hp, hcell⟩
      cases hc.symm.trans hp
      have hsame := QTreeNode.getLeaf_congr m.root hcell.1 hcell.2
      exact hrl (Option.some.inj (hleaf.symm.trans (hsame.trans hr)))
    have hmem (d : CreatureId) : m.InSquare x y d ↔ m'.InSquare x y d := by
      rw [hsquare]
      refine ⟨fun hd => ⟨?_, hd⟩, And.right⟩
      rintro rfl
      exact hout hd
    exact ⟨hcreatures.congr hmem, hplayers.congr fun d => by rw [hmem]⟩

/-! ### The invariant -/

structure Inv (isPlayer : CreatureId → Bool) (m : Map) : Prop where
  linked : Linked m
  tile_inj : ∀ {x y z x' y' z' t}, m.getTile x y z = some t → m.getTile x' y' z' = some t →
    x = x' ∧ y = y' ∧ z = z'
  enrolled : Enrolled isPlayer m
  standing : ∀ {c p}, m.position c = some p → (m.getTile p.x p.y p.z).isSome
  vectors : ∀ p, ListSet.Lists (m.creatures p) fun c => m.position c = some p

theorem getQTNode_eq (x y : UInt16) :
    m.getQTNode x y = m.root.getLeaf x.toUInt32 y.toUInt32 :=
  QTreeNode.getLeafStatic_eq_getLeaf _ _ _

theorem leaf_of_getTile {x y : UInt16} {z : UInt8} (h : (m.getTile x y z).isSome) :
    ∃ leaf, m.getQTNode x y = some leaf := by
  rw [getQTNode_eq]
  rw [getTile_eq] at h
  split_ifs at h
  · simp at h
  · cases hleaf : m.root.getLeaf x.toUInt32 y.toUInt32 with
    | none => simp [hleaf] at h
    | some leaf => exact ⟨leaf, rfl⟩

theorem getTile_congr {m' : Map} (hroot : m'.root = m.root)
    (harray : ∀ r, (m'.leaves r).array = (m.leaves r).array) (x y : UInt16) (z : UInt8) :
    m'.getTile x y z = m.getTile x y z := by
  simp only [getTile, hroot, QTreeLeafNode.tile, harray]

/-- Creatures change neither the links nor the tiles. -/
structure SameGround (m m' : Map) : Prop where
  root : m'.root = m.root
  nextLeaf : m'.nextLeaf = m.nextLeaf
  array : ∀ r, (m'.leaves r).array = (m.leaves r).array
  leafE : ∀ r, (m'.leaves r).leafE = (m.leaves r).leafE
  leafS : ∀ r, (m'.leaves r).leafS = (m.leaves r).leafS

theorem SameGround.getTile {m' : Map} (h : SameGround m m') (x y : UInt16) (z : UInt8) :
    m'.getTile x y z = m.getTile x y z := getTile_congr h.root h.array x y z

theorem SameGround.linked {m' : Map} (h : SameGround m m') (hL : Linked m) : Linked m' :=
  hL.of_eq (fun x y => by rw [h.root]) h.nextLeaf h.leafE h.leafS

theorem placeCreature_leaves (c : CreatureId) (dest : MapPosition) (r : LeafRef) :
    (m.placeCreature isPlayer c dest).leaves r =
      if m.getQTNode dest.x dest.y = some r then (m.leaves r).addCreature isPlayer c
      else m.leaves r := by
  simp only [placeCreature, updateLeaf?_leaves]

theorem removeCreature_leaves (c : CreatureId) (pos : MapPosition) (r : LeafRef) :
    (m.removeCreature isPlayer c pos).leaves r =
      if m.getQTNode pos.x pos.y = some r then (m.leaves r).removeCreature isPlayer c
      else m.leaves r := by
  simp only [removeCreature, updateLeaf?_leaves]

theorem moveCreature_leaves (c : CreatureId) (oldPos newPos : MapPosition) (r : LeafRef) :
    (m.moveCreature isPlayer c oldPos newPos).leaves r =
      if m.getQTNode oldPos.x oldPos.y = m.getQTNode newPos.x newPos.y then m.leaves r
      else if m.getQTNode newPos.x newPos.y = some r then
        (if m.getQTNode oldPos.x oldPos.y = some r then (m.leaves r).removeCreature isPlayer c
          else m.leaves r).addCreature isPlayer c
      else if m.getQTNode oldPos.x oldPos.y = some r then (m.leaves r).removeCreature isPlayer c
      else m.leaves r := by
  simp only [moveCreature, ne_eq, ite_not]
  split_ifs
  all_goals simp only [updateLeaf?_leaves, *, if_true, if_false]

theorem placeCreature_position (c : CreatureId) (dest : MapPosition) :
    (m.placeCreature isPlayer c dest).position = Function.update m.position c (some dest) := by
  simp [placeCreature]

theorem removeCreature_position (c : CreatureId) (pos : MapPosition) :
    (m.removeCreature isPlayer c pos).position = Function.update m.position c none := by
  simp [removeCreature]

theorem moveCreature_position (c : CreatureId) (oldPos newPos : MapPosition) :
    (m.moveCreature isPlayer c oldPos newPos).position =
      Function.update m.position c (some newPos) := by
  simp only [moveCreature]
  split_ifs <;> simp

theorem sameGround_placeCreature (c : CreatureId) (dest : MapPosition) :
    SameGround m (m.placeCreature isPlayer c dest) where
  root := by simp [placeCreature]
  nextLeaf := by simp [placeCreature]
  array r := by rw [placeCreature_leaves]; split_ifs <;> rfl
  leafE r := by rw [placeCreature_leaves]; split_ifs <;> rfl
  leafS r := by rw [placeCreature_leaves]; split_ifs <;> rfl

theorem sameGround_removeCreature (c : CreatureId) (pos : MapPosition) :
    SameGround m (m.removeCreature isPlayer c pos) where
  root := by simp [removeCreature]
  nextLeaf := by simp [removeCreature]
  array r := by rw [removeCreature_leaves]; split_ifs <;> rfl
  leafE r := by rw [removeCreature_leaves]; split_ifs <;> rfl
  leafS r := by rw [removeCreature_leaves]; split_ifs <;> rfl

theorem sameGround_moveCreature (c : CreatureId) (oldPos newPos : MapPosition) :
    SameGround m (m.moveCreature isPlayer c oldPos newPos) where
  root := by simp only [moveCreature]; split_ifs <;> simp
  nextLeaf := by simp only [moveCreature]; split_ifs <;> simp
  array r := by rw [moveCreature_leaves]; split_ifs <;> rfl
  leafE r := by rw [moveCreature_leaves]; split_ifs <;> rfl
  leafS r := by rw [moveCreature_leaves]; split_ifs <;> rfl

theorem vectors_add {creatures : MapPosition → List CreatureId}
    {position : CreatureId → Option MapPosition}
    (h : ∀ p, ListSet.Lists (creatures p) fun c => position c = some p) {c : CreatureId}
    {dest : MapPosition} (hc : position c = none) (p : MapPosition) :
    ListSet.Lists (Function.update creatures dest (c :: creatures dest) p)
      fun d => Function.update position c (some dest) d = some p := by
  have hcons : ListSet.Lists (c :: creatures dest) fun d => d = c ∨ position d = some dest :=
    (h dest).cons (by rw [hc]; exact Option.some_ne_none _ ∘ Eq.symm)
  by_cases hp : p = dest
  · subst hp
    rw [Function.update_self]
    refine hcons.congr fun d => ?_
    by_cases hd : d = c <;> simp [hd]
  · rw [Function.update_of_ne hp]
    refine (h p).congr fun d => ?_
    by_cases hd : d = c
    · subst hd
      simp [hc, Ne.symm hp]
    · simp [hd]

theorem vectors_remove {creatures : MapPosition → List CreatureId}
    {position : CreatureId → Option MapPosition}
    (h : ∀ p, ListSet.Lists (creatures p) fun c => position c = some p) {c : CreatureId}
    {pos : MapPosition} (hc : position c = some pos) (p : MapPosition) :
    ListSet.Lists (Function.update creatures pos ((creatures pos).erase c) p)
      fun d => Function.update position c none d = some p := by
  by_cases hp : p = pos
  · subst hp
    rw [Function.update_self]
    refine (h p).erase.congr fun d => ?_
    by_cases hd : d = c <;> simp [hd]
  · rw [Function.update_of_ne hp]
    refine (h p).congr fun d => ?_
    by_cases hd : d = c
    · subst hd
      simp [hc, Ne.symm hp]
    · simp [hd]

theorem inv_empty : Inv isPlayer empty where
  linked := linked_empty
  tile_inj := by
    intro x y z x' y' z' t ht
    rw [getTile_eq, getLeaf_empty] at ht
    split_ifs at ht
    cases ht
  enrolled := by
    intro x y r hr
    rw [getLeaf_empty] at hr
    cases hr
  standing := by
    intro c p hp
    cases hp
  vectors p := ⟨List.nodup_nil, fun c => by simp [empty]⟩

theorem Linked.setTile (h : Linked m) (x y : UInt16) (z : UInt8) (t : TileRef) :
    Linked (m.setTile x y z t) := by
  simp only [Map.setTile]
  split_ifs
  · exact h
  · refine (h.reachLeaf x.toUInt32 y.toUInt32).of_eq (fun _ _ => rfl) rfl (fun r => ?_)
      fun r => ?_
    · rw [updateLeaf_leaves]
      split_ifs
      · exact (placeTile_fields _ x y z t).1
      · rfl
    · rw [updateLeaf_leaves]
      split_ifs
      · exact (placeTile_fields _ x y z t).2.1
      · rfl

theorem setTile_position (x y : UInt16) (z : UInt8) (t : TileRef) :
    (m.setTile x y z t).position = m.position := by
  simp only [setTile]
  split_ifs
  · rfl
  · exact reachLeaf_position _ _

theorem setTile_creatures (x y : UInt16) (z : UInt8) (t : TileRef) :
    (m.setTile x y z t).creatures = m.creatures := by
  simp only [setTile]
  split_ifs
  · rfl
  · exact reachLeaf_creatures _ _

/-- A new leaf has nobody to list, because creatures only stand on tiles. -/
theorem Inv.enrolled_reachLeaf (h : Inv isPlayer m) (x y : UInt32) :
    Enrolled isPlayer (m.reachLeaf x y).1 := by
  cases hleaf : m.root.getLeaf x y with
  | some leaf =>
    obtain ⟨hleaves, -, hroot⟩ := reachLeaf_of_some hleaf
    refine h.enrolled.of_lists hroot (fun r => by rw [hleaves]; exact ⟨rfl, rfl⟩) fun _ _ c => ?_
    rw [InSquare, InSquare, reachLeaf_position]
  | none =>
    intro x' y' r hr
    have hempty (c : CreatureId) : ¬m.InSquare x y c := by
      rintro ⟨p, hp, hcell⟩
      obtain ⟨leaf, hp⟩ := leaf_of_getTile (h.standing hp)
      rw [getQTNode_eq, QTreeNode.getLeaf_congr m.root hcell.1 hcell.2, hleaf] at hp
      cases hp
    have hsquare : (m.reachLeaf x y).1.InSquare x' y' = m.InSquare x' y' := by
      funext c
      rw [InSquare, InSquare, reachLeaf_position]
    have hcontents := reachLeaf_contents (m := m) x y r
    rw [reachLeaf_getLeaf, reachLeaf_snd, hleaf] at hr
    rw [hsquare]
    split_ifs at hr with hcell
    · cases hr
      have hnone (c : CreatureId) : ¬m.InSquare x' y' c := by
        rintro ⟨p, hp, hp'⟩
        exact hempty c ⟨p, hp, hp'.1.trans hcell.1.symm, hp'.2.trans hcell.2.symm⟩
      rw [if_pos ⟨by rw [hleaf]; rfl, rfl⟩] at hcontents
      have hcl : ((m.reachLeaf x y).1.leaves m.nextLeaf).creature_list = [] :=
        congrArg (fun held => held.2.1) hcontents
      have hpl : ((m.reachLeaf x y).1.leaves m.nextLeaf).player_list = [] :=
        congrArg (fun held => held.2.2) hcontents
      rw [Option.getD_none, hcl, hpl]
      exact ⟨⟨List.nodup_nil, fun c => by simp [hnone c]⟩,
        ⟨List.nodup_nil, fun c => by simp [hnone c]⟩⟩
    · have hold : r ≠ m.nextLeaf := Nat.ne_of_lt (h.linked.lt hr)
      rw [if_neg fun hnew => hold hnew.2] at hcontents
      have hcl : ((m.reachLeaf x y).1.leaves r).creature_list = (m.leaves r).creature_list :=
        congrArg (fun held => held.2.1) hcontents
      have hpl : ((m.reachLeaf x y).1.leaves r).player_list = (m.leaves r).player_list :=
        congrArg (fun held => held.2.2) hcontents
      rw [hcl, hpl]
      exact h.enrolled x' y' r hr

theorem Inv.setTile (h : Inv isPlayer m) (x y : UInt16) (z : UInt8) {t : TileRef}
    (ht : ∀ x' y' z', m.getTile x' y' z' ≠ some t) : Inv isPlayer (m.setTile x y z t) := by
  have hget := fun x' y' z' => getTile_setTile h.linked x y x' y' z z' t
  constructor
  · exact h.linked.setTile x y z t
  · intro x₁ y₁ z₁ x₂ y₂ z₂ t' h₁ h₂
    rw [hget] at h₁ h₂
    cases htile : m.getTile x y z with
    | some t₀ =>
      -- the tile that lies there stays
      have hsame (x' y' z') : (if (x = x' ∧ y = y' ∧ z = z') ∧ z.toNat < MAP_MAX_LAYERS then
          some ((m.getTile x y z).getD t) else m.getTile x' y' z') = m.getTile x' y' z' := by
        split_ifs with hpos
        · rw [← hpos.1.1, ← hpos.1.2.1, ← hpos.1.2.2, htile]
          rfl
        · rfl
      rw [hsame] at h₁ h₂
      exact h.tile_inj h₁ h₂
    | none =>
      rw [htile, Option.getD_none] at h₁ h₂
      split_ifs at h₁ h₂ with hpos₁ hpos₂ hpos₂
      · exact ⟨hpos₁.1.1.symm.trans hpos₂.1.1, hpos₁.1.2.1.symm.trans hpos₂.1.2.1,
          hpos₁.1.2.2.symm.trans hpos₂.1.2.2⟩
      · exact absurd (h₂.trans h₁.symm) (ht _ _ _)
      · exact absurd (h₁.trans h₂.symm) (ht _ _ _)
      · exact h.tile_inj h₁ h₂
  · simp only [Map.setTile]
    split_ifs
    · exact h.enrolled
    · refine (h.enrolled_reachLeaf x.toUInt32 y.toUInt32).of_lists (fun _ _ => rfl) (fun r => ?_)
        fun _ _ _ => Iff.rfl
      rw [updateLeaf_leaves]
      split_ifs
      · exact (placeTile_fields _ x y z t).2.2
      · exact ⟨rfl, rfl⟩
  · intro c p hp
    rw [setTile_position] at hp
    rw [hget]
    split_ifs
    · rfl
    · exact h.standing hp
  · intro p
    rw [setTile_position, setTile_creatures]
    exact h.vectors p

theorem Inv.placeCreature (h : Inv isPlayer m) {c : CreatureId} {dest : MapPosition}
    (hc : m.position c = none) (hdest : (m.getTile dest.x dest.y dest.z).isSome) :
    Inv isPlayer (m.placeCreature isPlayer c dest) := by
  have hground : SameGround m (m.placeCreature isPlayer c dest) :=
    sameGround_placeCreature c dest
  have hposition : (m.placeCreature isPlayer c dest).position =
      Function.update m.position c (some dest) := placeCreature_position c dest
  have hcreatures : (m.placeCreature isPlayer c dest).creatures =
      Function.update m.creatures dest (c :: m.creatures dest) := by simp [Map.placeCreature]
  constructor
  · exact hground.linked h.linked
  · simp only [hground.getTile]
    exact h.tile_inj
  · obtain ⟨leaf, hleaf⟩ := leaf_of_getTile hdest
    refine h.enrolled.add h.linked hc (getQTNode_eq _ _ ▸ hleaf) hground.root (fun r => ?_)
      hposition
    rw [placeCreature_leaves, hleaf]
    simp only [Option.some.injEq]
  · intro d p hp
    rw [hground.getTile]
    rw [hposition] at hp
    by_cases hd : d = c
    · subst hd
      rw [Function.update_self] at hp
      cases hp
      exact hdest
    · rw [Function.update_of_ne hd] at hp
      exact h.standing hp
  · rw [hposition, hcreatures]
    exact vectors_add h.vectors hc

theorem Inv.removeCreature (h : Inv isPlayer m) {c : CreatureId} {pos : MapPosition}
    (hc : m.position c = some pos) : Inv isPlayer (m.removeCreature isPlayer c pos) := by
  have hground : SameGround m (m.removeCreature isPlayer c pos) :=
    sameGround_removeCreature c pos
  have hposition : (m.removeCreature isPlayer c pos).position =
      Function.update m.position c none := removeCreature_position c pos
  have hcreatures : (m.removeCreature isPlayer c pos).creatures =
      Function.update m.creatures pos ((m.creatures pos).erase c) := by
    simp [Map.removeCreature]
  constructor
  · exact hground.linked h.linked
  · simp only [hground.getTile]
    exact h.tile_inj
  · obtain ⟨leaf, hleaf⟩ := leaf_of_getTile (h.standing hc)
    refine h.enrolled.remove h.linked hc (getQTNode_eq _ _ ▸ hleaf) hground.root (fun r => ?_)
      hposition
    rw [removeCreature_leaves, hleaf]
    simp only [Option.some.injEq]
  · intro d p hp
    rw [hground.getTile]
    rw [hposition] at hp
    by_cases hd : d = c
    · subst hd
      rw [Function.update_self] at hp
      cases hp
    · rw [Function.update_of_ne hd] at hp
      exact h.standing hp
  · rw [hposition, hcreatures]
    exact vectors_remove h.vectors hc

/-- A move between two leaves is a removal and an insertion for the leaves; within one leaf
nothing changes there. -/
theorem Inv.enrolled_moveCreature (h : Inv isPlayer m) {c : CreatureId}
    {oldPos newPos : MapPosition} (hc : m.position c = some oldPos)
    (hnew : (m.getTile newPos.x newPos.y newPos.z).isSome) :
    Enrolled isPlayer (m.moveCreature isPlayer c oldPos newPos) := by
  have hground : SameGround m (m.moveCreature isPlayer c oldPos newPos) :=
    sameGround_moveCreature c oldPos newPos
  have hposition : (m.moveCreature isPlayer c oldPos newPos).position =
      Function.update m.position c (some newPos) := moveCreature_position c oldPos newPos
  obtain ⟨leaf, hleaf⟩ := leaf_of_getTile (h.standing hc)
  obtain ⟨new_leaf, hnew_leaf⟩ := leaf_of_getTile hnew
  have hget := getQTNode_eq (m := m) oldPos.x oldPos.y ▸ hleaf
  have hget_new := getQTNode_eq (m := m) newPos.x newPos.y ▸ hnew_leaf
  by_cases hsame : leaf = new_leaf
  · subst hsame
    have hcell := h.linked.inj hget hget_new
    refine h.enrolled.of_lists (fun x y => by rw [hground.root]) (fun r => ?_) fun x y d => ?_
    · rw [moveCreature_leaves, hleaf, hnew_leaf, if_pos rfl]
      exact ⟨rfl, rfl⟩
    · simp only [InSquare, hposition]
      by_cases hd : d = c
      · subst hd
        simp only [Function.update_self, hc, Option.some.injEq, exists_eq_left', hcell.1, hcell.2]
      · rw [Function.update_of_ne hd]
  · let m₁ := m.removeCreature isPlayer c oldPos
    have hground₁ : SameGround m m₁ := sameGround_removeCreature c oldPos
    have hposition₁ : m₁.position = Function.update m.position c none :=
      removeCreature_position c oldPos
    have hleaves₁ (r : LeafRef) : m₁.leaves r =
        if leaf = r then (m.leaves r).removeCreature isPlayer c else m.leaves r := by
      simp only [m₁, removeCreature_leaves, hleaf, Option.some.injEq]
    have hm₁ : Enrolled isPlayer m₁ :=
      h.enrolled.remove h.linked hc hget hground₁.root hleaves₁ hposition₁
    have hc₁ : m₁.position c = none := by rw [hposition₁, Function.update_self]
    have hget₁ : m₁.root.getLeaf newPos.x.toUInt32 newPos.y.toUInt32 = some new_leaf := by
      rw [hground₁.root]
      exact hget_new
    refine hm₁.add (hground₁.linked h.linked) hc₁ hget₁ (hground.root.trans hground₁.root.symm)
      (fun r => ?_) ?_
    · rw [moveCreature_leaves, hleaf, hnew_leaf, hleaves₁]
      simp only [Option.some.injEq, if_neg hsame]
    · rw [hposition, hposition₁, Function.update_idem]

theorem Inv.moveCreature (h : Inv isPlayer m) {c : CreatureId} {oldPos newPos : MapPosition}
    (hc : m.position c = some oldPos)
    (hnew : (m.getTile newPos.x newPos.y newPos.z).isSome) :
    Inv isPlayer (m.moveCreature isPlayer c oldPos newPos) := by
  have hground : SameGround m (m.moveCreature isPlayer c oldPos newPos) :=
    sameGround_moveCreature c oldPos newPos
  have hposition : (m.moveCreature isPlayer c oldPos newPos).position =
      Function.update (Function.update m.position c none) c (some newPos) := by
    rw [moveCreature_position, Function.update_idem]
  have hcreatures : (m.moveCreature isPlayer c oldPos newPos).creatures =
      let creatures := Function.update m.creatures oldPos ((m.creatures oldPos).erase c)
      Function.update creatures newPos (c :: creatures newPos) := by
    simp only [Map.moveCreature]
    split_ifs <;> simp
  constructor
  · exact hground.linked h.linked
  · simp only [hground.getTile]
    exact h.tile_inj
  · exact h.enrolled_moveCreature hc hnew
  · intro d p hp
    rw [hground.getTile]
    rw [hposition, Function.update_idem] at hp
    by_cases hd : d = c
    · subst hd
      rw [Function.update_self] at hp
      cases hp
      exact hnew
    · rw [Function.update_of_ne hd] at hp
      exact h.standing hp
  · rw [hposition, hcreatures]
    exact vectors_add (vectors_remove h.vectors hc) (Function.update_self _ _ _)

end Map

inductive MapOp where
  | setTile (x y : UInt16) (z : UInt8) (newTile : TileRef)
  | placeCreature (c : CreatureId) (dest : MapPosition)
  | moveCreature (c : CreatureId) (newPos : MapPosition)
  | removeCreature (c : CreatureId)

namespace MapOp

/-- A new tile is no tile of the map. A creature that is placed is not on the map, one that is
moved or removed is, and the tile it goes to exists. -/
def Allowed (m : Map) : MapOp → Prop
  | setTile _ _ _ newTile => ∀ x y z, m.getTile x y z ≠ some newTile
  | placeCreature c dest =>
    m.position c = none ∧ (m.getTile dest.x dest.y dest.z).isSome
  | moveCreature c newPos =>
    (m.position c).isSome ∧ (m.getTile newPos.x newPos.y newPos.z).isSome
  | removeCreature c => (m.position c).isSome

def apply (isPlayer : CreatureId → Bool) (m : Map) : MapOp → Map
  | setTile x y z newTile => m.setTile x y z newTile
  | placeCreature c dest => m.placeCreature isPlayer c dest
  | moveCreature c newPos =>
    match m.position c with
    | none => m
    | some oldPos => m.moveCreature isPlayer c oldPos newPos
  | removeCreature c =>
    match m.position c with
    | none => m
    | some pos => m.removeCreature isPlayer c pos

end MapOp

def mapSystem (isPlayer : CreatureId → Bool) : Run.System Map MapOp where
  init m := m = Map.empty
  step m op m' := op.Allowed m ∧ m' = op.apply isPlayer m

namespace Map

theorem Inv.apply (h : Inv isPlayer m) {op : MapOp} (hop : op.Allowed m) :
    Inv isPlayer (op.apply isPlayer m) := by
  cases op with
  | setTile x y z newTile => exact h.setTile x y z hop
  | placeCreature c dest => exact h.placeCreature hop.1 hop.2
  | moveCreature c newPos =>
    obtain ⟨oldPos, hc⟩ := Option.isSome_iff_exists.mp hop.1
    simp only [MapOp.apply, hc]
    exact h.moveCreature hc hop.2
  | removeCreature c =>
    obtain ⟨pos, hc⟩ := Option.isSome_iff_exists.mp hop
    simp only [MapOp.apply, hc]
    exact h.removeCreature hc

theorem inv_of_reachable (h : Run.Reachable (mapSystem isPlayer) m) : Inv isPlayer m := by
  refine h.invariant (fun m hm => ?_) fun m op m' hm hstep => ?_
  · rw [hm]
    exact inv_empty
  · rw [hstep.2]
    exact hm.apply hstep.1

theorem getTile_apply (op : MapOp) (hop : ∀ x y z t, op ≠ .setTile x y z t) (x y : UInt16)
    (z : UInt8) : (op.apply isPlayer m).getTile x y z = m.getTile x y z := by
  cases op with
  | setTile x y z t => exact absurd rfl (hop x y z t)
  | placeCreature c dest => exact (sameGround_placeCreature c dest).getTile x y z
  | moveCreature c newPos =>
    simp only [MapOp.apply]
    split
    · rfl
    · exact (sameGround_moveCreature c _ newPos).getTile x y z
  | removeCreature c =>
    simp only [MapOp.apply]
    split
    · rfl
    · exact (sameGround_removeCreature c _).getTile x y z

/-- The map has a tile exactly where one was set. -/
theorem getTile_of_execution {ops : List MapOp} (h : Run.Execution (mapSystem isPlayer) ops m)
    (x y : UInt16) (z : UInt8) : (m.getTile x y z).isSome ↔
      z.toNat < MAP_MAX_LAYERS ∧ ∃ t, MapOp.setTile x y z t ∈ ops := by
  induction h with
  | init hm =>
    rw [hm, getTile_eq, getLeaf_empty]
    simp
  | @step m m' op ops hm hstep ih =>
    rw [hstep.2]
    cases op with
    | setTile x₁ y₁ z₁ t₁ =>
      have hlinked := (inv_of_reachable hm.reachable).linked
      simp only [MapOp.apply, getTile_setTile hlinked, List.mem_append, List.mem_singleton,
        MapOp.setTile.injEq]
      split_ifs with hpos
      · obtain ⟨⟨rfl, rfl, rfl⟩, hz⟩ := hpos
        simp [hz]
      · rw [ih]
        constructor
        · rintro ⟨hz, t, ht⟩
          exact ⟨hz, t, .inl ht⟩
        · rintro ⟨hz, t, ht | ⟨rfl, rfl, rfl, rfl⟩⟩
          · exact ⟨hz, t, ht⟩
          · exact absurd ⟨⟨rfl, rfl, rfl⟩, hz⟩ hpos
    | placeCreature c dest => rw [getTile_apply _ (by simp), ih]; simp
    | moveCreature c newPos => rw [getTile_apply _ (by simp), ih]; simp
    | removeCreature c => rw [getTile_apply _ (by simp), ih]; simp

end Map

end Eloth
