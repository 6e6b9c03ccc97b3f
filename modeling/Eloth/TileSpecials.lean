import Eloth.TileInvariants

/-!
# Special items on a tile

Teleports, magic fields, trash holders, mailboxes and beds are found by getters that look at a flag
first. An operation that takes one of two such items off the tile clears the flag, and hides the
other one. A teleport that is the ground is not looked at.
-/

namespace Eloth.Tile

inductive Special where
  | teleport | magicField | trashHolder | mailbox | bed
  deriving DecidableEq

namespace Special

def flag : Special → TileState
  | teleport => .teleport
  | magicField => .magicField
  | trashHolder => .trashHolder
  | mailbox => .mailbox
  | bed => .bed

def isKind : Special → Item → Bool
  | teleport => Item.isTeleportObject
  | magicField => Item.isMagicFieldObject
  | trashHolder => Item.isTrashHolderObject
  | mailbox => Item.isMailboxObject
  | bed => Item.isBedObject

def get (k : Special) (w : World) (t : Tile) : Option ItemRef :=
  match k with
  | teleport => getTeleportItem w t
  | magicField => getFieldItem w t
  | trashHolder => getTrashHolder w t
  | mailbox => getMailbox w t
  | bed => getBedItem w t

/-- The getter finds an item if and only if there is one on the tile. -/
def Shows (k : Special) (w : World) (pos : Position) : Prop :=
  (k.get w (w.tile pos)).isSome = true ↔ ∃ r ∈ (w.tile pos).allItems, k.isKind (w.item r) = true

def seen (k : Special) (t : Tile) : List ItemRef :=
  if k = teleport then t.itemVector else t.allItems

section Getters

variable {k : Special} {w w' : World} {pos : Position} {t : Tile}

theorem findObject_isSome {flag : TileState} {lookAtGround : Bool} {isKind : Item → Bool} :
    (findObject w t flag lookAtGround isKind).isSome = true ↔
      t.flags flag = true ∧
        ∃ r ∈ (if lookAtGround then t.allItems else t.itemVector), isKind (w.item r) = true := by
  unfold findObject
  by_cases hflag : t.flags flag = true
  · cases hg : t.ground with
    | none => cases lookAtGround <;> simp [hasFlag, hflag, allItems, hg]
    | some g => cases lookAtGround <;> cases hk : isKind (w.item g) <;>
        simp [hasFlag, hflag, allItems, hg, hk]
  · simp [hasFlag, hflag]

theorem get_isSome : (k.get w t).isSome = true ↔
    t.flags k.flag = true ∧ ∃ r ∈ k.seen t, k.isKind (w.item r) = true := by
  cases k <;> exact findObject_isSome

theorem seen_subset {r : ItemRef} (h : r ∈ k.seen t) : r ∈ t.allItems := by
  unfold seen at h
  split_ifs at h
  · exact mem_allItems.mpr (.inr h)
  · exact h

theorem isKind_of_cls {item item' : Item} (h : item'.cls = item.cls) :
    k.isKind item' = k.isKind item := by
  cases k <;> simp only [isKind, Item.isTeleportObject, Item.isMagicFieldObject,
    Item.isTrashHolderObject, Item.isMailboxObject, Item.isBedObject, h]

theorem flag_not_floorChange : k.flag ∉ TileState.floorChange := by
  cases k <;> decide

theorem flag_ne : k.flag ≠ .immovableBlockPath := by
  cases k <;> decide

theorem marks_flag (env : Env) (item : Item) : marks env item k.flag = k.isKind item := by
  cases k <;> rfl

theorem clears_flag (env : Env) (item : Item) (others : ItemProperty → Bool) :
    clears env item others k.flag = k.isKind item := by
  cases k <;> rfl

end Getters

/-! ## The condition on an operation -/

/-- Another item of the kind comes in, or none of the kind stays, when one leaves. A teleport
becomes the ground only where there is another one. -/
structure Spares (env : Env) (k : Special) (pos : Position) (w : World) (op : Op) : Prop where
  leaving : ∀ r, op.leaving env w (w.tile pos) = some r → k.isKind (w.item r) = true →
    (∃ r', op.entering env w (w.tile pos) = some r' ∧ k.isKind (w.item r') = true) ∨
      ∀ r' ∈ (w.tile pos).allItems, r' ≠ r → k.isKind (w.item r') = false
  entering : k = teleport → op.onGround env w (w.tile pos) = true →
    ∀ r, op.entering env w (w.tile pos) = some r → k.isKind (w.item r) = true →
      ∃ r' ∈ (w.tile pos).itemVector, op.leaving env w (w.tile pos) ≠ some r' ∧
        k.isKind (w.item r') = true

section Effects

variable {env : Env} {k : Special} {w w' : World} {pos : Position} {out entry : Option ItemRef}
  {onGround : Bool} {rest : List ItemRef}

theorem flag_of_effect (h : Effect env w w' pos out entry onGround rest) :
    (w'.tile pos).flags k.flag = true ↔
      ((w.tile pos).flags k.flag = true ∧ ∀ r, out = some r → k.isKind (w.item r) = false) ∨
        ∃ r, entry = some r ∧ k.isKind (w.item r) = true := by
  rw [h.flags k.flag flag_not_floorChange flag_ne]
  simp only [marks_flag, clears_flag, isKind_of_cls (h.cls _)]
  cases out <;> cases entry <;> simp

theorem any_after (h : Effect env w w' pos out entry onGround rest) :
    (∃ r ∈ (w'.tile pos).allItems, k.isKind (w'.item r) = true) ↔
      (∃ r, entry = some r ∧ k.isKind (w.item r) = true) ∨
        ∃ r ∈ rest, k.isKind (w.item r) = true := by
  simp only [h.after.mem_iff, isKind_of_cls (h.cls _), List.mem_append, Option.mem_toList,
    or_and_right, exists_or]

theorem any_before (h : Effect env w w' pos out entry onGround rest) :
    (∃ r ∈ (w.tile pos).allItems, k.isKind (w.item r) = true) ↔
      (∃ r, out = some r ∧ k.isKind (w.item r) = true) ∨
        ∃ r ∈ rest, k.isKind (w.item r) = true := by
  simp only [h.before.mem_iff, List.mem_append, Option.mem_toList, or_and_right, exists_or]

theorem any_vector_after (h : Effect env w w' pos out entry onGround rest) :
    (∃ r ∈ (w'.tile pos).itemVector, k.isKind (w'.item r) = true) ↔
      (∃ r, entry = some r ∧ onGround = false ∧ k.isKind (w.item r) = true) ∨
        ∃ r ∈ (w.tile pos).itemVector, out ≠ some r ∧ k.isKind (w.item r) = true := by
  simp only [h.vector, isKind_of_cls (h.cls _), or_and_right, and_assoc, exists_or]

theorem shows_iff : Shows k w pos ↔
    ((∃ r ∈ (w.tile pos).allItems, k.isKind (w.item r) = true) →
      (w.tile pos).flags k.flag = true ∧
        ∃ r ∈ k.seen (w.tile pos), k.isKind (w.item r) = true) := by
  rw [Shows, get_isSome]
  constructor
  · exact fun h => h.mpr
  · rintro h
    refine ⟨?_, h⟩
    rintro ⟨-, r, hr, hk⟩
    exact ⟨r, seen_subset hr, hk⟩

end Effects

section Steps

variable {env : Env} {k : Special} {w : World} {pos : Position} {op : Op}

theorem Spares.of_shows (hnodup : (w.tile pos).allItems.Nodup) (hop : op.Valid w pos)
    (h : Shows k (op.apply env w pos) pos) : Spares env k pos w op := by
  obtain ⟨rest, heffect⟩ := Op.apply_effect env hnodup hop
  have hafter := shows_iff.mp h
  refine ⟨fun r hr hk => ?_, fun hkind hground r hr hk => ?_⟩
  · by_contra hnot
    rw [not_or] at hnot
    obtain ⟨hentry, hstay⟩ := hnot
    simp only [not_forall, Bool.not_eq_false] at hstay
    obtain ⟨r', hr', hne, hk'⟩ := hstay
    have hrest : r' ∈ rest := by
      have := heffect.before.mem_iff.mp hr'
      rw [hr] at this
      exact (List.mem_cons.mp this).resolve_left hne
    have hflag := (hafter ((any_after heffect).mpr (.inr ⟨r', hrest, hk'⟩))).1
    rcases (flag_of_effect heffect).mp hflag with ⟨-, hout⟩ | hin
    · rw [hout r hr] at hk
      cases hk
    · exact hentry hin
  · have hseen := (hafter ((any_after heffect).mpr (.inl ⟨r, hr, hk⟩))).2
    rw [seen, if_pos hkind] at hseen
    rcases (any_vector_after heffect).mp hseen with ⟨-, -, hfalse, -⟩ | hold
    · rw [hground] at hfalse
      cases hfalse
    · exact hold

theorem Spares.shows (hnodup : (w.tile pos).allItems.Nodup) (hop : op.Valid w pos)
    (hw : Shows k w pos) (h : Spares env k pos w op) :
    Shows k (op.apply env w pos) pos := by
  obtain ⟨rest, heffect⟩ := Op.apply_effect env hnodup hop
  have hmem : ∀ r ∈ rest, r ∈ (w.tile pos).allItems ∧
      op.leaving env w (w.tile pos) ≠ some r := by
    intro r hr
    refine ⟨heffect.before.mem_iff.mpr (List.mem_append_right _ hr), fun hout => ?_⟩
    have := heffect.before.nodup_iff.mp hnodup
    rw [hout] at this
    exact (List.nodup_cons.mp this).1 hr
  -- without an item that comes in, none of the kind has left if one stays
  have hstays : ∀ r ∈ rest, k.isKind (w.item r) = true →
      (∀ r', op.entering env w (w.tile pos) = some r' → k.isKind (w.item r') = false) →
        ∀ r', op.leaving env w (w.tile pos) = some r' → k.isKind (w.item r') = false := by
    intro r hr hk hentry r' hr'
    by_contra hk'
    rcases h.leaving r' hr' (by simpa using hk') with ⟨r'', hr'', hk''⟩ | hnone
    · rw [hentry r'' hr''] at hk''
      cases hk''
    · rw [hnone r (hmem r hr).1 fun he => (hmem r hr).2 (he ▸ hr')] at hk
      cases hk
  refine shows_iff.mpr fun hall => ?_
  by_cases hentry : ∃ r, op.entering env w (w.tile pos) = some r ∧ k.isKind (w.item r) = true
  · refine ⟨(flag_of_effect heffect).mpr (.inr hentry), ?_⟩
    unfold seen
    split_ifs with hkind
    · obtain ⟨r, hr, hk⟩ := hentry
      rw [any_vector_after heffect]
      cases hground : op.onGround env w (w.tile pos) with
      | true => exact .inr (h.entering hkind hground r hr hk)
      | false => exact .inl ⟨r, hr, rfl, hk⟩
    · exact hall
  · obtain ⟨r, hr, hk⟩ := ((any_after heffect).mp hall).resolve_left hentry
    have hbefore := (any_before heffect).mpr (.inr ⟨r, hr, hk⟩)
    have hout := hstays r hr hk (by simpa using hentry)
    obtain ⟨hflag, hseen⟩ := shows_iff.mp hw hbefore
    refine ⟨(flag_of_effect heffect).mpr (.inl ⟨hflag, hout⟩), ?_⟩
    unfold seen at hseen ⊢
    split_ifs at hseen ⊢
    · obtain ⟨v, hv, hkv⟩ := hseen
      refine (any_vector_after heffect).mpr (.inr ⟨v, hv, fun he => ?_, hkv⟩)
      rw [hout v he] at hkv
      cases hkv
    · exact hall

end Steps

section Runs

variable {env : Env} {k : Special} {w : World} {pos : Position}

theorem shows_of_reachable
    (h : Run.ReachableBy (operations env pos) (Spares env k pos) w) :
    (w.tile pos).allItems.Nodup ∧ Shows k w pos := by
  refine Run.ReachableBy.invariant
    (I := fun w => (w.tile pos).allItems.Nodup ∧ Shows k w pos)
    (fun w (hw : w.tile pos = Tile.empty) => ⟨?_, shows_iff.mpr ?_⟩) ?_ h
  · simp [hw, Tile.empty, allItems, itemVector]
  · simp [hw, Tile.empty, allItems, itemVector]
  · rintro w op w' ⟨hnodup, hshows⟩ hspares ⟨hop, rfl⟩
    obtain ⟨rest, heffect⟩ := Op.apply_effect env hnodup hop
    exact ⟨heffect.nodup hnodup, hspares.shows hnodup hop hshows⟩

/-- The getters agree with the tile along every run that spares the items of their kind, and the
first operation that does not spare them breaks the agreement. -/
theorem getters_of_reachable :
    ∀ k w, Run.ReachableBy (operations env pos) (Spares env k pos) w →
      Shows k w pos ∧
      ∀ op : Op, op.Valid w pos → (Shows k (op.apply env w pos) pos ↔ Spares env k pos w op) := by
  intro k w h
  obtain ⟨hnodup, hshows⟩ := shows_of_reachable h
  exact ⟨hshows, fun op hop =>
    ⟨Spares.of_shows hnodup hop, fun hspares => hspares.shows hnodup hop hshows⟩⟩

end Runs

/-! Two teleports on one tile. -/

def forcefield : ItemType := { ItemType.default with type := .teleport, id := 1387 }

def portalEnv : Env := Env.quiet (Items.ofEntries [forcefield])

def portalPos : Position := { x := 100, y := 100, z := 7 }

def portalWorld : World :=
  World.ofItems [Item.new portalEnv.items 1387 0 .teleport, Item.new portalEnv.items 1387 0 .teleport]

def onePortal : World := Op.apply portalEnv portalWorld portalPos (.addThing 0)

def twoPortals : World := Op.apply portalEnv onePortal portalPos (.addThing 1)

theorem portalWorld_init : (operations portalEnv portalPos).init portalWorld := rfl

theorem portal_valid : Op.Valid portalWorld portalPos (.addThing 0) ∧
    Op.Valid onePortal portalPos (.addThing 1) := by
  constructor
  · exact List.not_mem_nil
  · change 1 ∉ (onePortal.tile portalPos).allItems
    decide

theorem getTeleportItem_of_two :
    let w := Op.apply portalEnv twoPortals portalPos (.removeThing 0 1)
    Run.Reachable (operations portalEnv portalPos) w ∧
      getTeleportItem w (w.tile portalPos) = none ∧ 1 ∈ (w.tile portalPos).allItems ∧
      ¬ Shows .teleport w portalPos := by
  have hone := Tile.reachable_apply (.init portalWorld_init) (.addThing 0) portal_valid.1
  have htwo := Tile.reachable_apply hone (.addThing 1) portal_valid.2
  refine ⟨Tile.reachable_apply htwo (.removeThing 0 1) trivial, by decide, by decide, fun h => ?_⟩
  exact absurd (h.mpr ⟨1, by decide, by decide⟩) (by decide)

theorem getters_of_portal :
    Shows .teleport onePortal portalPos ∧
      (Shows .teleport (Op.apply portalEnv onePortal portalPos (.removeThing 0 1)) portalPos ↔
        Spares portalEnv .teleport portalPos onePortal (.removeThing 0 1)) := by
  have hspares : Spares portalEnv .teleport portalPos portalWorld (.addThing 0) := by
    refine ⟨fun r hr => ?_, fun _ hground => ?_⟩
    · have hnone : Op.leaving portalEnv portalWorld (portalWorld.tile portalPos) (.addThing 0) =
          none := by decide
      rw [hnone] at hr
      cases hr
    · exact absurd hground (by decide)
  have h := getters_of_reachable .teleport onePortal
    (.step (.init portalWorld_init) hspares ⟨portal_valid.1, rfl⟩)
  exact ⟨h.1, h.2 (.removeThing 0 1) trivial⟩

end Special

end Eloth.Tile
