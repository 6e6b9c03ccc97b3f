import Mathlib.Algebra.BigOperators.Group.Finset.Basic
import Eloth.KnownCreatures
import Eloth.SpectatorCache

/-!
# The target and friend lists of the monsters

A monster remembers the creatures in its view that it may attack and those that are its friends,
and every entry of the two lists holds a reference on its creature. The lists change when a loop
over the spectators tells the monster that a creature has appeared, moved or is being removed.
-/

namespace Eloth

inductive CreatureKind where
  | player
  | monster
  | npc
  deriving DecidableEq

inductive MonsterList where
  | targetList
  | friendList
  deriving DecidableEq

/-- What the monsters ask about a creature. The last flag is that of the removal's end. -/
structure CreatureState where
  kind : CreatureKind
  position : MapPosition
  health : Int32 := 100
  master : Option CreatureId := none
  ignoredByMonsters : Bool := false
  party : Option Nat := none
  hasAggressiveCondition : Bool := false
  isRemoved : Bool := false
  deriving DecidableEq

/-- What a loop over the spectators tells them. -/
inductive Telling where
  | onCreatureAppear (creature : CreatureId)
  | onCreatureMove (creature : CreatureId) (oldPos newPos : MapPosition)
  | onRemoveCreature (creature : CreatureId)
  deriving DecidableEq

/-- The creature that a loop is about. -/
def Telling.creature : Telling → CreatureId
  | onCreatureAppear creature => creature
  | onCreatureMove creature _ _ => creature
  | onRemoveCreature creature => creature

/-- The creatures placed so far, those on the map, the lists, the reference counters with the part
that the rest of the program holds, and the loops that have not ended, the innermost one first, with
the spectators that are still to be told. -/
structure MonsterLists where
  creatures : Finset CreatureId := ∅
  creature : CreatureId → CreatureState
  onMap : CreatureId → Bool := fun _ => false
  lists : CreatureId → MonsterList → List CreatureId := fun _ _ => []
  referenceCounter : CreatureId → Nat := fun _ => 0
  held : CreatureId → Nat := fun _ => 0
  loops : List (Telling × List CreatureId) := []

/-- `Creature::canSee` with the view ranges. -/
def creatureCanSee (myPos pos : MapPosition) (viewRangeX viewRangeY : Int) : Bool :=
  let offsetz : Int := myPos.z.toNat - pos.z.toNat
  let inView : Bool :=
    myPos.x.toNat - viewRangeX + offsetz ≤ pos.x.toNat &&
      pos.x.toNat ≤ myPos.x.toNat + viewRangeX + offsetz &&
      myPos.y.toNat - viewRangeY + offsetz ≤ pos.y.toNat &&
      pos.y.toNat ≤ myPos.y.toNat + viewRangeY + offsetz
  if myPos.z ≤ 7 then
    if pos.z > 7 then false else inView
  else
    if pos.z < 8 then false
    else if offsetz.natAbs > 2 then false
    else inView

namespace MonsterLists

variable (w : MonsterLists) (m c : CreatureId)

def targetList : List CreatureId := w.lists m .targetList

def friendList : List CreatureId := w.lists m .friendList

def canSee (pos : MapPosition) : Bool :=
  creatureCanSee (w.creature m).position pos (maxClientViewportX + 1) (maxClientViewportX + 1)

def isSummon : Bool := (w.creature m).master.isSome

def getPlayer : Option CreatureId :=
  if (w.creature c).kind = .player then some c else none

/-- The player that is the master, if there is one. -/
def masterPlayer : Option CreatureId := (w.creature m).master.bind w.getPlayer

def isPartner (p player : CreatureId) : Bool :=
  (w.creature p).party.isSome && player ≠ p && (w.creature p).party = (w.creature player).party

def isFriend : Bool :=
  match w.masterPlayer m with
  | some masterPlayer =>
    match (w.getPlayer c).or (w.masterPlayer c) with
    | some tmpPlayer => tmpPlayer = masterPlayer || w.isPartner masterPlayer tmpPlayer
    | none => false
  | none => (w.creature c).kind = .monster && !w.isSummon c

def isOpponent : Bool :=
  match w.masterPlayer m with
  | some masterPlayer => c ≠ masterPlayer
  | none =>
    ((w.creature c).kind = .player && !(w.creature c).ignoredByMonsters) ||
      (w.masterPlayer c).isSome

/-! ## The lists -/

def incrementReferenceCounter : MonsterLists :=
  { w with referenceCounter := Function.update w.referenceCounter c (w.referenceCounter c + 1) }

def decrementReferenceCounter : MonsterLists :=
  { w with referenceCounter := Function.update w.referenceCounter c (w.referenceCounter c - 1) }

def setList (list : MonsterList) (l : List CreatureId) : MonsterLists :=
  { w with lists := Function.update w.lists m (Function.update (w.lists m) list l) }

/-- `addFriend` and `addTarget`. -/
def addTo (list : MonsterList) (pushFront : Bool) : MonsterLists :=
  if c ∈ w.lists m list then w
  else
    (w.incrementReferenceCounter c).setList m list
      (if pushFront then c :: w.lists m list else w.lists m list ++ [c])

/-- `removeFriend` and `removeTarget`. -/
def removeFrom (list : MonsterList) : MonsterLists :=
  if c ∈ w.lists m list then
    (w.decrementReferenceCounter c).setList m list ((w.lists m list).erase c)
  else w

/-- The loop that drops the entries of a list. -/
def dropFrom (list : MonsterList) (p : CreatureId → Bool) : MonsterLists :=
  (((w.lists m list).filter p).foldl decrementReferenceCounter w).setList m list
    ((w.lists m list).filter fun c => !p c)

def addFriend : MonsterLists := w.addTo m c .friendList false

def addTarget (pushFront : Bool) : MonsterLists := w.addTo m c .targetList pushFront

def removeFriend : MonsterLists := w.removeFrom m c .friendList

def removeTarget : MonsterLists := w.removeFrom m c .targetList

def clearTargetList : MonsterLists := w.dropFrom m .targetList fun _ => true

def clearFriendList : MonsterLists := w.dropFrom m .friendList fun _ => true

def setIdle (idle : Bool) : MonsterLists :=
  if (w.creature m).isRemoved || (w.creature m).health ≤ 0 then w
  else if idle then (w.clearTargetList m).clearFriendList m
  else w

def updateIdleStatus : MonsterLists :=
  w.setIdle m (!w.isSummon m && (w.targetList m).isEmpty && !(w.creature m).hasAggressiveCondition)

def onCreatureFound (pushFront : Bool) : MonsterLists :=
  if w.canSee m (w.creature c).position then
    let w := if w.isFriend m c then w.addFriend m c else w
    let w := if w.isOpponent m c then w.addTarget m c pushFront else w
    w.updateIdleStatus m
  else w

def onCreatureEnter : MonsterLists := w.onCreatureFound m c true

def onCreatureLeave : MonsterLists :=
  let w := if w.isFriend m c then w.removeFriend m c else w
  if w.isOpponent m c then (w.removeTarget m c).updateIdleStatus m else w

/-- The update of the monster's lists with the spectators that the search finds. -/
def updateTargetList (spectators : List CreatureId) : MonsterLists :=
  let lost c := (w.creature c).health ≤ 0 || !w.canSee m (w.creature c).position
  let w := (w.dropFrom m .friendList lost).dropFrom m .targetList lost
  (spectators.erase m).foldl (fun w c => w.onCreatureFound m c false) w

/-- A path search for the followed creature has ended. -/
def onFollowCreatureComplete (hasFollowPath : Bool) : MonsterLists :=
  if c ∈ w.targetList m then
    let targetList := (w.targetList m).erase c
    if hasFollowPath then w.setList m .targetList (c :: targetList)
    else if !w.isSummon m then w.setList m .targetList (targetList ++ [c])
    else (w.setList m .targetList targetList).decrementReferenceCounter c
  else w

/-- `Monster::death` clears both lists. -/
def death : MonsterLists := (w.clearTargetList m).clearFriendList m

/-! ## The loops over the spectators -/

def setCreature (state : CreatureState) : MonsterLists :=
  { w with creature := Function.update w.creature c state }

/-- `Creature::onRemoveCreature`: the creature that is removed leaves its master. -/
def leaveMaster : MonsterLists :=
  match (w.creature c).master with
  | some master =>
    if (w.creature master).isRemoved then w
    else w.setCreature c { w.creature c with master := none }
  | none => w

/-- The part of `Creature` in what a spectator is told. -/
def toldCreature (t : Telling) : MonsterLists :=
  match t with
  | .onRemoveCreature c => if c = m then w.leaveMaster m else w
  | _ => w

/-- The part of `Monster`. For its own arrival and its own moves the monster searches the
spectators around it. -/
def toldMonster (t : Telling) (found : List CreatureId) : MonsterLists :=
  match t with
  | .onCreatureAppear c =>
    if c = m then (w.updateTargetList m found).updateIdleStatus m
    else w.onCreatureEnter m c
  | .onRemoveCreature c =>
    if c = m then w.setIdle m true
    else w.onCreatureLeave m c
  | .onCreatureMove c oldPos newPos =>
    if c = m then (w.updateTargetList m found).updateIdleStatus m
    else
      let seen :=
        if w.canSee m newPos && !w.canSee m oldPos then w.onCreatureEnter m c
        else if !w.canSee m newPos && w.canSee m oldPos then w.onCreatureLeave m c
        else w
      seen.updateIdleStatus m

/-- The spectator is told. A script of the monster may take the event over. -/
def tell (t : Telling) (takenOver : Bool) (found : List CreatureId) : MonsterLists :=
  let w := w.toldCreature m t
  if (w.creature m).kind ≠ .monster ∨ takenOver then w else w.toldMonster m t found

/-- What `getSpectators` finds around a position, in any order. -/
def Spectators (pos : MapPosition) (spectators : List CreatureId) : Prop :=
  spectators.Nodup ∧ ∀ c, c ∈ spectators ↔
    w.onMap c = true ∧ (CachedMap.around pos).range.contains pos (w.creature c).position = true

inductive Event where
  | placeCreature (c : CreatureId) (state : CreatureState) (spectators : List CreatureId)
  | moveCreature (c : CreatureId) (newPos : MapPosition) (oldSpectators newSpectators :
      List CreatureId)
  | removeCreature (c : CreatureId) (spectators : List CreatureId)
  | tell (takenOver : Bool) (found : List CreatureId)
  | endLoop
  | change (c : CreatureId) (state : CreatureState)
  | updateIdleStatus (m : CreatureId)
  | death (m : CreatureId)
  | onFollowCreatureComplete (m c : CreatureId) (hasFollowPath : Bool)
  | hold (c : CreatureId)
  | release (c : CreatureId)

def placeCreature (state : CreatureState) : MonsterLists :=
  { w with
    creatures := insert c w.creatures
    creature := Function.update w.creature c state
    onMap := Function.update w.onMap c true
    referenceCounter := Function.update w.referenceCounter c (w.referenceCounter c + 1)
    held := Function.update w.held c (w.held c + 1) }

def moveCreature (newPos : MapPosition) : MonsterLists :=
  w.setCreature c { w.creature c with position := newPos }

/-- The removal from the tile. -/
def takeOff : MonsterLists := { w with onMap := Function.update w.onMap c false }

def begin (t : Telling) (spectators : List CreatureId) : MonsterLists :=
  { w with loops := (t, spectators) :: w.loops }

/-- The end of the innermost loop; that of a removal marks the creature. -/
def endLoop (t : Telling) (rest : List (Telling × List CreatureId)) : MonsterLists :=
  match t with
  | .onRemoveCreature c =>
    { w.setCreature c { w.creature c with isRemoved := true } with loops := rest }
  | _ => { w with loops := rest }

/-- The steps. Creatures are placed and moved while no loop runs; a creature may be removed inside
a loop, as the summons that lose sight of their master are, but not the one that the loop is
about. -/
inductive Step : MonsterLists → Event → MonsterLists → Prop
  | placeCreature {w : MonsterLists} {c : CreatureId} {state : CreatureState}
      {spectators : List CreatureId} (hloops : w.loops = []) (hnew : c ∉ w.creatures)
      (hstate : state.isRemoved = false) (hz : state.position.z.toNat < MAP_MAX_LAYERS)
      (h : (w.placeCreature c state).Spectators state.position spectators) :
      Step w (.placeCreature c state spectators)
        ((w.placeCreature c state).begin (.onCreatureAppear c) spectators)
  | moveCreature {w : MonsterLists} {c : CreatureId} {newPos : MapPosition}
      {oldSpectators newSpectators : List CreatureId} (hloops : w.loops = [])
      (hmap : w.onMap c = true) (hz : newPos.z.toNat < MAP_MAX_LAYERS)
      (hold : w.Spectators (w.creature c).position oldSpectators)
      (hnew : w.Spectators newPos newSpectators) :
      Step w (.moveCreature c newPos oldSpectators newSpectators)
        ((w.moveCreature c newPos).begin (.onCreatureMove c (w.creature c).position newPos)
          (addSpectators oldSpectators newSpectators))
  | removeCreature {w : MonsterLists} {c : CreatureId} {spectators : List CreatureId}
      (hmap : w.onMap c = true) (hloops : ∀ l ∈ w.loops, l.1.creature ≠ c)
      (h : w.Spectators (w.creature c).position spectators) :
      Step w (.removeCreature c spectators) ((w.takeOff c).begin (.onRemoveCreature c) spectators)
  | tell {w : MonsterLists} {t : Telling} {m : CreatureId} {spectators found : List CreatureId}
      {rest : List (Telling × List CreatureId)} {takenOver : Bool}
      (hloops : w.loops = (t, m :: spectators) :: rest)
      (h : w.Spectators (w.creature m).position found) :
      Step w (.tell takenOver found)
        { w.tell m t takenOver found with loops := (t, spectators) :: rest }
  | endLoop {w : MonsterLists} {t : Telling} {rest : List (Telling × List CreatureId)}
      (hloops : w.loops = (t, []) :: rest) : Step w .endLoop (w.endLoop t rest)
  | change {w : MonsterLists} {c : CreatureId} {state : CreatureState}
      (hkind : state.kind = (w.creature c).kind) (hpos : state.position = (w.creature c).position)
      (hremoved : state.isRemoved = (w.creature c).isRemoved) :
      Step w (.change c state) (w.setCreature c state)
  | updateIdleStatus {w : MonsterLists} {m : CreatureId} (hm : m ∈ w.creatures) :
      Step w (.updateIdleStatus m) (w.updateIdleStatus m)
  | death {w : MonsterLists} {m : CreatureId} (hm : m ∈ w.creatures) :
      Step w (.death m) (w.death m)
  | onFollowCreatureComplete {w : MonsterLists} {m c : CreatureId} {hasFollowPath : Bool}
      (hm : m ∈ w.creatures) :
      Step w (.onFollowCreatureComplete m c hasFollowPath)
        (w.onFollowCreatureComplete m c hasFollowPath)
  | hold {w : MonsterLists} {c : CreatureId} : Step w (.hold c)
      { w.incrementReferenceCounter c with held := Function.update w.held c (w.held c + 1) }
  | release {w : MonsterLists} {c : CreatureId} (hheld : 0 < w.held c) : Step w (.release c)
      { w.decrementReferenceCounter c with held := Function.update w.held c (w.held c - 1) }

def system : Run.System MonsterLists Event where
  init w := ∃ creature, w = { creature := creature }
  step := Step

/-- How many entries of the monster's lists the creature has. -/
def entries : Nat := (w.targetList m).count c + (w.friendList m).count c

def Listed : Prop := c ∈ w.targetList m ∨ c ∈ w.friendList m

/-! ## What a change of the lists of one monster keeps -/

/-- Only the lists of the monster and the counters change, with one reference for every entry, and
the entries that come in satisfy the predicate. -/
structure Edits (m : CreatureId) (p : CreatureId → Prop) (w w' : MonsterLists) : Prop where
  frame : ∃ lists counter, w' = { w with
    lists := Function.update w.lists m lists, referenceCounter := counter }
  nodup : (∀ list, (w.lists m list).Nodup) → ∀ list, (w'.lists m list).Nodup
  balanced : ∀ others : CreatureId → Nat, (∀ c, w.referenceCounter c = others c + w.entries m c) →
    ∀ c, w'.referenceCounter c = others c + w'.entries m c
  mem : ∀ list c, c ∈ w'.lists m list → c ∈ w.lists m list ∨ p c

variable {w m c} {w' u : MonsterLists} {p q : CreatureId → Prop} {list : MonsterList}

theorem Edits.refl : Edits m p w w where
  frame := ⟨w.lists m, w.referenceCounter, by rw [Function.update_eq_self]⟩
  nodup := id
  balanced _ h := h
  mem _ _ := .inl

theorem Edits.trans (h : Edits m p w w') (h' : Edits m p w' u) : Edits m p w u where
  frame := by
    obtain ⟨lists, counter, rfl⟩ := h.frame
    obtain ⟨lists', counter', rfl⟩ := h'.frame
    exact ⟨lists', counter', by simp⟩
  nodup hnodup := h'.nodup (h.nodup hnodup)
  balanced others hcount := h'.balanced others (h.balanced others hcount)
  mem list c hc := (h'.mem list c hc).elim (h.mem list c) .inr

theorem Edits.mono (h : Edits m p w w') (hle : ∀ c, p c → q c) : Edits m q w w' where
  frame := h.frame
  nodup := h.nodup
  balanced := h.balanced
  mem list c hc := (h.mem list c hc).imp_right (hle c)

theorem Edits.creature (h : Edits m p w w') : w'.creature = w.creature := by
  obtain ⟨lists, counter, rfl⟩ := h.frame
  rfl

theorem lists_setList (l : List CreatureId) (list' : MonsterList) :
    (w.setList m list l).lists m list' = if list' = list then l else w.lists m list' := by
  simp [setList, Function.update_apply]

/-- A change of one of the lists. -/
theorem edits_setList {l : List CreatureId} {counter : CreatureId → Nat}
    (hnodup : (w.lists m list).Nodup → l.Nodup)
    (hcount : ∀ c, counter c + (w.lists m list).count c = w.referenceCounter c + l.count c ∨
      w.referenceCounter c < (w.lists m list).count c)
    (hmem : ∀ c ∈ l, c ∈ w.lists m list ∨ p c) :
    Edits m p w ({ w with referenceCounter := counter }.setList m list l) where
  frame := ⟨_, counter, rfl⟩
  nodup h list' := by
    rw [lists_setList]
    split_ifs with hlist
    · exact hnodup (h list)
    · exact h list'
  balanced others h c := by
    have hc := h c
    simp only [entries, targetList, friendList, lists_setList] at hc ⊢
    change counter c = _
    cases list with
    | targetList =>
      simp only [reduceCtorEq, ↓reduceIte]
      rcases hcount c with heq | hless <;> omega
    | friendList =>
      simp only [reduceCtorEq, ↓reduceIte]
      rcases hcount c with heq | hless <;> omega
  mem list' c hc := by
    rw [lists_setList] at hc
    split_ifs at hc with hlist
    · subst hlist
      exact hmem c hc
    · exact .inl hc

theorem edits_addTo (pushFront : Bool) : Edits m (· = c) w (w.addTo m c list pushFront) := by
  unfold addTo
  by_cases hmem : c ∈ w.lists m list
  · rw [if_pos hmem]
    exact .refl
  · rw [if_neg hmem]
    have hperm : (if pushFront then c :: w.lists m list else w.lists m list ++ [c]).Perm
        (c :: w.lists m list) := by
      split_ifs
      · exact .refl _
      · exact List.perm_append_singleton c _
    refine edits_setList (fun h => ?_) (fun d => .inl ?_) fun d hd => ?_
    · exact hperm.nodup_iff.mpr (List.nodup_cons.mpr ⟨hmem, h⟩)
    · rw [hperm.count_eq, List.count_cons, Function.update_apply]
      by_cases hd : d = c
      · subst hd
        simp
        omega
      · simp [hd, Ne.symm hd]
    · exact (List.mem_cons.mp (hperm.mem_iff.mp hd)).symm

theorem edits_removeFrom : Edits m (fun _ => False) w (w.removeFrom m c list) := by
  unfold removeFrom
  by_cases hmem : c ∈ w.lists m list
  · rw [if_pos hmem]
    refine edits_setList (fun h => h.erase c) (fun d => ?_) fun d hd => .inl (List.mem_of_mem_erase hd)
    rw [Function.update_apply, List.count_erase]
    have hpos : 0 < (w.lists m list).count c := List.count_pos_iff.mpr hmem
    by_cases hd : d = c
    · subst hd
      simp
      omega
    · simp [hd, Ne.symm hd]
  · rw [if_neg hmem]
    exact .refl

theorem foldl_decrement (l : List CreatureId) (w : MonsterLists) :
    l.foldl decrementReferenceCounter w =
      { w with referenceCounter := fun c => w.referenceCounter c - l.count c } := by
  induction l generalizing w with
  | nil => rfl
  | cons d rest ih =>
    rw [List.foldl_cons, ih, decrementReferenceCounter]
    congr 1
    funext c
    dsimp only
    rw [List.count_cons, Function.update_apply]
    by_cases hd : c = d
    · subst hd
      simp
      omega
    · simp [hd, Ne.symm hd]

theorem edits_dropFrom (lost : CreatureId → Bool) :
    Edits m (fun _ => False) w (w.dropFrom m list lost) := by
  unfold dropFrom
  rw [foldl_decrement]
  refine edits_setList (fun h => h.filter _) (fun d => ?_) fun d hd => .inl (List.mem_of_mem_filter hd)
  have hcount : (w.lists m list).count d = ((w.lists m list).filter lost).count d +
      ((w.lists m list).filter fun c => !lost c).count d :=
    List.countP_eq_countP_filter_add _ _ _
  omega

theorem lists_dropFrom (lost : CreatureId → Bool) (list' : MonsterList) :
    (w.dropFrom m list lost).lists m list' =
      if list' = list then (w.lists m list).filter fun c => !lost c else w.lists m list' := by
  rw [dropFrom, lists_setList, foldl_decrement]

theorem edits_setIdle (idle : Bool) : Edits m (fun _ => False) w (w.setIdle m idle) := by
  unfold setIdle
  split_ifs
  · exact .refl
  · exact (edits_dropFrom _).trans (edits_dropFrom _)
  · exact .refl

theorem edits_updateIdleStatus : Edits m (fun _ => False) w (w.updateIdleStatus m) :=
  edits_setIdle _

theorem edits_onCreatureFound (pushFront : Bool) :
    Edits m (fun d => d = c ∧ w.canSee m (w.creature c).position) w
      (w.onCreatureFound m c pushFront) := by
  unfold onCreatureFound
  by_cases hsee : w.canSee m (w.creature c).position = true
  · rw [if_pos hsee]
    dsimp only
    have hfriend : Edits m (fun d => d = c) w
        (if w.isFriend m c then w.addFriend m c else w) := by
      split_ifs
      · exact edits_addTo _
      · exact .refl
    generalize (if w.isFriend m c then w.addFriend m c else w) = w₁ at hfriend ⊢
    have htarget : Edits m (fun d => d = c) w₁
        (if w₁.isOpponent m c then w₁.addTarget m c pushFront else w₁) := by
      split_ifs
      · exact edits_addTo _
      · exact .refl
    refine ((hfriend.trans htarget).mono fun d hd => ⟨hd, hsee⟩).trans ?_
    exact edits_updateIdleStatus.mono fun _ => False.elim
  · rw [if_neg hsee]
    exact .refl

theorem edits_onCreatureLeave : Edits m (fun _ => False) w (w.onCreatureLeave m c) := by
  unfold onCreatureLeave
  dsimp only
  have hfriend : Edits m (fun _ => False) w
      (if w.isFriend m c then w.removeFriend m c else w) := by
    split_ifs
    · exact edits_removeFrom
    · exact .refl
  generalize (if w.isFriend m c then w.removeFriend m c else w) = w₁ at hfriend ⊢
  refine hfriend.trans ?_
  split_ifs
  · exact edits_removeFrom.trans edits_updateIdleStatus
  · exact .refl

/-- The creatures that a monster finds come in when it can see them. -/
theorem edits_foldl (spectators : List CreatureId) (w : MonsterLists) :
    Edits m (fun d => d ∈ spectators ∧ w.canSee m (w.creature d).position) w
      (spectators.foldl (fun w c => w.onCreatureFound m c false) w) := by
  induction spectators generalizing w with
  | nil => exact .refl
  | cons c rest ih =>
    rw [List.foldl_cons]
    have hfirst : Edits m _ w (w.onCreatureFound m c false) := edits_onCreatureFound false
    refine (hfirst.mono ?_).trans ((ih (w.onCreatureFound m c false)).mono ?_)
    · rintro d ⟨rfl, hsee⟩
      exact ⟨List.mem_cons_self, hsee⟩
    · rintro d ⟨hd, hsee⟩
      rw [canSee, hfirst.creature] at hsee
      exact ⟨List.mem_cons_of_mem _ hd, hsee⟩

theorem edits_updateTargetList (spectators : List CreatureId) :
    Edits m (fun d => d ∈ spectators ∧ w.canSee m (w.creature d).position) w
      (w.updateTargetList m spectators) := by
  unfold updateTargetList
  dsimp only
  generalize hlost : (fun c => (w.creature c).health ≤ 0 || !w.canSee m (w.creature c).position) =
    lost
  have hdrop : Edits m (fun _ => False) w
      ((w.dropFrom m .friendList lost).dropFrom m .targetList lost) :=
    (edits_dropFrom lost).trans (edits_dropFrom lost)
  refine (hdrop.mono fun _ => False.elim).trans ((edits_foldl _ _).mono ?_)
  rintro d ⟨hd, hsee⟩
  rw [canSee, hdrop.creature] at hsee
  exact ⟨List.mem_of_mem_erase hd, hsee⟩

/-- After its own move a monster lists only creatures in its view. -/
theorem listed_updateTargetList (spectators : List CreatureId)
    (h : c ∈ (w.updateTargetList m spectators).lists m list) :
    w.canSee m (w.creature c).position := by
  unfold updateTargetList at h
  dsimp only at h
  generalize hlost : (fun c => decide ((w.creature c).health ≤ 0) ||
    !w.canSee m (w.creature c).position) = lost at h
  have hdrop : Edits m (fun _ => False) w
      ((w.dropFrom m .friendList lost).dropFrom m .targetList lost) :=
    (edits_dropFrom lost).trans (edits_dropFrom lost)
  rcases (edits_foldl _ _).mem list c h with hmem | ⟨-, hsee⟩
  · have hkept : lost c = false := by
      cases list with
      | targetList =>
        rw [lists_dropFrom, if_pos rfl] at hmem
        simpa using List.of_mem_filter hmem
      | friendList =>
        rw [lists_dropFrom, if_neg (by decide), lists_dropFrom, if_pos rfl] at hmem
        simpa using List.of_mem_filter hmem
    subst hlost
    simp only [Bool.or_eq_false_iff, Bool.not_eq_false'] at hkept
    exact hkept.2
  · rwa [canSee, hdrop.creature] at hsee

/-! ## The monsters that are told of a creature that leaves -/

/-- The update of the idle status clears both lists. -/
def GoesIdle (w : MonsterLists) (m : CreatureId) : Prop :=
  w.isSummon m = false ∧ (w.creature m).hasAggressiveCondition = false ∧
    (w.creature m).isRemoved = false ∧ 0 < (w.creature m).health ∧ w.targetList m = []

/-- The monster goes idle when the creature is no target any more. -/
def FallsIdle (w : MonsterLists) (m c : CreatureId) : Prop :=
  w.isSummon m = false ∧ (w.creature m).hasAggressiveCondition = false ∧
    (w.creature m).isRemoved = false ∧ 0 < (w.creature m).health ∧ (w.targetList m).erase c = []

/-- The monster still takes the creature for what it was when it came into the lists, or forgets it
with all others. After a move its idle status is updated whatever the creature is. -/
def Recognises (w : MonsterLists) (m c : CreatureId) (moved : Bool) : Prop :=
  (c ∈ w.targetList m → w.isOpponent m c) ∧
  (c ∈ w.friendList m → w.isFriend m c ∨ (moved ∨ w.isOpponent m c) ∧ w.FallsIdle m c)

theorem lists_removeFrom (w : MonsterLists) (m c : CreatureId) (list list' : MonsterList) :
    (w.removeFrom m c list).lists m list' =
      if list' = list then (w.lists m list).erase c else w.lists m list' := by
  unfold removeFrom
  by_cases hmem : c ∈ w.lists m list
  · rw [if_pos hmem, lists_setList]
    rfl
  · rw [if_neg hmem, List.erase_of_not_mem hmem]
    split_ifs with hlist
    · rw [hlist]
    · rfl

theorem updateIdleStatus_spec (w : MonsterLists) (m : CreatureId) :
    (w.GoesIdle m → ∀ list, (w.updateIdleStatus m).lists m list = []) ∧
    (¬ w.GoesIdle m → w.updateIdleStatus m = w) := by
  rw [updateIdleStatus, setIdle]
  by_cases hgone : (w.creature m).isRemoved || decide ((w.creature m).health ≤ 0)
  · rw [if_pos hgone]
    refine ⟨?_, fun _ => rfl⟩
    rintro ⟨-, -, hremoved, hhealth, -⟩
    simp [hremoved, Int32.not_le.mpr hhealth] at hgone
  · rw [if_neg hgone]
    simp only [Bool.or_eq_true, decide_eq_true_eq, not_or, Bool.not_eq_true, Int32.not_le] at hgone
    obtain ⟨hremoved, hhealth⟩ := hgone
    constructor
    · rintro ⟨hsummon, hcondition, -, -, htargets⟩ list
      rw [if_pos (by simp [hsummon, hcondition, htargets])]
      cases list <;> simp [clearTargetList, clearFriendList, lists_dropFrom]
    · intro hbusy
      rw [if_neg]
      intro hidle
      simp only [Bool.and_eq_true, Bool.not_eq_true', List.isEmpty_iff] at hidle
      exact hbusy ⟨hidle.1.1, hidle.2, hremoved, hhealth, hidle.1.2⟩

/-- The lists after the leave, without the update of the idle status. -/
def afterLeave (w : MonsterLists) (m c : CreatureId) : MonsterLists :=
  let w := if w.isFriend m c then w.removeFriend m c else w
  if w.isOpponent m c then w.removeTarget m c else w

theorem afterLeave_spec (w : MonsterLists) (m c : CreatureId) :
    (w.afterLeave m c).creature = w.creature ∧
    (w.afterLeave m c).targetList m =
      (if w.isOpponent m c then (w.targetList m).erase c else w.targetList m) ∧
    (w.afterLeave m c).friendList m =
      (if w.isFriend m c then (w.friendList m).erase c else w.friendList m) ∧
    w.onCreatureLeave m c =
      if w.isOpponent m c then (w.afterLeave m c).updateIdleStatus m else w.afterLeave m c := by
  have hedits : Edits m (fun _ => False) w (if w.isFriend m c then w.removeFriend m c else w) := by
    split_ifs
    · exact edits_removeFrom
    · exact .refl
  have htarget : (if w.isFriend m c then w.removeFriend m c else w).targetList m =
      w.targetList m := by
    split_ifs
    · simp [removeFriend, targetList, lists_removeFrom]
    · rfl
  have hfriend : (if w.isFriend m c then w.removeFriend m c else w).friendList m =
      if w.isFriend m c then (w.friendList m).erase c else w.friendList m := by
    split_ifs
    · simp [removeFriend, friendList, lists_removeFrom]
    · rfl
  rw [afterLeave, onCreatureLeave, ← hfriend, ← htarget]
  generalize (if w.isFriend m c then w.removeFriend m c else w) = w₁ at *
  have hopponent : w₁.isOpponent m c = w.isOpponent m c := by
    obtain ⟨lists, counter, rfl⟩ := hedits.frame
    rfl
  rw [hopponent]
  split_ifs
  · rw [removeTarget]
    refine ⟨edits_removeFrom.creature.trans hedits.creature, ?_, ?_, rfl⟩
    · rw [targetList, lists_removeFrom, if_pos rfl, targetList]
    · rw [friendList, lists_removeFrom, if_neg (by decide), friendList]
  · exact ⟨hedits.creature, rfl, rfl, rfl⟩

theorem listed_updateIdleStatus :
    (w.updateIdleStatus m).Listed m c ↔ w.Listed m c ∧ ¬ w.GoesIdle m := by
  obtain ⟨hidle, hbusy⟩ := updateIdleStatus_spec w m
  by_cases h : w.GoesIdle m
  · simp [Listed, targetList, friendList, hidle h, h]
  · simp [hbusy h, h]

/-- The creature that leaves stays in a list exactly when the monster does not recognise it. -/
theorem listed_onCreatureLeave (h : ∀ list, (w.lists m list).Nodup) (moved : Bool) :
    (if moved then (w.onCreatureLeave m c).updateIdleStatus m else w.onCreatureLeave m c).Listed
      m c ↔ ¬ w.Recognises m c moved := by
  obtain ⟨hcreature, htarget, hfriend, hleave⟩ := afterLeave_spec w m c
  have hlisted : (w.afterLeave m c).Listed m c ↔ (c ∈ w.targetList m ∧ w.isOpponent m c = false) ∨
      c ∈ w.friendList m ∧ w.isFriend m c = false := by
    rw [Listed, htarget, hfriend]
    have htargets : c ∉ (w.targetList m).erase c := (h .targetList).not_mem_erase
    have hfriends : c ∉ (w.friendList m).erase c := (h .friendList).not_mem_erase
    cases w.isOpponent m c <;> cases w.isFriend m c <;> simp [htargets, hfriends]
  have hidle : (w.afterLeave m c).GoesIdle m ↔ w.isSummon m = false ∧
      (w.creature m).hasAggressiveCondition = false ∧ (w.creature m).isRemoved = false ∧
      0 < (w.creature m).health ∧
      (if w.isOpponent m c then (w.targetList m).erase c else w.targetList m) = [] := by
    rw [GoesIdle, isSummon, hcreature, htarget]
    rfl
  rw [hleave, Recognises, FallsIdle]
  cases hopponent : w.isOpponent m c with
  | true =>
    rw [hopponent, if_pos rfl] at hidle
    have hstays : (if moved then ((w.afterLeave m c).updateIdleStatus m).updateIdleStatus m
        else (w.afterLeave m c).updateIdleStatus m).Listed m c ↔
        ((w.afterLeave m c).updateIdleStatus m).Listed m c := by
      cases moved with
      | false => rfl
      | true =>
        rw [if_pos rfl, listed_updateIdleStatus, and_iff_left_iff_imp]
        intro hstill
        have hbusy := (listed_updateIdleStatus.mp hstill).2
        rwa [(updateIdleStatus_spec _ m).2 hbusy]
    rw [if_pos rfl, hstays, listed_updateIdleStatus, hlisted, hidle, hopponent]
    cases w.isFriend m c <;> simp
  | false =>
    simp only [hopponent, Bool.false_eq_true, ↓reduceIte] at hidle hlisted ⊢
    cases moved with
    | false =>
      rw [if_neg (by decide), hlisted]
      simp
      tauto
    | true =>
      rw [if_pos rfl, listed_updateIdleStatus, hlisted, hidle]
      by_cases hmem : c ∈ w.targetList m
      · have hsome : w.targetList m ≠ [] := List.ne_nil_of_mem hmem
        simp [hmem, hsome]
      · have herase : (w.targetList m).erase c = w.targetList m := List.erase_of_not_mem hmem
        rw [herase]
        simp [hmem, and_assoc]

/-- Those that the search finds, and the creature that a loop is about unless it is being removed,
come in when the monster can see them. -/
def ComesIn (w : MonsterLists) (m : CreatureId) (t : Telling) (found : List CreatureId)
    (d : CreatureId) : Prop :=
  (d ∈ found ∨ d = t.creature ∧ t ≠ .onRemoveCreature d) ∧ w.canSee m (w.creature d).position = true

theorem edits_toldMonster (t : Telling) (found : List CreatureId) :
    Edits m (w.ComesIn m t found) w (w.toldMonster m t found) := by
  have hown : Edits m (w.ComesIn m t found) w ((w.updateTargetList m found).updateIdleStatus m) :=
    ((edits_updateTargetList found).mono fun d hd => ⟨.inl hd.1, hd.2⟩).trans
      (edits_updateIdleStatus.mono fun _ => False.elim)
  have henter (ht : t ≠ .onRemoveCreature t.creature) :
      Edits m (w.ComesIn m t found) w (w.onCreatureEnter m t.creature) := by
    refine (edits_onCreatureFound true).mono ?_
    rintro d ⟨rfl, hsee⟩
    exact ⟨.inr ⟨rfl, ht⟩, hsee⟩
  have hleave : Edits m (w.ComesIn m t found) w (w.onCreatureLeave m t.creature) :=
    edits_onCreatureLeave.mono fun _ => False.elim
  cases t with
  | onCreatureAppear c =>
    simp only [toldMonster]
    split_ifs
    · exact hown
    · exact henter (by simp)
  | onRemoveCreature c =>
    simp only [toldMonster]
    split_ifs
    · exact (edits_setIdle true).mono fun _ => False.elim
    · exact hleave
  | onCreatureMove c oldPos newPos =>
    simp only [toldMonster]
    by_cases hown' : c = m
    · rw [if_pos hown']
      exact hown
    · rw [if_neg hown']
      refine Edits.trans ?_ (edits_updateIdleStatus.mono fun _ => False.elim)
      split_ifs
      · exact henter (by simp)
      · exact hleave
      · exact .refl

theorem edits_onFollowCreatureComplete (hasFollowPath : Bool) :
    Edits m (fun _ => False) w (w.onFollowCreatureComplete m c hasFollowPath) := by
  unfold onFollowCreatureComplete
  by_cases hmem : c ∈ w.targetList m
  · rw [if_pos hmem]
    have hperm : (w.lists m .targetList).Perm (c :: (w.targetList m).erase c) :=
      List.perm_cons_erase hmem
    dsimp only
    split_ifs
    · exact edits_setList (fun h => hperm.nodup_iff.mp h) (fun d => .inl (by rw [hperm.count_eq]))
        fun d hd => .inl (hperm.mem_iff.mpr hd)
    · have hperm' := hperm.trans (List.perm_append_singleton c _).symm
      exact edits_setList (fun h => hperm'.nodup_iff.mp h)
        (fun d => .inl (by rw [hperm'.count_eq])) fun d hd => .inl (hperm'.mem_iff.mpr hd)
    · have heq : (w.setList m .targetList ((w.targetList m).erase c)).decrementReferenceCounter c =
          w.removeFrom m c .targetList := by
        rw [removeFrom, ← targetList, if_pos hmem]
        rfl
      rw [heq]
      exact edits_removeFrom
  · rw [if_neg hmem]
    exact .refl

/-! ## The references -/

/-- The creature of a loop is where the loop says. -/
def Present (w : MonsterLists) : Telling → Prop
  | .onCreatureAppear c => w.onMap c = true
  | .onCreatureMove c _ newPos => w.onMap c = true ∧ (w.creature c).position = newPos
  | .onRemoveCreature c => w.onMap c = false

/-- Only placed creatures are on the map, in the lists and among those that a loop tells, and no
loop about a move lies inside another loop. The counters are what the rest of the program holds and
the entries of all lists. -/
structure Sound (w : MonsterLists) : Prop where
  unlisted : ∀ m list, m ∉ w.creatures → w.lists m list = []
  members : ∀ m list c, c ∈ w.lists m list → c ∈ w.creatures
  onMap : ∀ c, w.onMap c = true → c ∈ w.creatures
  loops : ∀ l ∈ w.loops, l.1.creature ∈ w.creatures ∧ ∀ m ∈ l.2, m ∈ w.creatures
  present : ∀ l ∈ w.loops, w.Present l.1
  outermost : w.loops.Pairwise fun l _ => ∀ c p q, l.1 ≠ .onCreatureMove c p q
  nodup : ∀ m list, (w.lists m list).Nodup
  counted : ∀ c, w.referenceCounter c = w.held c + ∑ m ∈ w.creatures, w.entries m c
  floor : ∀ c, w.onMap c = true → (w.creature c).position.z.toNat < MAP_MAX_LAYERS

theorem Sound.edits (h : Sound w) (hm : m ∈ w.creatures) (hedits : Edits m p w w')
    (hp : ∀ d, p d → d ∈ w.creatures) : Sound w' := by
  obtain ⟨lists, counter, rfl⟩ := hedits.frame
  have hother {m' : CreatureId} (hne : m' ≠ m) :
      Function.update w.lists m lists m' = w.lists m' := Function.update_of_ne hne _ _
  refine ⟨fun m' list hm' => ?_, fun m' list d hd => ?_, h.onMap, h.loops, h.present, h.outermost,
    fun m' list => ?_, fun c => ?_, h.floor⟩
  · have hne : m' ≠ m := fun heq => hm' (heq ▸ hm)
    exact (congrFun (hother hne) list).trans (h.unlisted m' list hm')
  · by_cases hne : m' = m
    · subst hne
      exact (hedits.mem list d hd).elim (h.members m' list d) (hp d)
    · exact h.members m' list d (by simpa [hother hne] using hd)
  · by_cases hne : m' = m
    · subst hne
      exact hedits.nodup (h.nodup m') list
    · simpa [hother hne] using h.nodup m' list
  · have hsplit : ∀ c, w.referenceCounter c =
        (w.held c + ∑ x ∈ w.creatures.erase m, w.entries x c) + w.entries m c := fun c => by
      rw [h.counted c, ← Finset.add_sum_erase _ _ hm]
      omega
    rw [hedits.balanced _ hsplit c, ← Finset.add_sum_erase _ _ hm]
    have hsame : ∑ x ∈ w.creatures.erase m, w.entries x c = ∑ x ∈ w.creatures.erase m,
        entries { w with lists := Function.update w.lists m lists, referenceCounter := counter }
          x c := by
      refine Finset.sum_congr rfl fun x hx => ?_
      simp only [entries, targetList, friendList, hother (Finset.ne_of_mem_erase hx)]
    rw [← hsame]
    change w.held c + _ + _ = w.held c + (_ + _)
    omega

theorem Sound.setCreature (h : Sound w) {state : CreatureState}
    (hpos : w.loops = [] ∧ state.position.z.toNat < MAP_MAX_LAYERS ∨
      state.position = (w.creature c).position) : Sound (w.setCreature c state) where
  unlisted := h.unlisted
  members := h.members
  onMap := h.onMap
  loops := h.loops
  present l hl := by
    rcases hpos with ⟨hloops, -⟩ | hpos
    · have hl' : l ∈ w.loops := hl
      simp [hloops] at hl'
    · have hpresent := h.present l hl
      obtain ⟨t, spectators⟩ := l
      cases t with
      | onCreatureAppear d => exact hpresent
      | onRemoveCreature d => exact hpresent
      | onCreatureMove d p q =>
        refine ⟨hpresent.1, ?_⟩
        by_cases heq : d = c
        · subst heq
          simpa [MonsterLists.setCreature, hpos] using hpresent.2
        · simpa [MonsterLists.setCreature, heq] using hpresent.2
  outermost := h.outermost
  nodup := h.nodup
  counted := h.counted
  floor d hd := by
    simp only [MonsterLists.setCreature, Function.update_apply]
    split_ifs with heq
    · subst heq
      rcases hpos with ⟨-, hz⟩ | hpos
      · exact hz
      · rw [hpos]
        exact h.floor d hd
    · exact h.floor d hd

theorem Sound.setLoops (h : Sound w) {loops : List (Telling × List CreatureId)}
    (hloops : ∀ l ∈ loops, l.1.creature ∈ w.creatures ∧ ∀ m ∈ l.2, m ∈ w.creatures)
    (hpresent : ∀ l ∈ loops, w.Present l.1)
    (houter : loops.Pairwise fun l _ => ∀ c p q, l.1 ≠ .onCreatureMove c p q) :
    Sound { w with loops := loops } :=
  ⟨h.unlisted, h.members, h.onMap, hloops, hpresent, houter, h.nodup, h.counted, h.floor⟩

theorem mem_addSpectators (spectators added : List CreatureId) :
    c ∈ addSpectators spectators added ↔ c ∈ spectators ∨ c ∈ added := by
  induction added generalizing spectators with
  | nil => simp [addSpectators]
  | cons d rest ih =>
    rw [addSpectators, List.foldl_cons, ← addSpectators, ih]
    split_ifs with hmem
    · refine ⟨fun h => h.imp_right (List.mem_cons_of_mem d), fun h => ?_⟩
      rcases h with hc | hc
      · exact .inl hc
      · rcases List.mem_cons.mp hc with rfl | hrest
        · exact .inl hmem
        · exact .inr hrest
    · simp [or_assoc]

theorem leaveMaster_frame (w : MonsterLists) (c : CreatureId) : ∃ state,
    w.leaveMaster c = w.setCreature c state ∧ state.kind = (w.creature c).kind ∧
    state.position = (w.creature c).position ∧ state.isRemoved = (w.creature c).isRemoved := by
  have hsame : w = w.setCreature c (w.creature c) := by
    rw [setCreature, Function.update_eq_self]
  unfold leaveMaster
  split
  · split_ifs
    · exact ⟨_, hsame, rfl, rfl, rfl⟩
    · exact ⟨_, rfl, rfl, rfl, rfl⟩
  · exact ⟨_, hsame, rfl, rfl, rfl⟩

theorem toldCreature_frame (w : MonsterLists) (m : CreatureId) (t : Telling) : ∃ state,
    w.toldCreature m t = w.setCreature m state ∧ state.kind = (w.creature m).kind ∧
    state.position = (w.creature m).position ∧ state.isRemoved = (w.creature m).isRemoved := by
  have hsame : w = w.setCreature m (w.creature m) := by
    rw [setCreature, Function.update_eq_self]
  cases t with
  | onRemoveCreature c =>
    simp only [toldCreature]
    split_ifs
    · exact leaveMaster_frame w m
    · exact ⟨_, hsame, rfl, rfl, rfl⟩
  | onCreatureAppear c => exact ⟨_, hsame, rfl, rfl, rfl⟩
  | onCreatureMove c p q => exact ⟨_, hsame, rfl, rfl, rfl⟩

theorem edits_tell (t : Telling) (takenOver : Bool) (found : List CreatureId) :
    Edits m ((w.toldCreature m t).ComesIn m t found) (w.toldCreature m t)
      (w.tell m t takenOver found) := by
  unfold tell
  dsimp only
  split_ifs
  · exact .refl
  · exact edits_toldMonster t found

theorem Sound.tell (h : Sound w) {t : Telling} {spectators found : List CreatureId}
    {rest : List (Telling × List CreatureId)} {takenOver : Bool}
    (hloops : w.loops = (t, m :: spectators) :: rest)
    (hfound : w.Spectators (w.creature m).position found) :
    Sound { w.tell m t takenOver found with loops := (t, spectators) :: rest } := by
  have hfirst := h.loops (t, m :: spectators) (by rw [hloops]; exact List.mem_cons_self)
  obtain ⟨state, hbase, -, hpos, -⟩ := toldCreature_frame w m t
  have hsound : Sound (w.toldCreature m t) := by
    rw [hbase]
    exact h.setCreature (.inr hpos)
  have hcreatures : (w.toldCreature m t).creatures = w.creatures := by
    rw [hbase]
    rfl
  have hedits := edits_tell (w := w) (m := m) t takenOver found
  have htold : Sound (w.tell m t takenOver found) := by
    refine hsound.edits (hcreatures ▸ hfirst.2 m List.mem_cons_self) hedits ?_
    rintro d ⟨hd, -⟩
    rw [hcreatures]
    rcases hd with hd | ⟨rfl, -⟩
    · exact h.onMap d ((hfound.2 d).mp hd).1
    · exact hfirst.1
  obtain ⟨lists, counter, heq⟩ := hedits.frame
  have hsame : (w.tell m t takenOver found).loops = w.loops := by
    rw [heq, hbase]
    rfl
  have hall := htold.loops
  have hpresent := htold.present
  have houter := htold.outermost
  rw [hsame, hloops] at hall hpresent houter
  refine htold.setLoops (List.forall_mem_cons.mpr ⟨?_, (List.forall_mem_cons.mp hall).2⟩)
    (List.forall_mem_cons.mpr (List.forall_mem_cons.mp hpresent)) ?_
  · obtain ⟨ht, hms⟩ := (List.forall_mem_cons.mp hall).1
    exact ⟨ht, fun m' hm' => hms m' (List.mem_cons_of_mem m hm')⟩
  · obtain ⟨hhead, htail⟩ := List.pairwise_cons.mp houter
    exact List.pairwise_cons.mpr ⟨hhead, htail⟩

theorem Sound.placeCreature (h : Sound w) {state : CreatureState} {spectators : List CreatureId}
    (hloops : w.loops = []) (hnew : c ∉ w.creatures) (hz : state.position.z.toNat < MAP_MAX_LAYERS)
    (hspectators : (w.placeCreature c state).Spectators state.position spectators) :
    Sound ((w.placeCreature c state).begin (.onCreatureAppear c) spectators) := by
  have hempty (list : MonsterList) : w.lists c list = [] := h.unlisted c list hnew
  have hmap (d : CreatureId) (hd : (w.placeCreature c state).onMap d = true) :
      d = c ∨ w.onMap d = true := by
    by_cases heq : d = c
    · exact .inl heq
    · exact .inr (by simpa [MonsterLists.placeCreature, heq] using hd)
  have honly : ((w.placeCreature c state).begin (.onCreatureAppear c) spectators).loops =
      [(.onCreatureAppear c, spectators)] := by
    rw [begin, MonsterLists.placeCreature, hloops]
  refine ⟨fun m list hm => ?_, fun m list d hd => ?_, fun d hd => ?_, ?_, ?_, ?_, h.nodup,
    fun d => ?_, fun d hd => ?_⟩
  · exact h.unlisted m list fun hm' => hm (Finset.mem_insert_of_mem hm')
  · exact Finset.mem_insert_of_mem (h.members m list d hd)
  · rcases hmap d hd with rfl | hd
    · exact Finset.mem_insert_self _ _
    · exact Finset.mem_insert_of_mem (h.onMap d hd)
  · rw [honly, List.forall_mem_singleton]
    refine ⟨Finset.mem_insert_self _ _, fun m hm => ?_⟩
    rcases hmap m ((hspectators.2 m).mp hm).1 with rfl | hm
    · exact Finset.mem_insert_self _ _
    · exact Finset.mem_insert_of_mem (h.onMap m hm)
  · rw [honly, List.forall_mem_singleton]
    exact Function.update_self c true w.onMap
  · rw [honly]
    exact List.pairwise_singleton _ _
  · have hcounted := h.counted d
    have hzero : w.entries c d = 0 := by simp [entries, targetList, friendList, hempty]
    change Function.update w.referenceCounter c (w.referenceCounter c + 1) d =
      Function.update w.held c (w.held c + 1) d + ∑ m ∈ insert c w.creatures, w.entries m d
    rw [Finset.sum_insert hnew, hzero, Nat.zero_add]
    by_cases heq : d = c
    · subst heq
      simp only [Function.update_self]
      omega
    · simpa [heq] using hcounted
  · change (Function.update w.creature c state d).position.z.toNat < MAP_MAX_LAYERS
    by_cases heq : d = c
    · subst heq
      simpa using hz
    · simpa [heq] using h.floor d ((hmap d hd).resolve_left heq)

theorem Sound.removeCreature (h : Sound w) {spectators : List CreatureId} (hmap : w.onMap c = true)
    (hloops : ∀ l ∈ w.loops, l.1.creature ≠ c)
    (hspectators : w.Spectators (w.creature c).position spectators) :
    Sound ((w.takeOff c).begin (.onRemoveCreature c) spectators) := by
  have hleft (d : CreatureId) (hd : (w.takeOff c).onMap d = true) : w.onMap d = true := by
    by_cases heq : d = c
    · subst heq
      simp [takeOff] at hd
    · simpa [takeOff, heq] using hd
  refine ⟨h.unlisted, h.members, fun d hd => h.onMap d (hleft d hd), ?_, ?_, ?_, h.nodup,
    h.counted, fun d hd => h.floor d (hleft d hd)⟩
  · refine List.forall_mem_cons.mpr ⟨⟨h.onMap c hmap, fun m hm => ?_⟩, h.loops⟩
    exact h.onMap m ((hspectators.2 m).mp hm).1
  · have hoff : (w.takeOff c).onMap c = false := Function.update_self _ _ _
    refine List.forall_mem_cons.mpr ⟨hoff, fun l hl => ?_⟩
    have hpresent := h.present l hl
    have hsame : (w.takeOff c).onMap l.1.creature = w.onMap l.1.creature :=
      Function.update_of_ne (hloops l hl) _ _
    obtain ⟨t, ms⟩ := l
    cases t with
    | onCreatureAppear d => exact hsame.trans hpresent
    | onRemoveCreature d => exact hsame.trans hpresent
    | onCreatureMove d p q => exact ⟨hsame.trans hpresent.1, hpresent.2⟩
  · exact List.pairwise_cons.mpr ⟨fun _ _ _ _ _ => by simp, h.outermost⟩

theorem Sound.step {e : Event} (h : Sound w) (hstep : Step w e w') : Sound w' := by
  cases hstep with
  | placeCreature hloops hnew hstate hz hspectators =>
    exact h.placeCreature hloops hnew hz hspectators
  | @moveCreature c newPos oldSpectators newSpectators hloops hmap hz hold hnew =>
    have hmoved : Sound (w.moveCreature c newPos) := h.setCreature (.inl ⟨hloops, hz⟩)
    have hnone : (w.moveCreature c newPos).loops = [] := hloops
    have hpos : ((w.moveCreature c newPos).creature c).position = newPos := by
      simp [MonsterLists.moveCreature, MonsterLists.setCreature]
    refine hmoved.setLoops ?_ ?_ ?_
    · rw [hnone, List.forall_mem_singleton]
      refine ⟨h.onMap c hmap, fun m hm => ?_⟩
      rcases (mem_addSpectators _ _).mp hm with hm | hm
      · exact h.onMap m ((hold.2 m).mp hm).1
      · exact h.onMap m ((hnew.2 m).mp hm).1
    · rw [hnone, List.forall_mem_singleton]
      exact ⟨hmap, hpos⟩
    · rw [hnone]
      exact List.pairwise_singleton _ _
  | removeCreature hmap hloops hspectators => exact h.removeCreature hmap hloops hspectators
  | tell hloops hfound => exact h.tell hloops hfound
  | @endLoop t rest hloops =>
    have hall := h.loops
    have hpresent := h.present
    have houter := h.outermost
    rw [hloops] at hall hpresent houter
    cases t with
    | onRemoveCreature c =>
      have hmarked : Sound (w.setCreature c { w.creature c with isRemoved := true }) :=
        h.setCreature (.inr rfl)
      refine hmarked.setLoops (List.forall_mem_cons.mp hall).2 (fun l hl => ?_)
        (List.pairwise_cons.mp houter).2
      have hmem : l ∈ w.loops := by
        rw [hloops]
        exact List.mem_cons_of_mem _ hl
      exact hmarked.present l hmem
    | onCreatureAppear c =>
      exact h.setLoops (List.forall_mem_cons.mp hall).2 (List.forall_mem_cons.mp hpresent).2
        (List.pairwise_cons.mp houter).2
    | onCreatureMove c p q =>
      exact h.setLoops (List.forall_mem_cons.mp hall).2 (List.forall_mem_cons.mp hpresent).2
        (List.pairwise_cons.mp houter).2
  | change hkind hpos hremoved => exact h.setCreature (.inr hpos)
  | updateIdleStatus hm => exact h.edits hm edits_updateIdleStatus fun _ => False.elim
  | death hm =>
    exact h.edits hm ((edits_dropFrom _).trans (edits_dropFrom _)) fun _ => False.elim
  | onFollowCreatureComplete hm =>
    exact h.edits hm (edits_onFollowCreatureComplete _) fun _ => False.elim
  | @hold c =>
    refine ⟨h.unlisted, h.members, h.onMap, h.loops, h.present, h.outermost, h.nodup, fun d => ?_,
      h.floor⟩
    have hcounted := h.counted d
    change Function.update w.referenceCounter c (w.referenceCounter c + 1) d =
      Function.update w.held c (w.held c + 1) d + ∑ m ∈ w.creatures, w.entries m d
    by_cases heq : d = c
    · subst heq
      simp only [Function.update_self]
      omega
    · simpa [heq] using hcounted
  | @release c hheld =>
    refine ⟨h.unlisted, h.members, h.onMap, h.loops, h.present, h.outermost, h.nodup, fun d => ?_,
      h.floor⟩
    have hcounted := h.counted d
    change Function.update w.referenceCounter c (w.referenceCounter c - 1) d =
      Function.update w.held c (w.held c - 1) d + ∑ m ∈ w.creatures, w.entries m d
    by_cases heq : d = c
    · subst heq
      simp only [Function.update_self]
      omega
    · simpa [heq] using hcounted

/-! ## The creatures in the lists are in view -/

/-- The creature is on the map, where the monster can see it. -/
def InView (w : MonsterLists) (m c : CreatureId) : Prop :=
  w.onMap c = true ∧ w.canSee m (w.creature c).position = true

/-- The loop has something to tell that takes the creature out of the lists. -/
def TakesOut (w : MonsterLists) (m c : CreatureId) : Telling → Prop
  | .onCreatureAppear _ => False
  | .onRemoveCreature d => d = c
  | .onCreatureMove d oldPos newPos =>
    d = c ∧ w.canSee m oldPos = true ∧ w.canSee m newPos = false ∨
    d = m ∧ w.canSee m (w.creature c).position = false

/-- The monster is still to be told. -/
def Awaits (w : MonsterLists) (m c : CreatureId) : Prop :=
  ∃ l ∈ w.loops, m ∈ l.2 ∧ w.TakesOut m c l.1

/-- A monster on the map lists creatures in its view, but for those that it is still to be told
of. -/
def Attentive (w : MonsterLists) : Prop :=
  ∀ m c list, (w.creature m).kind = .monster → w.onMap m = true → c ∈ w.lists m list →
    w.InView m c ∨ w.Awaits m c

/-- A monster whose script takes over what the loop tells lists nothing that this concerns, and
otherwise recognises the creature that leaves. -/
def Heeded (w : MonsterLists) (m : CreatureId) (takenOver : Bool) : Telling → Prop
  | .onCreatureAppear _ => True
  | .onRemoveCreature c => if takenOver then ¬ w.Listed m c else w.Recognises m c false
  | .onCreatureMove c oldPos newPos =>
    if c = m then takenOver = true → ∀ d, w.Listed m d → w.canSee m (w.creature d).position = true
    else w.canSee m oldPos = true → w.canSee m newPos = false →
      if takenOver then ¬ w.Listed m c else w.Recognises m c true

/-- Every monster on the map heeds what it is told. -/
def Heeds (w : MonsterLists) : Event → Prop
  | .tell takenOver _ => ∀ t m spectators rest, w.loops = (t, m :: spectators) :: rest →
      (w.creature m).kind = .monster → w.onMap m = true → w.Heeded m takenOver t
  | _ => True

theorem listed_iff : w.Listed m c ↔ ∃ list, c ∈ w.lists m list := by
  constructor
  · rintro (hc | hc)
    · exact ⟨.targetList, hc⟩
    · exact ⟨.friendList, hc⟩
  · rintro ⟨list, hc⟩
    cases list with
    | targetList => exact .inl hc
    | friendList => exact .inr hc

/-- The window of the view, on the floors that are seen from each other. -/
theorem canSee_iff {pos : MapPosition} : w.canSee m pos = true ↔
    (((w.creature m).position.z.toNat ≤ 7 ∧ pos.z.toNat ≤ 7) ∨
      (8 ≤ (w.creature m).position.z.toNat ∧ 8 ≤ pos.z.toNat ∧
        ((w.creature m).position.z.toNat - pos.z.toNat : Int).natAbs ≤ 2)) ∧
    ((w.creature m).position.x.toNat - 9 + ((w.creature m).position.z.toNat - pos.z.toNat) ≤
        (pos.x.toNat : Int) ∧
      (pos.x.toNat : Int) ≤
        (w.creature m).position.x.toNat + 9 + ((w.creature m).position.z.toNat - pos.z.toNat)) ∧
    (w.creature m).position.y.toNat - 9 + ((w.creature m).position.z.toNat - pos.z.toNat) ≤
        (pos.y.toNat : Int) ∧
      (pos.y.toNat : Int) ≤
        (w.creature m).position.y.toNat + 9 + ((w.creature m).position.z.toNat - pos.z.toNat) := by
  have hmy : (w.creature m).position.z ≤ 7 ↔ (w.creature m).position.z.toNat ≤ 7 :=
    UInt8.le_iff_toNat_le
  have habove : pos.z > 7 ↔ 7 < pos.z.toNat := UInt8.lt_iff_toNat_lt
  have hbelow : pos.z < 8 ↔ pos.z.toNat < 8 := UInt8.lt_iff_toNat_lt
  have hrange : maxClientViewportX + 1 = 9 := rfl
  rw [canSee, creatureCanSee, hrange]
  simp only [hmy, habove, hbelow]
  split_ifs
  · simp
    omega
  · simp only [Bool.and_eq_true, decide_eq_true_eq]
    omega
  · simp
    omega
  · simp
    omega
  · simp only [Bool.and_eq_true, decide_eq_true_eq]
    omega

theorem canSee_self (w : MonsterLists) (m : CreatureId) :
    w.canSee m (w.creature m).position = true := by
  rw [canSee_iff]
  omega

/-- A monster that can see a position is a spectator of it. -/
theorem contains_of_canSee {pos : MapPosition}
    (hz : (w.creature m).position.z.toNat < MAP_MAX_LAYERS) (h : w.canSee m pos = true) :
    (CachedMap.around pos).range.contains pos (w.creature m).position = true := by
  have hlayers : MAP_MAX_LAYERS = 16 := rfl
  rw [canSee_iff] at h
  have hfloors : (SpectatorQuery.floors pos true).1 ≤ (w.creature m).position.z.toNat ∧
      ((w.creature m).position.z.toNat : Int) ≤ (SpectatorQuery.floors pos true).2 := by
    simp only [SpectatorQuery.floors, ↓reduceIte, hlayers]
    split_ifs <;> dsimp only <;> omega
  rw [Map.contains_iff]
  simp only [SpectatorQuery.range, CachedMap.around, ↓reduceIte, maxViewportX, maxViewportY]
  generalize SpectatorQuery.floors pos true = floors at *
  omega

theorem canSee_of_same (hpos : ∀ c, (w'.creature c).position = (w.creature c).position)
    (pos : MapPosition) : w'.canSee m pos = w.canSee m pos := by
  rw [canSee, canSee, hpos]

theorem takesOut_of_same (hpos : ∀ c, (w'.creature c).position = (w.creature c).position)
    (t : Telling) : w'.TakesOut m c t ↔ w.TakesOut m c t := by
  cases t with
  | onCreatureAppear d => rfl
  | onRemoveCreature d => rfl
  | onCreatureMove d p q => simp only [TakesOut, canSee_of_same hpos, hpos]

theorem not_inView_of_takesOut {t : Telling} (hpresent : w.Present t) (h : w.TakesOut m c t) :
    ¬ w.InView m c := by
  rintro ⟨hon, hsee⟩
  cases t with
  | onCreatureAppear d => exact h
  | onRemoveCreature d =>
    obtain rfl : d = c := h
    rw [Present, hon] at hpresent
    cases hpresent
  | onCreatureMove d p q =>
    rcases h with ⟨rfl, -, hunseen⟩ | ⟨-, hunseen⟩
    · rw [← hpresent.2, hsee] at hunseen
      cases hunseen
    · rw [hsee] at hunseen
      cases hunseen

/-- A change that moves no creature, starts and ends no loop and lists only creatures in view. -/
theorem Attentive.of_same (h : Attentive w) (hmap : w'.onMap = w.onMap)
    (hkind : ∀ c, (w'.creature c).kind = (w.creature c).kind)
    (hpos : ∀ c, (w'.creature c).position = (w.creature c).position) (hloops : w'.loops = w.loops)
    (hlists : ∀ m list c, c ∈ w'.lists m list → c ∈ w.lists m list ∨ w.InView m c) :
    Attentive w' := by
  intro m c list hmonster hon hc
  have hview : w'.InView m c ↔ w.InView m c := by
    rw [InView, InView, hmap, canSee_of_same hpos, hpos]
  rw [hkind] at hmonster
  rw [hmap] at hon
  rw [hview]
  rcases hlists m list c hc with hc | hc
  · refine (h m c list hmonster hon hc).imp_right ?_
    rintro ⟨l, hl, hm, htakes⟩
    exact ⟨l, hloops ▸ hl, hm, (takesOut_of_same hpos l.1).mpr htakes⟩
  · exact .inl hc

/-- The innermost loop has told a monster that lists nothing any more that should be taken out. -/
theorem Attentive.told (h : Attentive w) {t : Telling} {spectators : List CreatureId}
    {rest : List (Telling × List CreatureId)} (hloops : w.loops = (t, m :: spectators) :: rest)
    (hout : (w.creature m).kind = .monster → w.onMap m = true →
      ∀ d, w.TakesOut m d t → ¬ w.Listed m d) :
    Attentive { w with loops := (t, spectators) :: rest } := by
  intro m' c list hmonster hon hc
  rcases h m' c list hmonster hon hc with hview | ⟨l, hl, hm, htakes⟩
  · exact .inl hview
  · rw [hloops] at hl
    rcases List.mem_cons.mp hl with rfl | hl
    · rcases List.mem_cons.mp hm with rfl | hm
      · exact absurd (listed_iff.mpr ⟨list, hc⟩) (hout hmonster hon c htakes)
      · exact .inr ⟨(t, spectators), List.mem_cons_self, hm, htakes⟩
    · exact .inr ⟨l, List.mem_cons_of_mem _ hl, hm, htakes⟩

theorem Attentive.edits (h : Attentive w) (hedits : Edits m (fun _ => False) w w') :
    Attentive w' := by
  obtain ⟨lists, counter, rfl⟩ := hedits.frame
  refine h.of_same rfl (fun _ => rfl) (fun _ => rfl) rfl fun m' list c hc => .inl ?_
  by_cases hm : m' = m
  · subst hm
    exact (hedits.mem list c hc).resolve_right id
  · simpa [hm] using hc

theorem Attentive.placeCreature (h : Attentive w) (hs : Sound w) {state : CreatureState}
    {spectators : List CreatureId} (hloops : w.loops = []) (hnew : c ∉ w.creatures) :
    Attentive ((w.placeCreature c state).begin (.onCreatureAppear c) spectators) := by
  intro m d list hmonster hon hd
  have hmem : d ∈ w.lists m list := hd
  have hne : m ≠ c := by
    rintro rfl
    rw [hs.unlisted m list hnew] at hmem
    cases hmem
  have hne' : d ≠ c := fun heq => hnew (heq ▸ hs.members m list d hmem)
  have hsame {x : CreatureId} (hx : x ≠ c) :
      ((w.placeCreature c state).begin (.onCreatureAppear c) spectators).creature x =
        w.creature x := Function.update_of_ne hx _ _
  have hon' {x : CreatureId} (hx : x ≠ c) :
      ((w.placeCreature c state).begin (.onCreatureAppear c) spectators).onMap x = w.onMap x :=
    Function.update_of_ne hx _ _
  rw [hsame hne] at hmonster
  rw [hon' hne] at hon
  rcases h m d list hmonster hon hmem with hview | ⟨l, hl, -⟩
  · refine .inl ⟨(hon' hne').trans hview.1, ?_⟩
    rw [canSee, hsame hne, hsame hne']
    exact hview.2
  · simp [hloops] at hl

theorem Attentive.moveCreature (h : Attentive w) (hs : Sound w) {newPos : MapPosition}
    {oldSpectators newSpectators : List CreatureId} (hloops : w.loops = [])
    (hold : w.Spectators (w.creature c).position oldSpectators) :
    Attentive ((w.moveCreature c newPos).begin
      (.onCreatureMove c (w.creature c).position newPos)
      (addSpectators oldSpectators newSpectators)) := by
  intro m d list hmonster hon hd
  have hsame {x : CreatureId} (hx : x ≠ c) : (w.moveCreature c newPos).creature x = w.creature x :=
    Function.update_of_ne hx _ _
  have hmoved : ((w.moveCreature c newPos).creature c).position = newPos := by
    simp [MonsterLists.moveCreature, setCreature]
  have hkind : (w.creature m).kind = .monster := by
    by_cases hm : m = c
    · subst hm
      simpa [MonsterLists.moveCreature, setCreature, begin] using hmonster
    · rw [← hsame hm]
      exact hmonster
  have hview : w.InView m d := (h m d list hkind hon hd).resolve_right fun hawaits => by
    obtain ⟨l, hl, -⟩ := hawaits
    simp [hloops] at hl
  have hspectator {pos : MapPosition} (hsee : w.canSee m pos = true)
      (heq : pos = (w.creature c).position) : m ∈ addSpectators oldSpectators newSpectators := by
    subst heq
    exact (mem_addSpectators _ _).mpr
      (.inl ((hold.2 m).mpr ⟨hon, contains_of_canSee (hs.floor m hon) hsee⟩))
  by_cases hnow : (w.moveCreature c newPos).canSee m ((w.moveCreature c newPos).creature d).position
  · exact .inl ⟨hview.1, hnow⟩
  · refine .inr ⟨_, List.mem_cons_self, ?_⟩
    rw [Bool.not_eq_true] at hnow
    by_cases hm : m = c
    · subst hm
      exact ⟨hspectator (canSee_self w m) rfl, .inr ⟨rfl, hnow⟩⟩
    · by_cases hd' : d = c
      · subst hd'
        have hsee (pos : MapPosition) : (w.moveCreature d newPos).canSee m pos = w.canSee m pos := by
          rw [canSee, canSee, hsame hm]
        rw [hmoved] at hnow
        exact ⟨hspectator hview.2 rfl, .inl ⟨rfl, (hsee _).trans hview.2, hnow⟩⟩
      · rw [canSee, hsame hm, hsame hd', ← canSee, hview.2] at hnow
        cases hnow

theorem Attentive.removeCreature (h : Attentive w) (hs : Sound w) {spectators : List CreatureId}
    (hspectators : w.Spectators (w.creature c).position spectators) :
    Attentive ((w.takeOff c).begin (.onRemoveCreature c) spectators) := by
  intro m d list hmonster hon hd
  have hon' {x : CreatureId} (hx : x ≠ c) : (w.takeOff c).onMap x = w.onMap x :=
    Function.update_of_ne hx _ _
  have hm : m ≠ c := by
    rintro rfl
    have hoff : (w.takeOff m).onMap m = true := hon
    simp [takeOff] at hoff
  have honm : w.onMap m = true := (hon' hm).symm.trans hon
  rcases h m d list hmonster honm hd with hview | ⟨l, hl, htold⟩
  · by_cases hd' : d = c
    · subst hd'
      refine .inr ⟨_, List.mem_cons_self, ?_, rfl⟩
      exact (hspectators.2 m).mpr ⟨honm, contains_of_canSee (hs.floor m honm) hview.2⟩
    · exact .inl ⟨(hon' hd').trans hview.1, hview.2⟩
  · exact .inr ⟨l, List.mem_cons_of_mem _ hl, htold⟩

theorem Attentive.endLoop (h : Attentive w) {t : Telling}
    {rest : List (Telling × List CreatureId)} (hloops : w.loops = (t, []) :: rest) :
    Attentive { w with loops := rest } := by
  intro m c list hmonster hon hc
  rcases h m c list hmonster hon hc with hview | ⟨l, hl, hm, htakes⟩
  · exact .inl hview
  · rw [hloops] at hl
    rcases List.mem_cons.mp hl with rfl | hl
    · cases hm
    · exact .inr ⟨l, hl, hm, htakes⟩

/-- A monster heeds what it is told exactly when it does not list any more what should be taken
out. -/
theorem heeded_iff (hs : Sound w) {t : Telling} {takenOver : Bool} {found : List CreatureId}
    (hmonster : (w.creature m).kind = .monster) (hon : w.onMap m = true)
    (hpresent : w.Present t) :
    w.Heeded m takenOver t ↔ ∀ d, w.TakesOut m d t → ¬ (w.tell m t takenOver found).Listed m d := by
  have htell (hown : t.creature ≠ m) : w.tell m t takenOver found =
      if takenOver then w else w.toldMonster m t found := by
    have hbase : w.toldCreature m t = w := by
      cases t with
      | onRemoveCreature c => exact if_neg hown
      | onCreatureAppear c => rfl
      | onCreatureMove c p q => rfl
    simp [MonsterLists.tell, hbase, hmonster]
  cases t with
  | onCreatureAppear c => exact ⟨fun _ _ => False.elim, fun _ => trivial⟩
  | onRemoveCreature c =>
    have hown : c ≠ m := by
      rintro rfl
      rw [Present, hon] at hpresent
      cases hpresent
    rw [htell hown, Heeded]
    have hleave := listed_onCreatureLeave (c := c) (hs.nodup m) false
    cases takenOver with
    | true => simp [TakesOut]
    | false =>
      simp only [toldMonster, if_neg hown, Bool.false_eq_true, ↓reduceIte] at hleave ⊢
      constructor
      · rintro hrecognises d rfl hlisted
        exact hleave.mp hlisted hrecognises
      · intro hall
        by_contra hnot
        exact hall c rfl (hleave.mpr hnot)
  | onCreatureMove c p q =>
    obtain ⟨-, rfl⟩ := hpresent
    by_cases hown : c = m
    · subst hown
      have htell' : w.tell c (.onCreatureMove c p (w.creature c).position) takenOver found =
          if takenOver then w else (w.updateTargetList c found).updateIdleStatus c := by
        simp [MonsterLists.tell, toldCreature, toldMonster, hmonster]
      rw [htell', Heeded, if_pos rfl]
      constructor
      · intro hheeded d htakes hlisted
        have hunseen : w.canSee c (w.creature d).position = false := by
          rcases htakes with ⟨-, -, hnot⟩ | ⟨-, hunseen⟩
          · rw [canSee_self] at hnot
            cases hnot
          · exact hunseen
        have hseen : w.canSee c (w.creature d).position = true := by
          cases takenOver with
          | true => exact hheeded rfl d hlisted
          | false =>
            obtain ⟨list, hlisted⟩ := listed_iff.mp (listed_updateIdleStatus.mp hlisted).1
            exact listed_updateTargetList found hlisted
        rw [hunseen] at hseen
        cases hseen
      · rintro hall rfl d hlisted
        by_contra hunseen
        exact hall d (.inr ⟨rfl, by simpa using hunseen⟩) hlisted
    · rw [htell hown, Heeded, if_neg hown]
      have hleave := listed_onCreatureLeave (c := c) (hs.nodup m) true
      have htakes (d : CreatureId) : w.TakesOut m d (.onCreatureMove c p (w.creature c).position) ↔
          c = d ∧ w.canSee m p = true ∧ w.canSee m (w.creature c).position = false := by
        simp [TakesOut, hown]
      simp only [htakes]
      by_cases hleaves : w.canSee m p = true ∧ w.canSee m (w.creature c).position = false
      · obtain ⟨hold, hnew⟩ := hleaves
        cases takenOver with
        | true => simp [hold, hnew]
        | false =>
          have htold : w.toldMonster m (.onCreatureMove c p (w.creature c).position) found =
              (w.onCreatureLeave m c).updateIdleStatus m := by
            simp [toldMonster, hown, hold, hnew]
          simp only [htold, hold, hnew, Bool.false_eq_true, ↓reduceIte, forall_const, and_true]
            at hleave ⊢
          constructor
          · rintro hrecognises d rfl hlisted
            exact hleave.mp hlisted hrecognises
          · intro hall
            by_contra hnot
            exact hall c rfl (hleave.mpr hnot)
      · refine ⟨fun _ d hd => absurd hd.2 hleaves, fun _ hold hnew => absurd ⟨hold, hnew⟩ hleaves⟩

theorem tell_frame (w : MonsterLists) (m : CreatureId) (t : Telling) (takenOver : Bool)
    (found : List CreatureId) :
    (w.tell m t takenOver found).onMap = w.onMap ∧
    (w.tell m t takenOver found).loops = w.loops ∧
    (∀ c, ((w.tell m t takenOver found).creature c).kind = (w.creature c).kind) ∧
    (∀ c, ((w.tell m t takenOver found).creature c).position = (w.creature c).position) ∧
    (∀ m' ≠ m, (w.tell m t takenOver found).lists m' = w.lists m') ∧
    ∀ list d, d ∈ (w.tell m t takenOver found).lists m list →
      d ∈ w.lists m list ∨ w.ComesIn m t found d := by
  obtain ⟨state, hbase, hkind, hpos, -⟩ := toldCreature_frame w m t
  have hedits := edits_tell (w := w) (m := m) t takenOver found
  have hposition (c : CreatureId) :
      ((w.toldCreature m t).creature c).position = (w.creature c).position := by
    rw [hbase, setCreature]
    by_cases hc : c = m
    · subst hc
      simpa using hpos
    · simp [hc]
  obtain ⟨lists, counter, hframe⟩ := hedits.frame
  refine ⟨?_, ?_, fun c => ?_, fun c => ?_, fun m' hm' => ?_, fun list d hd => ?_⟩
  · rw [hframe, hbase]
    rfl
  · rw [hframe, hbase]
    rfl
  · rw [hframe, hbase, setCreature]
    by_cases hc : c = m
    · subst hc
      simpa using hkind
    · simp [hc]
  · rw [hframe]
    exact hposition c
  · rw [hframe, hbase]
    exact Function.update_of_ne hm' _ _
  · refine (hedits.mem list d hd).imp (fun hd => ?_) fun hd => ?_
    · rw [hbase] at hd
      exact hd
    · exact ⟨hd.1, by rw [canSee, ← hposition, ← hposition]; exact hd.2⟩

theorem Attentive.tell (h : Attentive w) (hs : Sound w) {t : Telling}
    {spectators found : List CreatureId} {rest : List (Telling × List CreatureId)}
    {takenOver : Bool} (hloops : w.loops = (t, m :: spectators) :: rest)
    (hfound : w.Spectators (w.creature m).position found)
    (hheeded : (w.creature m).kind = .monster → w.onMap m = true → w.Heeded m takenOver t) :
    Attentive { w.tell m t takenOver found with loops := (t, spectators) :: rest } := by
  have hpresent : w.Present t :=
    hs.present (t, m :: spectators) (by rw [hloops]; exact List.mem_cons_self)
  obtain ⟨hmap, hsame, hkind, hpos, hother, hmem⟩ := tell_frame w m t takenOver found
  have htold : Attentive (w.tell m t takenOver found) := by
    refine h.of_same hmap hkind hpos hsame fun m' list c hc => ?_
    by_cases hm : m' = m
    · subst hm
      refine (hmem list c hc).imp_right ?_
      rintro ⟨hfrom, hsee⟩
      refine ⟨?_, hsee⟩
      rcases hfrom with hfrom | ⟨rfl, hstays⟩
      · exact ((hfound.2 c).mp hfrom).1
      · cases t with
        | onCreatureAppear d => exact hpresent
        | onRemoveCreature d => exact absurd rfl hstays
        | onCreatureMove d p q => exact hpresent.1
    · rw [hother m' hm] at hc
      exact .inl hc
  refine htold.told (hsame.trans hloops) fun hmonster hon d htakes => ?_
  rw [hkind] at hmonster
  rw [hmap] at hon
  exact (heeded_iff hs hmonster hon hpresent).mp (hheeded hmonster hon) d
    ((takesOut_of_same hpos t).mp htakes)

theorem Attentive.step {e : Event} (h : Attentive w) (hs : Sound w) (hheeds : w.Heeds e)
    (hstep : Step w e w') : Attentive w' := by
  cases hstep with
  | placeCreature hloops hnew => exact h.placeCreature hs hloops hnew
  | moveCreature hloops hmap hz hold => exact h.moveCreature hs hloops hold
  | removeCreature hmap hloops hspectators => exact h.removeCreature hs hspectators
  | tell hloops hfound => exact h.tell hs hloops hfound (hheeds _ _ _ _ hloops)
  | @endLoop t rest hloops =>
    cases t with
    | onRemoveCreature c =>
      have hmarked : Attentive (w.setCreature c { w.creature c with isRemoved := true }) := by
        refine h.of_same rfl (fun d => ?_) (fun d => ?_) rfl fun _ _ _ => .inl
        · by_cases hd : d = c
          · subst hd
            simp [setCreature]
          · simp [setCreature, hd]
        · by_cases hd : d = c
          · subst hd
            simp [setCreature]
          · simp [setCreature, hd]
      exact hmarked.endLoop hloops
    | onCreatureAppear c => exact h.endLoop hloops
    | onCreatureMove c p q => exact h.endLoop hloops
  | @change c state hkind hpos =>
    refine h.of_same rfl (fun d => ?_) (fun d => ?_) rfl fun _ _ _ => .inl
    · by_cases hd : d = c
      · subst hd
        simpa [setCreature] using hkind
      · simp [setCreature, hd]
    · by_cases hd : d = c
      · subst hd
        simpa [setCreature] using hpos
      · simp [setCreature, hd]
  | updateIdleStatus => exact h.edits edits_updateIdleStatus
  | death => exact h.edits ((edits_dropFrom _).trans (edits_dropFrom _))
  | onFollowCreatureComplete => exact h.edits (edits_onFollowCreatureComplete _)
  | hold => exact h.of_same rfl (fun _ => rfl) (fun _ => rfl) rfl fun _ _ _ => .inl
  | release => exact h.of_same rfl (fun _ => rfl) (fun _ => rfl) rfl fun _ _ _ => .inl

theorem sound_init (creature : CreatureId → CreatureState) :
    Sound ({ creature := creature } : MonsterLists) where
  unlisted _ _ _ := rfl
  members _ _ _ hc := by cases hc
  onMap _ hc := by cases hc
  loops _ hl := by cases hl
  present _ hl := by cases hl
  outermost := .nil
  nodup _ _ := .nil
  counted _ := rfl
  floor _ hc := by cases hc

theorem sound_of_reachable (h : Run.Reachable system w) : Sound w := by
  refine h.invariant (I := Sound) ?_ fun _ _ _ hw hs => hw.step hs
  rintro _ ⟨creature, rfl⟩
  exact sound_init creature

theorem attentive_of_reachableBy (h : Run.ReachableBy system Heeds w) : Attentive w := by
  have hboth : Sound w ∧ Attentive w := by
    refine h.invariant (I := fun w => Sound w ∧ Attentive w) ?_
      fun _ _ _ hw hc hs => ⟨hw.1.step hs, hw.2.step hw.1 hc hs⟩
    rintro _ ⟨creature, rfl⟩
    exact ⟨sound_init creature, fun _ _ _ _ _ hc => by cases hc⟩
  exact hboth.2

/-- In every run a monster lists a creature once and every entry counts for one reference. When the
monsters heed what they are told, those on the map list only creatures in their view once all loops
have ended, and one that does not heed it lists a creature out of its view. -/
theorem listed_once_and_in_view (w : MonsterLists) :
    (Run.Reachable system w → (∀ m list, (w.lists m list).Nodup) ∧
      ∀ c, w.referenceCounter c = w.held c + ∑ m ∈ w.creatures, w.entries m c) ∧
    (Run.ReachableBy system Heeds w → w.loops = [] → ∀ m c,
      (w.creature m).kind = .monster → w.onMap m = true → w.Listed m c → w.InView m c) ∧
    ∀ e w', Run.Reachable system w → Step w e w' → ¬ w.Heeds e →
      ∃ m c, (w'.creature m).kind = .monster ∧ w'.onMap m = true ∧ w'.Listed m c ∧
        ¬ w'.InView m c := by
  refine ⟨fun h => ?_, fun h hloops m c hmonster hon hc => ?_, fun e w' h hstep hnot => ?_⟩
  · have hs := sound_of_reachable h
    exact ⟨hs.nodup, hs.counted⟩
  · obtain ⟨list, hc⟩ := listed_iff.mp hc
    refine (attentive_of_reachableBy h m c list hmonster hon hc).resolve_right ?_
    rintro ⟨l, hl, -⟩
    rw [hloops] at hl
    cases hl
  · have hs := sound_of_reachable h
    cases hstep with
    | @tell t m spectators found rest takenOver hloops hfound =>
      obtain ⟨hmonster, hon, hheeded⟩ : (w.creature m).kind = .monster ∧ w.onMap m = true ∧
          ¬ w.Heeded m takenOver t := by
        simp only [Heeds, hloops, List.cons.injEq, Prod.mk.injEq] at hnot
        by_contra hall
        refine hnot ?_
        rintro _ _ _ _ ⟨⟨rfl, rfl, rfl⟩, rfl⟩ hmonster hon
        by_contra hheeded
        exact hall ⟨hmonster, hon, hheeded⟩
      have hpresent : w.Present t :=
        hs.present (t, m :: spectators) (by rw [hloops]; exact List.mem_cons_self)
      rw [@heeded_iff w m hs t takenOver found hmonster hon hpresent] at hheeded
      push Not at hheeded
      obtain ⟨d, htakes, hlisted⟩ := hheeded
      obtain ⟨hmap, -, hkind, hpos, -⟩ := tell_frame w m t takenOver found
      refine ⟨m, d, (hkind m).trans hmonster, (congrFun hmap m).trans hon, hlisted, ?_⟩
      rintro ⟨hon', hsee⟩
      refine not_inView_of_takesOut hpresent htakes ⟨(congrFun hmap d).symm.trans hon', ?_⟩
      rw [← canSee_of_same hpos, ← hpos]
      exact hsee
    | _ => exact absurd trivial hnot

/-- For a state that is given, what the search finds is found among the creatures placed. -/
theorem Sound.spectators (h : Sound w) {pos : MapPosition} {l : List CreatureId} (hnodup : l.Nodup)
    (hmem : ∀ c ∈ l, w.onMap c = true ∧
      (CachedMap.around pos).range.contains pos (w.creature c).position = true)
    (hall : ∀ c ∈ w.creatures, w.onMap c = true → c ∈ l) : w.Spectators pos l :=
  ⟨hnodup, fun c => ⟨hmem c, fun hc => hall c (h.onMap c hc.1) hc.1⟩⟩

/-- The only loop tells all its spectators, who find the same creatures around them. -/
def tellAll (t : Telling) (found : List CreatureId) : List CreatureId → MonsterLists → MonsterLists
  | [], w => w
  | m :: rest, w => tellAll t found rest { w.tell m t false found with loops := [(t, rest)] }

theorem reachableBy_tellAll {cond : MonsterLists → Event → Prop} {t : Telling}
    {spectators found : List CreatureId} (h : Run.ReachableBy system cond w)
    (hloops : w.loops = [(t, spectators)])
    (hfound : ∀ m ∈ spectators, w.Spectators (w.creature m).position found)
    (hcond : ∀ u spectators, u.loops = [(t, spectators)] → cond u (.tell false found)) :
    Run.ReachableBy system cond (tellAll t found spectators w) := by
  induction spectators generalizing w with
  | nil => exact h
  | cons m rest ih =>
    obtain ⟨hmap, -, -, hpos, -⟩ := tell_frame w m t false found
    have hstep := h.step (hcond w _ hloops) (.tell hloops (hfound m List.mem_cons_self))
    refine ih hstep rfl fun m' hm' => ?_
    have hspectators := hfound m' (List.mem_cons_of_mem m hm')
    refine ⟨hspectators.1, fun c => ?_⟩
    change c ∈ found ↔ (w.tell m t false found).onMap c = true ∧
      (CachedMap.around ((w.tell m t false found).creature m').position).range.contains
        ((w.tell m t false found).creature m').position
        ((w.tell m t false found).creature c).position = true
    rw [hspectators.2 c, hmap, hpos, hpos]

theorem loops_tellAll {t : Telling} {spectators found : List CreatureId}
    (hloops : w.loops = [(t, spectators)]) :
    (tellAll t found spectators w).loops = [(t, [])] := by
  induction spectators generalizing w with
  | nil => exact hloops
  | cons m rest ih => exact ih rfl

/-- A player, a wild monster and the player's summon, all at one place. -/
def atOnePlace (c : CreatureId) : CreatureState where
  kind := if c = 1 then .player else .monster
  position := ⟨100, 100, 7⟩
  master := if c = 3 then some 1 else none

/-- The creature comes to that place, where the others are, and all of them are told. -/
def appear (w : MonsterLists) (c : CreatureId) (spectators : List CreatureId) : MonsterLists :=
  (tellAll (.onCreatureAppear c) spectators spectators
    ((w.placeCreature c (atOnePlace c)).begin (.onCreatureAppear c) spectators)).endLoop
    (.onCreatureAppear c) []

theorem reachableBy_appear {spectators : List CreatureId} (h : Run.ReachableBy system Heeds w)
    (hloops : w.loops = []) (hnew : c ∉ w.creatures) (hnodup : spectators.Nodup)
    (hmem : ∀ d ∈ spectators, (w.placeCreature c (atOnePlace c)).onMap d = true ∧
      ((w.placeCreature c (atOnePlace c)).creature d).position = ⟨100, 100, 7⟩)
    (hall : ∀ d ∈ insert c w.creatures, d ∈ spectators) :
    Run.ReachableBy system Heeds (w.appear c spectators) := by
  have hs := sound_of_reachable h.reachable
  have hspectators :
      (w.placeCreature c (atOnePlace c)).Spectators (⟨100, 100, 7⟩ : MapPosition) spectators := by
    refine ⟨hnodup, fun d => ⟨fun hd => ⟨(hmem d hd).1, ?_⟩, fun hd => hall d ?_⟩⟩
    · rw [(hmem d hd).2]
      decide
    · by_cases heq : d = c
      · exact heq ▸ Finset.mem_insert_self _ _
      · refine Finset.mem_insert_of_mem (hs.onMap d ?_)
        simpa [MonsterLists.placeCreature, heq] using hd.1
  have hz : (⟨100, 100, 7⟩ : MapPosition).z.toNat < MAP_MAX_LAYERS := by decide
  have hstep : Step w (.placeCreature c (atOnePlace c) spectators) _ :=
    .placeCreature hloops hnew rfl hz hspectators
  have hheeds : w.Heeds (.placeCreature c (atOnePlace c) spectators) := trivial
  have hplaced := Run.ReachableBy.step (S := system) h hheeds hstep
  have honly : ((w.placeCreature c (atOnePlace c)).begin (.onCreatureAppear c) spectators).loops =
      [(.onCreatureAppear c, spectators)] := by
    rw [begin, MonsterLists.placeCreature, hloops]
  have hfound : ∀ m ∈ spectators, (w.placeCreature c (atOnePlace c)).Spectators
      ((w.placeCreature c (atOnePlace c)).creature m).position spectators := fun m hm => by
    rw [(hmem m hm).2]
    exact hspectators
  have htold := reachableBy_tellAll hplaced honly hfound
    fun u rest hu t m spectators' rest' heq hmonster hon => by
      rw [hu] at heq
      cases heq
      trivial
  have hheeds (u : MonsterLists) : u.Heeds .endLoop := trivial
  exact Run.ReachableBy.step htold (hheeds _) (.endLoop (loops_tellAll honly))

/-- The wild monster, to which the player comes. -/
def met : MonsterLists :=
  (({ creature := atOnePlace } : MonsterLists).appear 2 [2]).appear 1 [2, 1]

theorem reachableBy_met : Run.ReachableBy system Heeds met :=
  reachableBy_appear
    (reachableBy_appear (.init ⟨atOnePlace, rfl⟩) rfl (by decide) (by decide) (by decide) (by decide))
    rfl (by decide) (by decide) (by decide) (by decide)

theorem listed_once_and_in_view_met :
    (met.targetList 2).Nodup ∧ met.referenceCounter 1 = 2 ∧ met.InView 2 1 :=
  ⟨((listed_once_and_in_view met).1 reachableBy_met.reachable).1 2 .targetList, by decide,
    (listed_once_and_in_view met).2.1 reachableBy_met rfl 2 1 rfl rfl (.inl (by decide))⟩

/-- The player's summon comes, and is taken off the map. -/
def leaving : MonsterLists :=
  ((met.appear 3 [2, 1, 3]).takeOff 3).begin (.onRemoveCreature 3) [3, 2, 1]

/-- The summon is told first, and leaves its master before the wild monster is told. -/
def forgotten : MonsterLists :=
  (tellAll (.onRemoveCreature 3) [2, 1] [3, 2, 1] leaving).endLoop (.onRemoveCreature 3) []

theorem reachable_leaving : Run.Reachable system leaving := by
  have hthree : Run.Reachable system (met.appear 3 [2, 1, 3]) :=
    (reachableBy_appear reachableBy_met rfl (by decide) (by decide) (by decide)
      (by decide)).reachable
  have hall : (met.appear 3 [2, 1, 3]).Spectators ⟨100, 100, 7⟩ [3, 2, 1] :=
    (sound_of_reachable hthree).spectators (by decide) (by decide) (by decide)
  exact hthree.step' (.removeCreature (by decide) (by decide) hall)

theorem reachable_forgotten : Run.Reachable system forgotten := by
  have hloops : leaving.loops = [(.onRemoveCreature 3, [3, 2, 1])] := rfl
  have htold : Run.Reachable system (tellAll (.onRemoveCreature 3) [2, 1] [3, 2, 1] leaving) := by
    refine reachableBy_tellAll reachable_leaving hloops (fun m hm => ?_) fun _ _ _ => trivial
    refine (sound_of_reachable reachable_leaving).spectators (by decide) ?_ (by decide)
    revert m
    decide
  exact htold.step' (.endLoop (loops_tellAll hloops))

/-- A removed creature stays in the list of a monster in its view. -/
theorem exists_listed_removed : ∃ w, Run.Reachable system w ∧ w.loops = [] ∧
    ∃ m c, (w.creature m).kind = .monster ∧ w.onMap m = true ∧ w.Listed m c ∧
      w.onMap c = false ∧ (w.creature c).isRemoved = true :=
  ⟨forgotten, reachable_forgotten, by decide, 2, 3, by decide, by decide, .inl (by decide),
    by decide, by decide⟩

end MonsterLists

end Eloth
