import Eloth.Sample
import Mathlib.Data.Set.Card

/-!
# Iterating over nested containers

`ContainerIterator`: a list of containers that are still to be gone through, and a position in
the first of them.
-/

namespace Eloth

variable {w : World} {root c d r x : ItemRef}

/-- The position is that of an iterator into the deque of a container. -/
structure ContainerIterator where
  overList : List ItemRef
  cur : Option (ItemRef × Nat)

namespace ContainerIterator

def iterator (w : World) (r : ItemRef) : ContainerIterator :=
  if w.itemlist r ≠ [] then ⟨[r], some (r, 0)⟩ else ⟨[], none⟩

def hasNext (it : ContainerIterator) : Bool := !it.overList.isEmpty

/-- Nothing is found at the end of a deque, nor before the position is set. -/
def deref (w : World) (it : ContainerIterator) : Option ItemRef :=
  it.cur.bind fun (c, i) => (w.itemlist c)[i]?

def enqueues (w : World) (item : ItemRef) : Bool :=
  w.isContainer item && !(w.itemlist item).isEmpty

/-- A step that reads a position or a front that is not there has no result. -/
def advance (w : World) (it : ContainerIterator) : Option ContainerIterator := do
  let item ← it.deref w
  let overList := if enqueues w item then it.overList ++ [item] else it.overList
  let (c, i) ← it.cur
  let cur := (c, i + 1)
  let front ← overList.head?
  if cur = (front, (w.itemlist front).length) then
    match overList.tail with
    | [] => some ⟨[], some cur⟩
    | next :: overList => some ⟨next :: overList, some (next, 0)⟩
  else some ⟨overList, some cur⟩

/-- So many rounds of `for (it = iterator(); it.hasNext(); it.advance())`: the items that the
rounds come to, and the iterator after them. -/
def visits (w : World) : Nat → ContainerIterator → Option (List ItemRef × ContainerIterator)
  | 0, it => some ([], it)
  | n + 1, it =>
    if it.hasNext then do
      let item ← it.deref w
      let (items, last) ← visits w n (← it.advance w)
      some (item :: items, last)
    else some ([], it)

/-- The loop of `getItemHoldingCount`. -/
def countLoop (w : World) : Nat → ContainerIterator → Nat → Option Nat
  | 0, _, _ => none
  | fuel + 1, it, counter =>
    if it.hasNext then do countLoop w fuel (← it.advance w) (counter + 1)
    else some counter

/-- The loop of `isHoldingItem`. -/
def searchLoop (w : World) (item : ItemRef) : Nat → ContainerIterator → Option Bool
  | 0, _ => none
  | fuel + 1, it =>
    if it.hasNext then do
      if (← it.deref w) = item then some true
      else searchLoop w item fuel (← it.advance w)
    else some false

/-! ## What is still to come -/

/-- The iterator is going to come to the items. -/
inductive Pending (w : World) : ContainerIterator → List ItemRef → Prop
  | done (cur : Option (ItemRef × Nat)) : Pending w ⟨[], cur⟩ []
  | within {c : ItemRef} {overList taken : List ItemRef} {i : Nat} (hi : i < (w.itemlist c).length)
      (hover : ∀ d ∈ overList, w.itemlist d ≠ [])
      (hdrains : Worklist.Drains (fun c => (w.itemlist c).filter (enqueues w))
        (overList ++ ((w.itemlist c).drop i).filter (enqueues w)) taken) :
      Pending w ⟨c :: overList, some (c, i)⟩ ((w.itemlist c).drop i ++ taken.flatMap w.itemlist)

variable {it : ContainerIterator} {items : List ItemRef}

theorem itemlist_of_not_isContainer (h : w.isContainer x = false) : w.itemlist x = [] :=
  List.eq_nil_iff_forall_not_mem.mpr fun _ hr =>
    Bool.false_ne_true (h.symm.trans (World.isContainer_of_mem hr))

theorem itemlist_ne_nil (h : enqueues w x = true) : w.itemlist x ≠ [] := by
  unfold enqueues at h
  simp only [Bool.and_eq_true, Bool.not_eq_true', List.isEmpty_eq_false_iff] at h
  exact h.2

theorem itemlist_of_not_enqueues (h : enqueues w x = false) : w.itemlist x = [] := by
  unfold enqueues at h
  cases hbox : w.isContainer x with
  | false => exact itemlist_of_not_isContainer hbox
  | true => simpa [hbox] using h

theorem Pending.hasNext (h : Pending w it items) : it.hasNext = !items.isEmpty := by
  cases h with
  | done => rfl
  | within hi =>
    rw [List.drop_eq_getElem_cons hi]
    rfl

section Advance

variable {overList : List ItemRef} {i : Nat} (hi : i < (w.itemlist c).length)

include hi

theorem deref_within : deref w ⟨c :: overList, some (c, i)⟩ = some (w.itemlist c)[i] :=
  List.getElem?_eq_getElem hi

theorem advance_within : advance w ⟨c :: overList, some (c, i)⟩ =
    if i + 1 = (w.itemlist c).length then
      match overList ++ [(w.itemlist c)[i]].filter (enqueues w) with
      | [] => some ⟨[], some (c, i + 1)⟩
      | next :: overList => some ⟨next :: overList, some (next, 0)⟩
    else some ⟨c :: (overList ++ [(w.itemlist c)[i]].filter (enqueues w)), some (c, i + 1)⟩ := by
  have hover : (if enqueues w (w.itemlist c)[i] then c :: overList ++ [(w.itemlist c)[i]]
      else c :: overList) = c :: (overList ++ [(w.itemlist c)[i]].filter (enqueues w)) := by
    by_cases h : enqueues w (w.itemlist c)[i] = true <;> simp [h]
  simp only [advance, deref_within hi, Option.bind_eq_bind, Option.bind_some, hover,
    List.head?_cons, Prod.mk.injEq, true_and, List.tail_cons]

end Advance

/-- A round comes to the first of the items and leaves the others. -/
theorem Pending.advance (h : Pending w it (x :: items)) :
    it.deref w = some x ∧ ∃ it', it.advance w = some it' ∧ Pending w it' items := by
  generalize hall : x :: items = all at h
  cases h with
  | done => cases hall
  | @within c overList taken i hi hover hdrains =>
    rw [List.drop_eq_getElem_cons hi, List.cons_append] at hall
    obtain ⟨rfl, rfl⟩ := List.cons.inj hall
    refine ⟨deref_within hi, ?_⟩
    rw [advance_within hi]
    have hfilter : overList ++ ((w.itemlist c).drop i).filter (enqueues w) =
        (overList ++ [(w.itemlist c)[i]].filter (enqueues w)) ++
          ((w.itemlist c).drop (i + 1)).filter (enqueues w) := by
      rw [List.drop_eq_getElem_cons hi, ← List.singleton_append, List.filter_append,
        List.append_assoc]
    have hover' : ∀ d ∈ overList ++ [(w.itemlist c)[i]].filter (enqueues w), w.itemlist d ≠ [] := by
      intro d hd
      rcases List.mem_append.mp hd with hd | hd
      · exact hover d hd
      · exact itemlist_ne_nil (List.mem_filter.mp hd).2
    rw [hfilter] at hdrains
    by_cases hend : i + 1 = (w.itemlist c).length
    · rw [if_pos hend]
      rw [List.drop_of_length_le hend.ge, List.filter_nil, List.append_nil] at hdrains
      rw [List.drop_of_length_le hend.ge, List.nil_append]
      -- The list is finished, and the next container is the front of the queue.
      generalize overList ++ [(w.itemlist c)[i]].filter (enqueues w) = queue at hdrains hover' ⊢
      cases hdrains with
      | nil => exact ⟨_, rfl, .done _⟩
      | @cons next queue taken hdrains =>
        refine ⟨_, rfl, ?_⟩
        rw [List.flatMap_cons]
        exact .within (List.length_pos_iff.mpr (hover' next List.mem_cons_self))
          (fun d hd => hover' d (List.mem_cons_of_mem _ hd)) hdrains
    · rw [if_neg hend]
      exact ⟨_, rfl, .within (by omega) hover' hdrains⟩

/-- As long as something is to come, the rounds come to it in order. -/
theorem Pending.visits (h : Pending w it items) (n : Nat) :
    ∃ it', it.visits w n = some (items.take n, it') ∧ (it'.hasNext = true ↔ n < items.length) := by
  induction n generalizing it items with
  | zero => exact ⟨it, rfl, by simp [h.hasNext, List.length_pos_iff]⟩
  | succ n ih =>
    cases items with
    | nil => exact ⟨it, by simp [ContainerIterator.visits, h.hasNext], by simp [h.hasNext]⟩
    | cons x items =>
      obtain ⟨hderef, it', hadvance, hrest⟩ := h.advance
      obtain ⟨last, hvisits, hlast⟩ := ih hrest
      refine ⟨last, ?_, by rw [hlast, List.length_cons, Nat.succ_lt_succ_iff]⟩
      simp [ContainerIterator.visits, h.hasNext, hderef, hadvance, hvisits]

theorem Pending.countLoop (h : Pending w it items) {fuel : Nat} (hfuel : items.length < fuel)
    (counter : Nat) : it.countLoop w fuel counter = some (counter + items.length) := by
  induction fuel generalizing it items counter with
  | zero => exact absurd hfuel (Nat.not_lt_zero _)
  | succ fuel ih =>
    cases items with
    | nil => simp [ContainerIterator.countLoop, h.hasNext]
    | cons x items =>
      obtain ⟨-, it', hadvance, hrest⟩ := h.advance
      have hcount := ih hrest (Nat.lt_of_succ_lt_succ hfuel) (counter + 1)
      rw [List.length_cons, Nat.add_comm items.length, ← Nat.add_assoc, ← hcount]
      simp [ContainerIterator.countLoop, h.hasNext, hadvance]

theorem Pending.searchLoop (h : Pending w it items) {fuel : Nat} (hfuel : items.length < fuel)
    (item : ItemRef) : it.searchLoop w item fuel = some (items.contains item) := by
  induction fuel generalizing it items with
  | zero => exact absurd hfuel (Nat.not_lt_zero _)
  | succ fuel ih =>
    cases items with
    | nil => simp [ContainerIterator.searchLoop, h.hasNext]
    | cons x items =>
      obtain ⟨hderef, it', hadvance, hrest⟩ := h.advance
      have hsearch := ih hrest (Nat.lt_of_succ_lt_succ hfuel)
      by_cases hx : x = item
      · simp [ContainerIterator.searchLoop, h.hasNext, hderef, hx]
      · simp [ContainerIterator.searchLoop, h.hasNext, hderef, hadvance, hsearch, hx, Ne.symm hx]

end ContainerIterator

/-! ## Container trees -/

/-- In the container, at some depth. -/
def World.Inside (w : World) : ItemRef → ItemRef → Prop :=
  Relation.TransGen fun c r => r ∈ w.itemlist c

/-- The container and what is inside: nothing lies in two places, the container itself in none,
and everything has been created. -/
structure ContainerTree (w : World) (root : ItemRef) : Prop where
  created : ∀ x, x = root ∨ w.Inside root x → x < w.next
  nodup : ∀ c, c = root ∨ w.Inside root c → (w.itemlist c).Nodup
  one_place : ∀ c d, c = root ∨ w.Inside root c → d = root ∨ w.Inside root d →
    ∀ x ∈ w.itemlist c, x ∈ w.itemlist d → c = d
  top : ∀ c, c = root ∨ w.Inside root c → root ∉ w.itemlist c

/-- The items at a depth, in the order of the containers that they are in. -/
def World.itemsAt (w : World) (root : ItemRef) : Nat → List ItemRef :=
  Worklist.level w.itemlist (w.itemlist root)

theorem flatMap_filter {α β : Type*} {f : α → List β} {p : α → Bool}
    (hp : ∀ a, p a = false → f a = []) {l : List α} : (l.filter p).flatMap f = l.flatMap f := by
  induction l with
  | nil => rfl
  | cons a l ih =>
    cases ha : p a with
    | true => rw [List.filter_cons_of_pos ha, List.flatMap_cons, List.flatMap_cons, ih]
    | false => rw [List.filter_cons_of_neg (by simp [ha]), List.flatMap_cons, hp a ha,
        List.nil_append, ih]

theorem itemsAt_succ (k : Nat) :
    w.itemsAt root (k + 1) = (w.itemsAt root k).flatMap w.itemlist := Worklist.level_succ k

theorem inside_of_mem_itemsAt {k : Nat} (h : x ∈ w.itemsAt root k) : w.Inside root x := by
  induction k generalizing x with
  | zero => exact .single h
  | succ k ih =>
    rw [itemsAt_succ] at h
    obtain ⟨c, hc, hx⟩ := List.mem_flatMap.mp h
    exact .tail (ih hc) hx

theorem exists_mem_itemsAt (h : w.Inside root x) : ∃ k, x ∈ w.itemsAt root k := by
  induction h with
  | single h => exact ⟨0, h⟩
  | @tail c x _ hx ih =>
    obtain ⟨k, hc⟩ := ih
    refine ⟨k + 1, ?_⟩
    rw [itemsAt_succ]
    exact List.mem_flatMap.mpr ⟨c, hc, hx⟩

/-- The containers to look into at a depth, when a list is kept of the items that pass. -/
theorem rows_succ {p : ItemRef → Bool} (hp : ∀ x, p x = false → w.itemlist x = []) (k : Nat) :
    Worklist.level (fun c => (w.itemlist c).filter p) [root] (k + 1) =
      (w.itemsAt root k).filter p := by
  induction k with
  | zero => exact List.flatMap_singleton _ _
  | succ k ih =>
    rw [Worklist.level_succ, ih, itemsAt_succ, List.filter_flatMap]
    exact flatMap_filter fun x hx => by rw [hp x hx, List.filter_nil]

namespace ContainerTree

variable (h : ContainerTree w root)

include h

theorem root_not_inside : ¬ w.Inside root root := by
  intro hinside
  cases hinside with
  | single hmem => exact h.top root (.inl rfl) hmem
  | @tail c _ hc hmem => exact h.top c (.inr hc) hmem

theorem depth_unique {i j : Nat} (hi : x ∈ w.itemsAt root i) (hj : x ∈ w.itemsAt root j) :
    i = j := by
  -- What lies in the root itself lies in no container below it.
  have hfirst {k : Nat} {x : ItemRef} (hroot : x ∈ w.itemlist root)
      (hx : x ∈ w.itemsAt root (k + 1)) : False := by
    rw [itemsAt_succ] at hx
    obtain ⟨c, hc, hxc⟩ := List.mem_flatMap.mp hx
    have hinside := inside_of_mem_itemsAt hc
    obtain rfl := h.one_place root c (.inl rfl) (.inr hinside) x hroot hxc
    exact h.root_not_inside hinside
  induction i generalizing j x with
  | zero =>
    cases j with
    | zero => rfl
    | succ j => exact (hfirst hi hj).elim
  | succ i ih =>
    cases j with
    | zero => exact (hfirst hj hi).elim
    | succ j =>
      rw [itemsAt_succ] at hi hj
      obtain ⟨c, hc, hxc⟩ := List.mem_flatMap.mp hi
      obtain ⟨d, hd, hxd⟩ := List.mem_flatMap.mp hj
      obtain rfl := h.one_place c d (.inr (inside_of_mem_itemsAt hc))
        (.inr (inside_of_mem_itemsAt hd)) x hxc hxd
      rw [ih hc hd]

theorem nodup_itemsAt (k : Nat) : (w.itemsAt root k).Nodup := by
  induction k with
  | zero => exact h.nodup root (.inl rfl)
  | succ k ih =>
    rw [itemsAt_succ]
    refine List.nodup_flatMap.mpr
      ⟨fun c hc => h.nodup c (.inr (inside_of_mem_itemsAt hc)), ih.imp_of_mem ?_⟩
    intro c d hc hd hne x hxc hxd
    exact hne (h.one_place c d (.inr (inside_of_mem_itemsAt hc)) (.inr (inside_of_mem_itemsAt hd))
      x hxc hxd)

theorem nodup_items (m : Nat) : ((List.range m).flatMap (w.itemsAt root)).Nodup :=
  List.nodup_flatMap.mpr ⟨fun k _ => h.nodup_itemsAt k,
    List.nodup_range.imp fun hne _ hx hy => hne (h.depth_unique hx hy)⟩

theorem length_items_lt (m : Nat) : ((List.range m).flatMap (w.itemsAt root)).length < w.next := by
  have hnodup : (root :: (List.range m).flatMap (w.itemsAt root)).Nodup := by
    refine List.nodup_cons.mpr ⟨fun hmem => ?_, h.nodup_items m⟩
    obtain ⟨k, -, hk⟩ := List.mem_flatMap.mp hmem
    exact h.root_not_inside (inside_of_mem_itemsAt hk)
  have hsub : root :: (List.range m).flatMap (w.itemsAt root) ⊆ List.range w.next := by
    intro x hx
    rw [List.mem_range]
    rcases List.mem_cons.mp hx with rfl | hx
    · exact h.created x (.inl rfl)
    · obtain ⟨k, -, hk⟩ := List.mem_flatMap.mp hx
      exact h.created x (.inr (inside_of_mem_itemsAt hk))
  simpa using (List.subperm_of_subset hnodup hsub).length_le

/-- With room for every container the worklist gives out all items, depth by depth. -/
theorem visited_items {p : ItemRef → Bool} (hp : ∀ x, p x = false → w.itemlist x = [])
    {fuel m : Nat} (hfuel : w.next ≤ fuel) (hm : fuel ≤ m) :
    (Worklist.visited (fun c => (w.itemlist c).filter p) fuel [root]).length ≤ w.next ∧
      (Worklist.visited (fun c => (w.itemlist c).filter p) fuel [root]).flatMap w.itemlist =
        (List.range m).flatMap (w.itemsAt root) := by
  have hroot := h.created root (.inl rfl)
  have hpos : 0 < m := (Nat.zero_le root).trans_lt (hroot.trans_le (hfuel.trans hm))
  obtain ⟨m, rfl⟩ : ∃ n, m = n + 1 := Nat.exists_eq_succ_of_ne_zero hpos.ne'
  have hrows : (List.range (m + 1)).flatMap
      (Worklist.level (fun c => (w.itemlist c).filter p) [root]) =
      root :: ((List.range m).flatMap (w.itemsAt root)).filter p := by
    rw [List.range_succ_eq_map, List.flatMap_cons, List.flatMap_map, List.filter_flatMap]
    exact congrArg (root :: ·) (congrArg (List.flatMap · _) (funext (rows_succ hp)))
  have hlength : (root :: ((List.range m).flatMap (w.itemsAt root)).filter p).length ≤ w.next := by
    have hfilter := List.length_filter_le p ((List.range m).flatMap (w.itemsAt root))
    have hall := h.length_items_lt m
    rw [List.length_cons]
    omega
  rw [Worklist.visited_eq_take_levels hm, hrows,
    List.take_of_length_le (hlength.trans hfuel)]
  refine ⟨hlength, ?_⟩
  rw [List.flatMap_cons, flatMap_filter hp, List.flatMap_assoc, List.range_succ_eq_map,
    List.flatMap_cons, List.flatMap_map]
  exact congrArg (w.itemlist root ++ ·) (congrArg (List.flatMap · _) (funext fun k =>
    (itemsAt_succ k).symm))

theorem holdingItems_eq :
    w.holdingItems root = (List.range (w.next + 1)).flatMap (w.itemsAt root) :=
  (h.visited_items (fun _ hx => ContainerIterator.itemlist_of_not_isContainer hx) le_rfl (Nat.le_succ _)).2

theorem depth_lt {k : Nat} (hx : x ∈ w.itemsAt root k) : k < w.next := by
  -- On the way down every depth has an item.
  have habove (j : Nat) (hj : j ≤ k) : w.itemsAt root j ≠ [] := by
    intro hnil
    obtain ⟨i, rfl⟩ := Nat.exists_eq_add_of_le hj
    have hdeep : w.itemsAt root (j + i) = Worklist.level w.itemlist (w.itemsAt root j) i := by
      rw [Nat.add_comm]
      exact Function.iterate_add_apply _ _ _ _
    rw [hdeep, hnil, Worklist.level_nil] at hx
    cases hx
  have hcount (j : Nat) (hj : j ≤ k + 1) :
      j ≤ ((List.range j).flatMap (w.itemsAt root)).length := by
    induction j with
    | zero => exact Nat.zero_le _
    | succ j ih =>
      have hpos := List.length_pos_iff.mpr (habove j (Nat.le_of_succ_le_succ hj))
      have hle := ih (by omega)
      rw [List.range_succ, List.flatMap_append, List.flatMap_singleton, List.length_append]
      omega
  have hle := hcount (k + 1) le_rfl
  have hlt := h.length_items_lt (k + 1)
  omega

theorem mem_holdingItems : x ∈ w.holdingItems root ↔ w.Inside root x := by
  rw [h.holdingItems_eq, List.mem_flatMap]
  constructor
  · rintro ⟨k, -, hk⟩
    exact inside_of_mem_itemsAt hk
  · intro hx
    obtain ⟨k, hk⟩ := exists_mem_itemsAt hx
    exact ⟨k, List.mem_range.mpr (Nat.lt_succ_of_lt (h.depth_lt hk)), hk⟩

theorem pending_iterator :
    ContainerIterator.Pending w (ContainerIterator.iterator w root) (w.holdingItems root) := by
  obtain ⟨hlength, hitems⟩ := h.visited_items
    (fun _ hx => ContainerIterator.itemlist_of_not_enqueues hx) (Nat.le_succ w.next) le_rfl
  have hdrains := Worklist.drains_visited (Nat.lt_succ_of_le hlength)
  rw [h.holdingItems_eq, ← hitems]
  generalize Worklist.visited _ _ _ = taken at hdrains
  cases hdrains with
  | @cons _ _ taken hdrains =>
    unfold ContainerIterator.iterator
    by_cases hempty : w.itemlist root = []
    · rw [hempty] at hdrains
      cases hdrains
      rw [if_neg (not_not.mpr hempty), List.flatMap_cons, hempty]
      exact .done none
    · rw [if_pos hempty, List.flatMap_cons]
      exact .within (List.length_pos_iff.mpr hempty) (fun d hd => nomatch hd) hdrains

theorem nodup_holdingItems : (w.holdingItems root).Nodup := h.holdingItems_eq ▸ h.nodup_items _

/-- No item comes before the container that it is in. -/
theorem parents_first :
    (w.holdingItems root).Pairwise fun earlier later => earlier ∉ w.itemlist later := by
  rw [h.holdingItems_eq, List.pairwise_flatMap]
  have hdeeper {i j : Nat} {x c : ItemRef} (hij : i ≤ j) (hx : x ∈ w.itemsAt root i)
      (hc : c ∈ w.itemsAt root j) : x ∉ w.itemlist c := by
    intro hxc
    have hnext : x ∈ w.itemsAt root (j + 1) := by
      rw [itemsAt_succ]
      exact List.mem_flatMap.mpr ⟨c, hc, hxc⟩
    have := h.depth_unique hx hnext
    omega
  refine ⟨fun k _ => ?_, List.pairwise_lt_range.imp fun hlt x hx c hc => hdeeper hlt.le hx hc⟩
  exact List.pairwise_of_forall_mem_list fun x hx c hc => hdeeper le_rfl hx hc

theorem getItemHoldingCount_eq : w.getItemHoldingCount root = {x | w.Inside root x}.ncard := by
  have hset : {x | w.Inside root x} = ((w.holdingItems root).toFinset : Set ItemRef) := by
    ext x
    rw [Finset.mem_coe, List.mem_toFinset, h.mem_holdingItems]
    rfl
  rw [hset, Set.ncard_coe_finset, List.toFinset_card_of_nodup h.nodup_holdingItems]
  rfl

end ContainerTree

/-- The iterator comes to each nested item once, depth by depth, never reads past an end and
stops; so the loops overList it count the nested items and find exactly these. -/
theorem iterator_visits_tree (w : World) (root : ItemRef) (h : ContainerTree w root) :
    (∀ n, ∃ it, (ContainerIterator.iterator w root).visits w n =
        some ((w.holdingItems root).take n, it) ∧
      (it.hasNext = true ↔ n < (w.holdingItems root).length)) ∧
    w.holdingItems root = (List.range (w.next + 1)).flatMap (w.itemsAt root) ∧
    ((w.holdingItems root).Pairwise fun earlier later => earlier ∉ w.itemlist later) ∧
    (w.holdingItems root).Nodup ∧ (∀ x, x ∈ w.holdingItems root ↔ w.Inside root x) ∧
    (∀ fuel > w.getItemHoldingCount root,
      (ContainerIterator.iterator w root).countLoop w fuel 0 =
        some {x | w.Inside root x}.ncard ∧
      ∀ item, (ContainerIterator.iterator w root).searchLoop w item fuel =
        some (w.isHoldingItem root item)) ∧
    w.getItemHoldingCount root = {x | w.Inside root x}.ncard ∧
    ∀ item, w.isHoldingItem root item = true ↔ w.Inside root item := by
  refine ⟨h.pending_iterator.visits, h.holdingItems_eq, h.parents_first, h.nodup_holdingItems,
    fun x => h.mem_holdingItems, fun fuel hfuel => ⟨?_, fun item => ?_⟩,
    h.getItemHoldingCount_eq, fun item => ?_⟩
  · rw [h.pending_iterator.countLoop hfuel, Nat.zero_add, ← h.getItemHoldingCount_eq]
    rfl
  · exact h.pending_iterator.searchLoop hfuel item
  · rw [World.isHoldingItem, List.contains_iff_mem, h.mem_holdingItems]

/-- A bag with a bag that holds an item, and with an empty bag. -/
def nestedBags : World :=
  { World.blank with
    next := 4
    item := fun r =>
      let contents := if r = 0 then [1, 2] else if r = 1 then [3] else []
      if r ≤ 2 then
        { World.blank.item r with
          cls := .container
            { kind := .container, maxSize := 8, itemlist := contents, totalWeight := 0 } }
      else World.blank.item r }

theorem itemlist_nestedBags (r : ItemRef) :
    nestedBags.itemlist r = if r = 0 then [1, 2] else if r = 1 then [3] else [] := by
  by_cases h : r ≤ 2
  · simp [nestedBags, World.itemlist, World.container, Item.getContainer, h]
  · have h0 : r ≠ 0 := fun h0 => h (by rw [h0]; decide)
    have h1 : r ≠ 1 := fun h1 => h (by rw [h1]; decide)
    simp [nestedBags, World.itemlist, World.container, Item.getContainer, World.blank, h, h0, h1]

theorem containerTree_nestedBags : ContainerTree nestedBags 0 := by
  have hmem {c x : ItemRef} (h : x ∈ nestedBags.itemlist c) :
      c = 0 ∧ (x = 1 ∨ x = 2) ∨ c = 1 ∧ x = 3 := by
    rw [itemlist_nestedBags] at h
    split_ifs at h with h0 h1
    · exact .inl ⟨h0, by simpa using h⟩
    · exact .inr ⟨h1, by simpa using h⟩
    · cases h
  have hinside {x : ItemRef} (h : nestedBags.Inside 0 x) : x = 1 ∨ x = 2 ∨ x = 3 := by
    obtain ⟨c, -, hx⟩ := Relation.TransGen.tail'_iff.mp h
    rcases hmem hx with ⟨-, hx | hx⟩ | ⟨-, hx⟩ <;> simp [hx]
  refine ⟨fun x hx => ?_, fun c _ => ?_, fun c d _ _ x hc hd => ?_, fun c _ h => ?_⟩
  · rcases hx with rfl | hx
    · decide
    · rcases hinside hx with rfl | rfl | rfl <;> decide
  · rw [itemlist_nestedBags]
    split_ifs <;> decide
  · rcases hmem hc with ⟨rfl, hx⟩ | ⟨rfl, hx⟩ <;> rcases hmem hd with ⟨rfl, hy⟩ | ⟨rfl, hy⟩
    · rfl
    · rcases hx with rfl | rfl <;> cases hy
    · rcases hy with rfl | rfl <;> cases hx
    · rfl
  · rcases hmem h with ⟨-, h | h⟩ | ⟨-, h⟩ <;> cases h

theorem iterator_visits_nestedBags :
    ContainerTree nestedBags 0 ∧ ∀ item, nestedBags.isHoldingItem 0 item = true ↔
      nestedBags.Inside 0 item :=
  ⟨containerTree_nestedBags,
    (iterator_visits_tree nestedBags 0 containerTree_nestedBags).2.2.2.2.2.2.2⟩

end Eloth
