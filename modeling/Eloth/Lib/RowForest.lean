import Mathlib.Algebra.GroupWithZero.Nat
import Mathlib.Data.List.Nodup
import Mathlib.Data.List.Range

/-!
# Forests written as rows

A forest is written level by level: a row for each tree gives its own number and the number of its
parent, and the branches wait in a queue until their children are written. The roots have numbers
of their own, below those that the rows receive.
-/

namespace Eloth.RowForest

inductive Tree (α β : Type*) where
  | leaf (a : α)
  | branch (b : β) (children : List (Tree α β))

variable {α β : Type*}

namespace Tree

def children : Tree α β → List (Tree α β)
  | leaf _ => []
  | branch _ l => l

mutual

/-- The tree and all trees below it meet the condition. -/
def All (P : Tree α β → Prop) : Tree α β → Prop
  | leaf a => P (leaf a)
  | branch b l => P (branch b l) ∧ AllList P l

def AllList (P : Tree α β → Prop) : List (Tree α β) → Prop
  | [] => True
  | t :: ts => All P t ∧ AllList P ts

end

theorem All.self {P : Tree α β → Prop} {t : Tree α β} (h : t.All P) : P t := by
  cases t with
  | leaf a => exact h
  | branch b l => exact h.1

theorem All.children {P : Tree α β → Prop} {t : Tree α β} (h : t.All P) :
    AllList P t.children := by
  cases t with
  | leaf a => trivial
  | branch b l => exact h.2

theorem allList_iff {P : Tree α β → Prop} {l : List (Tree α β)} :
    AllList P l ↔ ∀ t ∈ l, t.All P := by
  induction l with
  | nil => simp [AllList]
  | cons t ts ih => simp [AllList, ih]

mutual

def size : Tree α β → Nat
  | leaf _ => 1
  | branch _ l => 1 + sizeList l

def sizeList : List (Tree α β) → Nat
  | [] => 0
  | t :: ts => size t + sizeList ts

end

mutual

/-- Trees of one shape whose nodes are related. -/
def Rel {γ δ : Type*} (leaves : α → γ → Prop) (nodes : β → δ → Prop) : Tree α β → Tree γ δ → Prop
  | leaf a, leaf c => leaves a c
  | branch b l, branch d l' => nodes b d ∧ RelList leaves nodes l l'
  | _, _ => False

def RelList {γ δ : Type*} (leaves : α → γ → Prop) (nodes : β → δ → Prop) :
    List (Tree α β) → List (Tree γ δ) → Prop
  | [], [] => True
  | t :: ts, t' :: ts' => Rel leaves nodes t t' ∧ RelList leaves nodes ts ts'
  | _, _ => False

end

end Tree

open Tree

structure Row (α β : Type*) where
  pid : Nat
  sid : Nat
  tree : Tree α β

/-- The rows of trees with the numbers of their parents, numbered from `next` on. -/
def number (next : Nat) : List (Nat × Tree α β) → List (Row α β)
  | [] => []
  | (pid, tree) :: entries => ⟨pid, next, tree⟩ :: number (next + 1) entries

/-- The children of the branches among the rows, with the numbers of the branches. -/
def branches : List (Row α β) → List (List (Tree α β) × Nat)
  | [] => []
  | ⟨_, _, .leaf _⟩ :: rows => branches rows
  | ⟨_, sid, .branch _ l⟩ :: rows => (l, sid) :: branches rows

def weight (queue : List (List (Tree α β) × Nat)) : Nat :=
  (queue.map fun block => 1 + sizeList block.1).sum

theorem branches_number_weight (next : Nat) (entries : List (Nat × Tree α β)) :
    weight (branches (number next entries)) ≤ sizeList (entries.map (·.2)) := by
  induction entries generalizing next with
  | nil => simp [number, branches, weight]
  | cons entry entries ih =>
    obtain ⟨pid, tree⟩ := entry
    have hrest := ih (next + 1)
    unfold weight at hrest ⊢
    cases tree with
    | leaf a => simp only [number, branches, List.map_cons, sizeList]; omega
    | branch b l =>
      simp only [number, branches, List.map_cons, List.sum_cons, sizeList, size]
      omega

/-- The children of one branch. -/
def under (pid : Nat) (l : List (Tree α β)) : List (Nat × Tree α β) :=
  l.map fun tree => (pid, tree)

/-- The rows of the children that wait in the queue. -/
def spread (next : Nat) : List (List (Tree α β) × Nat) → List (Row α β)
  | [] => []
  | (l, pid) :: queue =>
    number next (under pid l) ++
      spread (next + l.length) (queue ++ branches (number next (under pid l)))
termination_by queue => weight queue
decreasing_by
  have h := branches_number_weight next (under pid l)
  simp only [under, List.map_map, Function.comp_def, List.map_id'] at h
  simp only [weight, under, List.map_append, List.sum_append, List.map_cons, List.sum_cons] at h ⊢
  omega

/-- The rows of a forest: first those of its roots, then those of the branches. -/
def rows (next : Nat) (roots : List (Nat × Tree α β)) : List (Row α β) :=
  number next roots ++ spread (next + roots.length) (branches (number next roots))

/-- The rows below a number, in their order. -/
def below (rows : List (Row α β)) (pid : Nat) : List (Row α β) :=
  rows.filter fun row => row.pid = pid

theorem below_append (rows rows' : List (Row α β)) (pid : Nat) :
    below (rows ++ rows') pid = below rows pid ++ below rows' pid := by
  simp [below]

theorem below_eq_nil {rows : List (Row α β)} {pid : Nat} (h : ∀ row ∈ rows, row.pid ≠ pid) :
    below rows pid = [] := by
  simpa [below] using h

/-! ## The numbers of a block -/

section Number

variable {next : Nat} {entries : List (Nat × Tree α β)} {row : Row α β}

theorem sids_number (next : Nat) (entries : List (Nat × Tree α β)) :
    (number next entries).map (·.sid) = List.range' next entries.length := by
  induction entries generalizing next with
  | nil => rfl
  | cons entry entries ih => simp [number, ih, List.range'_succ]

theorem length_number (next : Nat) (entries : List (Nat × Tree α β)) :
    (number next entries).length = entries.length := by
  simpa using congrArg List.length (sids_number next entries)

theorem entries_number (next : Nat) (entries : List (Nat × Tree α β)) :
    (number next entries).map (fun row => (row.pid, row.tree)) = entries := by
  induction entries generalizing next with
  | nil => rfl
  | cons entry entries ih => simp [number, ih]

theorem sid_of_mem_number (h : row ∈ number next entries) :
    next ≤ row.sid ∧ row.sid < next + entries.length := by
  have hsid : row.sid ∈ (number next entries).map (·.sid) := List.mem_map_of_mem h
  rw [sids_number] at hsid
  simpa using List.mem_range'_1.mp hsid

theorem entry_of_mem_number (h : row ∈ number next entries) : (row.pid, row.tree) ∈ entries := by
  have hentry : (row.pid, row.tree) ∈
      (number next entries).map (fun row => (row.pid, row.tree)) :=
    List.mem_map_of_mem (f := fun row : Row α β => (row.pid, row.tree)) h
  rwa [entries_number] at hentry

theorem trees_below_number (next : Nat) (entries : List (Nat × Tree α β)) (pid : Nat) :
    (below (number next entries) pid).map (·.tree) =
      (entries.filter fun entry => entry.1 = pid).map (·.2) := by
  induction entries generalizing next with
  | nil => rfl
  | cons entry entries ih =>
    have hrest := ih (next + 1)
    unfold below at hrest ⊢
    by_cases hpid : entry.1 = pid <;> simp [number, hpid, hrest]

theorem mem_branches {rows : List (Row α β)} {l : List (Tree α β)} {sid : Nat} :
    (l, sid) ∈ branches rows ↔ ∃ row ∈ rows, row.sid = sid ∧ ∃ b, row.tree = .branch b l := by
  induction rows with
  | nil => simp [branches]
  | cons row rows ih =>
    obtain ⟨pid, s, tree⟩ := row
    cases tree with
    | leaf a => simp [branches, ih]
    | branch b l' =>
      simp only [branches, List.mem_cons, ih, Prod.mk.injEq, exists_eq_or_imp, Tree.branch.injEq]
      constructor
      · rintro (⟨rfl, rfl⟩ | hmem)
        · exact .inl ⟨rfl, b, rfl, rfl⟩
        · exact .inr hmem
      · rintro (⟨rfl, _, _, rfl⟩ | hmem)
        · exact .inl ⟨rfl, rfl⟩
        · exact .inr hmem

theorem sids_branches_sublist (rows : List (Row α β)) :
    ((branches rows).map (·.2)).Sublist (rows.map (·.sid)) := by
  induction rows with
  | nil => exact .slnil
  | cons row rows ih =>
    obtain ⟨pid, sid, tree⟩ := row
    cases tree with
    | leaf a => exact ih.cons sid
    | branch b l => exact ih.cons_cons sid

end Number

/-! ## The rows of a whole forest -/

/-- The rows written so far, while the children of some branches among them wait. -/
structure Pending (first : Nat) (written : List (Row α β))
    (queue : List (List (Tree α β) × Nat)) : Prop where
  sids : written.map (·.sid) = List.range' first written.length
  pid_lt : ∀ row ∈ written, row.pid < first + written.length
  nodup : (queue.map (·.2)).Nodup
  queue_lt : ∀ block ∈ queue, block.2 < first + written.length
  queued : ∀ block ∈ queue, ∀ row ∈ written, row.sid = block.2 → row.tree.children = block.1
  waiting : ∀ block ∈ queue, below written block.2 = []
  children : ∀ row ∈ written, row.sid ∈ queue.map (·.2) ∨
    (below written row.sid).map (·.tree) = row.tree.children

namespace Pending

variable {first : Nat} {written : List (Row α β)} {queue : List (List (Tree α β) × Nat)}

theorem sid_bounds (h : Pending first written queue) {row : Row α β} (hrow : row ∈ written) :
    first ≤ row.sid ∧ row.sid < first + written.length := by
  have hsid : row.sid ∈ written.map (·.sid) := List.mem_map_of_mem hrow
  rw [h.sids] at hsid
  simpa using List.mem_range'_1.mp hsid

/-- The block of one branch is written. -/
theorem step {l : List (Tree α β)} {pid : Nat} (h : Pending first written ((l, pid) :: queue)) :
    Pending first (written ++ number (first + written.length) (under pid l))
      (queue ++ branches (number (first + written.length) (under pid l))) := by
  set next := first + written.length with hnext
  set block := number next (under pid l) with hblock
  have hlen : block.length = l.length := by rw [hblock, length_number, under, List.length_map]
  have hpid : pid < next := h.queue_lt (l, pid) (by simp)
  have hblockPid : ∀ row ∈ block, row.pid = pid := by
    intro row hrow
    have hentry := entry_of_mem_number hrow
    simp only [under, List.mem_map, Prod.mk.injEq] at hentry
    obtain ⟨_, _, heq, _⟩ := hentry
    exact heq.symm
  have hblockSid : ∀ row ∈ block, next ≤ row.sid := fun row hrow => (sid_of_mem_number hrow).1
  have htrees : (below block pid).map (·.tree) = l := by
    rw [hblock, trees_below_number]
    simp [under, List.filter_map, Function.comp_def]
  have hfresh : ∀ row ∈ block, below (written ++ block) row.sid = [] := by
    intro row hrow
    have hsid := hblockSid row hrow
    apply below_eq_nil
    intro row' hrow' heq
    rcases List.mem_append.mp hrow' with hrow' | hrow'
    · have := h.pid_lt row' hrow'
      omega
    · have := hblockPid row' hrow'
      omega
  have hnodup := h.nodup
  simp only [List.map_cons, List.nodup_cons] at hnodup
  constructor
  · rw [List.map_append, h.sids, hblock, sids_number, List.length_append, length_number,
      List.range'_append_1]
  · intro row hrow
    rw [List.length_append]
    rcases List.mem_append.mp hrow with hrow | hrow
    · have := h.pid_lt row hrow
      omega
    · have := hblockPid row hrow
      omega
  · rw [List.map_append]
    refine hnodup.2.append (((sids_branches_sublist block).nodup) ?_) ?_
    · rw [hblock, sids_number]
      exact List.nodup_range'
    · intro sid hqueue hbranch
      obtain ⟨waiting, hwaiting, rfl⟩ := List.mem_map.mp hqueue
      have hlt := h.queue_lt waiting (List.mem_cons_of_mem _ hwaiting)
      obtain ⟨row, hrow, heq⟩ := List.mem_map.mp ((sids_branches_sublist block).subset hbranch)
      have := hblockSid row hrow
      omega
  · rintro ⟨children, sid⟩ hmem
    rw [List.length_append]
    rcases List.mem_append.mp hmem with hmem | hmem
    · have := h.queue_lt _ (List.mem_cons_of_mem _ hmem)
      omega
    · obtain ⟨row, hrow, rfl, -⟩ := mem_branches.mp hmem
      have := (sid_of_mem_number hrow).2
      rw [← length_number next, ← hblock] at this
      omega
  · rintro ⟨children, sid⟩ hmem row hrow hsid
    rcases List.mem_append.mp hmem with hmem | hmem
    · have hlt := h.queue_lt _ (List.mem_cons_of_mem _ hmem)
      rcases List.mem_append.mp hrow with hrow | hrow
      · exact h.queued _ (List.mem_cons_of_mem _ hmem) row hrow hsid
      · have := hblockSid row hrow
        omega
    · obtain ⟨row', hrow', rfl, b, htree⟩ := mem_branches.mp hmem
      rcases List.mem_append.mp hrow with hrow | hrow
      · have := (h.sid_bounds hrow).2
        have := hblockSid row' hrow'
        omega
      · have hnodup : (block.map (·.sid)).Nodup := by
          rw [hblock, sids_number]
          exact List.nodup_range'
        rw [List.inj_on_of_nodup_map hnodup hrow hrow' hsid, htree]
        rfl
  · rintro ⟨children, sid⟩ hmem
    rcases List.mem_append.mp hmem with hmem | hmem
    · rw [below_append, h.waiting _ (List.mem_cons_of_mem _ hmem), List.nil_append]
      apply below_eq_nil
      intro row hrow heq
      refine hnodup.1 ?_
      rw [← hblockPid row hrow, heq]
      exact List.mem_map_of_mem (f := fun block : List (Tree α β) × Nat => block.2) hmem
    · obtain ⟨row, hrow, rfl, -⟩ := mem_branches.mp hmem
      exact hfresh row hrow
  · intro row hrow
    rcases List.mem_append.mp hrow with hrow | hrow
    · by_cases hsid : row.sid = pid
      · right
        rw [below_append, hsid, h.waiting (l, pid) (by simp), List.nil_append, htrees]
        exact (h.queued (l, pid) (by simp) row hrow hsid).symm
      · rcases h.children row hrow with hqueue | hdone
        · left
          rw [List.map_append]
          apply List.mem_append_left
          rw [List.map_cons, List.mem_cons] at hqueue
          exact hqueue.resolve_left hsid
        · right
          have hnone : below block row.sid = [] :=
            below_eq_nil fun row' hrow' heq => hsid (heq.symm.trans (hblockPid row' hrow'))
          rw [below_append, hnone, List.append_nil, hdone]
    · cases htree : row.tree with
      | leaf a =>
        right
        rw [hfresh row hrow]
        rfl
      | branch b children =>
        left
        rw [List.map_append]
        apply List.mem_append_right
        exact List.mem_map_of_mem (f := fun block : List (Tree α β) × Nat => block.2)
          (mem_branches.mpr ⟨row, hrow, rfl, b, htree⟩)

theorem spread {next : Nat} (h : Pending first written queue)
    (hnext : next = first + written.length) :
    Pending first (written ++ RowForest.spread next queue) [] := by
  induction next, queue using spread.induct generalizing written with
  | case1 next => simpa [RowForest.spread] using h
  | case2 next l pid queue ih =>
    have hstep := h.step
    rw [← hnext] at hstep
    have hlen : next + l.length = first + (written ++ number next (under pid l)).length := by
      rw [List.length_append, length_number, under, List.length_map]
      omega
    rw [RowForest.spread, ← List.append_assoc]
    exact ih hstep hlen

end Pending

theorem pid_of_mem_spread {next : Nat} {queue : List (List (Tree α β) × Nat)} {row : Row α β}
    (h : row ∈ spread next queue) : row.pid ∈ queue.map (·.2) ∨ next ≤ row.pid := by
  induction next, queue using spread.induct with
  | case1 next => simp [spread] at h
  | case2 next l pid queue ih =>
    rw [spread, List.mem_append] at h
    rcases h with h | h
    · have hentry := entry_of_mem_number h
      simp only [under, List.mem_map, Prod.mk.injEq] at hentry
      obtain ⟨_, _, heq, _⟩ := hentry
      left
      simp [heq]
    · rcases ih h with hqueue | hle
      · rw [List.map_append, List.mem_append] at hqueue
        rcases hqueue with hqueue | hbranch
        · left
          exact List.mem_cons_of_mem _ hqueue
        · right
          obtain ⟨row', hrow', heq⟩ := List.mem_map.mp ((sids_branches_sublist _).subset hbranch)
          exact heq ▸ (sid_of_mem_number hrow').1
      · right
        omega

theorem all_of_mem_spread {P : Tree α β → Prop} {next : Nat}
    {queue : List (List (Tree α β) × Nat)} (hall : ∀ block ∈ queue, AllList P block.1)
    {row : Row α β} (h : row ∈ spread next queue) : row.tree.All P := by
  induction next, queue using spread.induct with
  | case1 next => simp [spread] at h
  | case2 next l pid queue ih =>
    have hblock : ∀ row ∈ number next (under pid l), row.tree.All P := by
      intro row hrow
      have hentry := entry_of_mem_number hrow
      simp only [under, List.mem_map, Prod.mk.injEq] at hentry
      obtain ⟨tree, htree, -, heq⟩ := hentry
      exact heq ▸ allList_iff.mp (hall (l, pid) (by simp)) tree htree
    rw [spread, List.mem_append] at h
    rcases h with h | h
    · exact hblock row h
    · refine ih (fun block hmem => ?_) h
      rcases List.mem_append.mp hmem with hmem | hmem
      · exact hall block (List.mem_cons_of_mem _ hmem)
      · obtain ⟨row', hrow', -, b, htree⟩ := mem_branches.mp hmem
        have hchildren := (hblock row' hrow').children
        rwa [htree] at hchildren

namespace Pending

variable {first next : Nat} {written : List (Row α β)} {queue : List (List (Tree α β) × Nat)}

/-- All the rows below the head of the queue are those of its block. -/
theorem below_head {l : List (Tree α β)} {pid : Nat} (h : Pending first written ((l, pid) :: queue))
    (hnext : next = first + written.length) :
    below (written ++ RowForest.spread next ((l, pid) :: queue)) pid =
      number next (under pid l) := by
  have hlt : pid < next := hnext ▸ h.queue_lt (l, pid) (by simp)
  have hblock : below (number next (under pid l)) pid = number next (under pid l) := by
    refine List.filter_eq_self.mpr fun row hrow => ?_
    have hentry := entry_of_mem_number hrow
    simp only [under, List.mem_map, Prod.mk.injEq] at hentry
    obtain ⟨_, _, heq, _⟩ := hentry
    simpa using heq.symm
  have hnodup := h.nodup
  simp only [List.map_cons, List.nodup_cons] at hnodup
  have hrest : below (RowForest.spread (next + l.length)
      (queue ++ branches (number next (under pid l)))) pid = [] := by
    apply below_eq_nil
    rintro row hrow rfl
    rcases pid_of_mem_spread hrow with hqueue | hle
    · rw [List.map_append, List.mem_append] at hqueue
      rcases hqueue with hqueue | hbranch
      · exact hnodup.1 hqueue
      · obtain ⟨row', hrow', heq⟩ := List.mem_map.mp ((sids_branches_sublist _).subset hbranch)
        have := (sid_of_mem_number hrow').1
        omega
    · omega
  rw [RowForest.spread, below_append, below_append, h.waiting (l, pid) (by simp), hblock, hrest,
    List.nil_append, List.append_nil]

theorem trees_below (h : Pending first written queue) (hnext : next = first + written.length) :
    ∀ block ∈ queue,
      (below (written ++ RowForest.spread next queue) block.2).map (·.tree) = block.1 := by
  induction next, queue using spread.induct generalizing written with
  | case1 next => simp
  | case2 next l pid queue ih =>
    intro block hmem
    rcases List.mem_cons.mp hmem with rfl | hmem
    · rw [h.below_head hnext]
      have htrees := congrArg (List.map Prod.snd) (entries_number next (under pid l))
      simpa [under, Function.comp_def] using htrees
    · have hstep := h.step
      rw [← hnext] at hstep
      have hlen : next + l.length = first + (written ++ number next (under pid l)).length := by
        rw [List.length_append, length_number, under, List.length_map]
        omega
      rw [RowForest.spread, ← List.append_assoc]
      exact ih hstep hlen block (List.mem_append_left _ hmem)

end Pending

/-! ## Walking through the rows -/

section Walk

variable (children : Nat → List Nat)

mutual

/-- The numbers of a tree and of all that is below it, when the children of a number are
`children`. -/
def walk (sid : Nat) : Tree α β → List Nat
  | .leaf _ => [sid]
  | .branch _ l => sid :: walkList (children sid) l

def walkList : List Nat → List (Tree α β) → List Nat
  | sid :: sids, t :: ts => walk sid t ++ walkList sids ts
  | _, _ => []

end

theorem walkList_rows (rows : List (Row α β)) :
    (walkList children (rows.map (·.sid)) (rows.map (·.tree))).Perm (rows.map (·.sid) ++
      (branches rows).flatMap fun block => walkList children (children block.2) block.1) := by
  induction rows with
  | nil => simp [walkList, branches]
  | cons row rows ih =>
    obtain ⟨pid, sid, tree⟩ := row
    cases tree with
    | leaf a => simpa [walkList, walk, branches] using ih
    | branch b l =>
      simp only [walkList, walk, branches, List.map_cons, List.flatMap_cons, List.cons_append]
      refine .cons _ ((ih.append_left _).trans ?_)
      rw [← List.append_assoc, ← List.append_assoc]
      exact List.perm_append_comm.append_right _

end Walk

section Holds

variable (node : Nat → Tree α β → Prop) (children : Nat → List Nat)

mutual

/-- The numbers from `sid` downwards hold the tree, when `node` tells what a number holds itself. -/
def Holds (sid : Nat) : Tree α β → Prop
  | .leaf a => node sid (.leaf a)
  | .branch b l => node sid (.branch b l) ∧ HoldsList (children sid) l

def HoldsList : List Nat → List (Tree α β) → Prop
  | [], [] => True
  | sid :: sids, t :: ts => Holds sid t ∧ HoldsList sids ts
  | _, _ => False

end

variable {node children} {rows : List (Row α β)}

mutual

theorem holds_of_rows (hat : ∀ row ∈ rows, node row.sid row.tree)
    (hchildren : ∀ row ∈ rows, ∃ rows' : List (Row α β), rows'.Sublist rows ∧
      rows'.map (·.sid) = children row.sid ∧ rows'.map (·.tree) = row.tree.children)
    (row : Row α β) (hrow : row ∈ rows) (t : Tree α β) (ht : row.tree = t) :
    Holds node children row.sid t := by
  obtain ⟨rows', hsub, hsids, htrees⟩ := hchildren row hrow
  have hself := hat row hrow
  rw [ht] at hself htrees
  match t with
  | .leaf a => exact hself
  | .branch b l =>
    refine ⟨hself, ?_⟩
    rw [← hsids]
    exact holdsList_of_rows hat hchildren rows' hsub l htrees

theorem holdsList_of_rows (hat : ∀ row ∈ rows, node row.sid row.tree)
    (hchildren : ∀ row ∈ rows, ∃ rows' : List (Row α β), rows'.Sublist rows ∧
      rows'.map (·.sid) = children row.sid ∧ rows'.map (·.tree) = row.tree.children)
    (rows' : List (Row α β)) (hsub : rows'.Sublist rows) (l : List (Tree α β))
    (hl : rows'.map (·.tree) = l) : HoldsList node children (rows'.map (·.sid)) l := by
  match l, rows' with
  | [], [] => trivial
  | [], _ :: _ => simp at hl
  | _ :: _, [] => simp at hl
  | t :: ts, row :: rows' =>
    rw [List.map_cons, List.cons.injEq] at hl
    exact ⟨holds_of_rows hat hchildren row (hsub.subset (by simp)) t hl.1,
      holdsList_of_rows hat hchildren rows' ((List.sublist_cons_self _ _).trans hsub) ts hl.2⟩

end

end Holds

/-- The rows of a number, by their own numbers. -/
def childrenOf (rows : List (Row α β)) (pid : Nat) : List Nat := (below rows pid).map (·.sid)

/-- Every row is met once on the walk from the numbers that wait. -/
theorem Pending.walk_spread {first next : Nat} {written : List (Row α β)}
    {queue : List (List (Tree α β) × Nat)} {children : Nat → List Nat}
    (h : Pending first written queue) (hnext : next = first + written.length)
    {all : List (Row α β)} (hall : all = written ++ RowForest.spread next queue)
    (hchildren : ∀ row ∈ RowForest.spread next queue, children row.sid = childrenOf all row.sid) :
    (queue.flatMap fun block => walkList children (childrenOf all block.2) block.1).Perm
      ((RowForest.spread next queue).map (·.sid)) := by
  induction next, queue using spread.induct generalizing written with
  | case1 next => simp [RowForest.spread]
  | case2 next l pid queue ih =>
    have hsids : childrenOf all pid = (number next (under pid l)).map (·.sid) := by
      rw [childrenOf, hall, h.below_head hnext]
    have htrees : (number next (under pid l)).map (·.tree) = l := by
      have htrees := congrArg (List.map Prod.snd) (entries_number next (under pid l))
      simpa [under, Function.comp_def] using htrees
    have hstep := h.step
    rw [← hnext] at hstep
    have hlen : next + l.length = first + (written ++ number next (under pid l)).length := by
      rw [List.length_append, length_number, under, List.length_map]
      omega
    rw [RowForest.spread] at hchildren hall ⊢
    have hrest := ih hstep hlen (by rw [hall, List.append_assoc])
      fun row hrow => hchildren row (List.mem_append_right _ hrow)
    have hbranches : (branches (number next (under pid l))).map
          (fun block => walkList children (children block.2) block.1) =
        (branches (number next (under pid l))).map
          fun block => walkList children (childrenOf all block.2) block.1 := by
      refine List.map_congr_left fun block hblock => ?_
      obtain ⟨row, hrow, hsid, -⟩ := mem_branches.mp hblock
      rw [← hsid, hchildren row (List.mem_append_left _ hrow)]
    have hblock := walkList_rows children (number next (under pid l))
    rw [htrees, ← hsids, List.flatMap_def, hbranches, ← List.flatMap_def] at hblock
    rw [List.flatMap_append] at hrest
    rw [List.flatMap_cons, List.map_append, ← hsids]
    refine (hblock.append_right _).trans ?_
    rw [List.append_assoc]
    exact (List.perm_append_comm.trans hrest).append_left _

/-! ## Roots in groups -/

theorem number_append (next : Nat) (entries entries' : List (Nat × Tree α β)) :
    number next (entries ++ entries') =
      number next entries ++ number (next + entries.length) entries' := by
  induction entries generalizing next with
  | nil => rfl
  | cons entry entries ih =>
    rw [List.cons_append, number, number, ih, List.length_cons, List.cons_append,
      Nat.add_right_comm, Nat.add_assoc]

theorem branches_append (rows rows' : List (Row α β)) :
    branches (rows ++ rows') = branches rows ++ branches rows' := by
  induction rows with
  | nil => rfl
  | cons row rows ih =>
    obtain ⟨pid, sid, tree⟩ := row
    cases tree with
    | leaf a => exact ih
    | branch b l => simp only [List.cons_append, branches, ih]

/-- The entries of the roots, with one group of trees for each number. -/
def rootEntries (groups : List (List (Tree α β) × Nat)) : List (Nat × Tree α β) :=
  groups.flatMap fun group => under group.2 group.1

theorem spread_append (next : Nat) (groups queue : List (List (Tree α β) × Nat)) :
    spread next (groups ++ queue) = number next (rootEntries groups) ++
      spread (next + (rootEntries groups).length)
        (queue ++ branches (number next (rootEntries groups))) := by
  induction groups generalizing next queue with
  | nil => simp [rootEntries, number, branches]
  | cons group groups ih =>
    obtain ⟨l, pid⟩ := group
    have hentries : rootEntries ((l, pid) :: groups) = under pid l ++ rootEntries groups := rfl
    have hlen : (under pid l).length = l.length := List.length_map _
    rw [List.cons_append, spread, List.append_assoc, ih, hentries, number_append, branches_append,
      List.length_append, hlen]
    simp only [List.append_assoc, Nat.add_assoc]

theorem rows_rootEntries (next : Nat) (groups : List (List (Tree α β) × Nat)) :
    rows next (rootEntries groups) = spread next groups := by
  have h := spread_append next groups []
  rw [List.append_nil, List.nil_append] at h
  exact h.symm

theorem all_of_mem_rows {P : Tree α β → Prop} {first : Nat}
    {groups : List (List (Tree α β) × Nat)} (hall : ∀ group ∈ groups, AllList P group.1)
    {row : Row α β} (hrow : row ∈ rows first (rootEntries groups)) : row.tree.All P := by
  rw [rows_rootEntries] at hrow
  exact all_of_mem_spread hall hrow

/-- The roots have different numbers below those of the rows. -/
structure Rooted (first : Nat) (groups : List (List (Tree α β) × Nat)) : Prop where
  nodup : (groups.map (·.2)).Nodup
  lt : ∀ group ∈ groups, group.2 < first

namespace Rooted

variable {first : Nat} {groups : List (List (Tree α β) × Nat)}

theorem pending (h : Rooted first groups) : Pending first [] groups where
  sids := rfl
  pid_lt := by simp
  nodup := h.nodup
  queue_lt group hgroup := Nat.lt_of_lt_of_le (h.lt group hgroup) (Nat.le_add_right _ _)
  queued := by simp
  waiting := by simp [below]
  children := by simp

theorem sids (h : Rooted first groups) :
    (rows first (rootEntries groups)).map (·.sid) =
      List.range' first (rows first (rootEntries groups)).length := by
  rw [rows_rootEntries]
  exact (h.pending.spread rfl).sids

theorem trees_below_root (h : Rooted first groups) :
    ∀ group ∈ groups,
      (below (rows first (rootEntries groups)) group.2).map (·.tree) = group.1 := by
  rw [rows_rootEntries]
  exact h.pending.trees_below rfl

theorem trees_below_row (h : Rooted first groups) {row : Row α β}
    (hrow : row ∈ rows first (rootEntries groups)) :
    (below (rows first (rootEntries groups)) row.sid).map (·.tree) = row.tree.children := by
  rw [rows_rootEntries] at hrow ⊢
  exact ((h.pending.spread rfl).children row hrow).resolve_left (by simp)

theorem walk (h : Rooted first groups) {children : Nat → List Nat}
    (hchildren : ∀ row ∈ rows first (rootEntries groups),
      children row.sid = childrenOf (rows first (rootEntries groups)) row.sid) :
    (groups.flatMap fun group =>
      walkList children (childrenOf (rows first (rootEntries groups)) group.2) group.1).Perm
      ((rows first (rootEntries groups)).map (·.sid)) := by
  rw [rows_rootEntries] at hchildren ⊢
  exact h.pending.walk_spread rfl rfl hchildren

end Rooted

end Eloth.RowForest
