import Mathlib.Data.List.Nodup
import Mathlib.Data.List.Perm.Basic

/-!
# Timers and a queue of tasks

Tasks are added with a delay. One that is due goes to the end of a queue, from which the tasks are
taken in order. A task can be stopped while its timer runs and not when it is in the queue.
-/

namespace Eloth

structure TaskTimer (F : Type) where
  id : Nat
  due : Nat
  task : F

structure TaskQueue (F : Type) where
  now : Nat := 0
  lastEventId : Nat := 0
  timers : List (TaskTimer F) := []
  queue : List F := []

namespace TaskQueue

variable {F : Type} (q : TaskQueue F)

def addEvent (delay : Nat) (task : F) : TaskQueue F :=
  { q with
    lastEventId := q.lastEventId + 1
    timers := q.timers ++ [⟨q.lastEventId + 1, q.now + delay, task⟩] }

def stopEvent (eventId : Nat) : TaskQueue F :=
  if eventId = 0 then q else { q with timers := q.timers.filter fun t => t.id ≠ eventId }

/-- A timer that is due has run out. -/
def expire (i : Nat) : TaskQueue F :=
  match q.timers[i]? with
  | some t =>
    if t.due ≤ q.now then { q with timers := q.timers.eraseIdx i, queue := q.queue ++ [t.task] }
    else q
  | none => q

def pass (time : Nat) : TaskQueue F := { q with now := q.now + time }

def next : TaskQueue F := { q with queue := q.queue.tail }

/-- The tasks of a kind that will run unless they are stopped. -/
def pending (p : F → Bool) : List F := (q.timers.map (·.task) ++ q.queue).filter p

/-- Every timer has an id of its own that was given out. -/
structure Fresh : Prop where
  le : ∀ t ∈ q.timers, t.id ≤ q.lastEventId
  distinct : (q.timers.map (·.id)).Nodup

variable {q} {p : F → Bool} {task : F} {delay eventId i time : Nat}

@[simp] theorem pending_pass : (q.pass time).pending p = q.pending p := rfl

theorem pending_addEvent_of_pos (h : p task = true) :
    ((q.addEvent delay task).pending p).Perm (task :: q.pending p) := by
  simp only [pending, addEvent, List.map_append, List.map_cons, List.map_nil, List.filter_append,
    List.append_assoc]
  rw [List.filter_cons_of_pos h]
  exact List.perm_middle

theorem pending_addEvent_of_neg (h : p task = false) :
    (q.addEvent delay task).pending p = q.pending p := by
  simp [pending, addEvent, h]

/-- A timer that is left has another id. -/
theorem mem_timers_stopEvent {t : TaskTimer F} (h : t ∈ (q.stopEvent eventId).timers) :
    t ∈ q.timers ∧ (eventId ≠ 0 → t.id ≠ eventId) := by
  rw [stopEvent] at h
  split_ifs at h with hzero
  · exact ⟨h, fun hne => absurd hzero hne⟩
  · obtain ⟨h, hid⟩ := List.mem_filter.mp h
    exact ⟨h, fun _ => of_decide_eq_true hid⟩

@[simp] theorem queue_stopEvent : (q.stopEvent eventId).queue = q.queue := by
  rw [stopEvent]
  split_ifs <;> rfl

theorem pending_expire : ((q.expire i).pending p).Perm (q.pending p) := by
  rw [expire]
  cases ht : q.timers[i]? with
  | none => exact .refl _
  | some t =>
    dsimp only
    split_ifs
    · obtain ⟨hi, rfl⟩ := List.getElem?_eq_some_iff.mp ht
      refine List.Perm.filter p ?_
      have hsplit : q.timers.Perm (q.timers[i] :: q.timers.eraseIdx i) :=
        (List.getElem_cons_eraseIdx_perm hi).symm
      have hlast : ((q.timers.eraseIdx i).map (·.task) ++ (q.queue ++ [q.timers[i].task])).Perm
          ((q.timers[i] :: q.timers.eraseIdx i).map (·.task) ++ q.queue) := by
        rw [← List.append_assoc]
        exact List.perm_append_singleton _ _
      exact hlast.trans ((hsplit.symm.map _).append_right _)
    · exact .refl _

theorem pending_next (h : q.queue.head? = some task) :
    (q.pending p).Perm ([task].filter p ++ q.next.pending p) := by
  obtain ⟨rest, hqueue⟩ := List.head?_eq_some_iff.mp h
  simp only [pending, next, hqueue, List.tail_cons]
  rw [← List.filter_append]
  exact List.perm_middle.filter p

@[simp] theorem now_expire : (q.expire i).now = q.now := by
  rw [expire]
  cases q.timers[i]? with
  | none => rfl
  | some t =>
    dsimp only
    split_ifs <;> rfl

theorem timers_expire : (q.expire i).timers.Sublist q.timers := by
  rw [expire]
  cases q.timers[i]? with
  | none => exact .refl _
  | some t =>
    dsimp only
    split_ifs
    · exact List.eraseIdx_sublist _ _
    · exact .refl _

end TaskQueue

end Eloth
