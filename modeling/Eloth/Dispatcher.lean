import Mathlib.Data.List.Basic
import Eloth.Lib.Run
import Eloth.Lib.SignalledQueue
import Eloth.Scheduler

/-!
# The dispatcher

Tasks come from any thread and are run by the thread of the dispatcher, which takes all that are
waiting at once. What a thread does under the lock of the task list is one step here; the
notification of `addTask` comes after the lock was released, so it is a step of its own.
-/

namespace Eloth

/-- What a task calls. The task of `shutdown` ends the thread. -/
inductive TaskFunc (F : Type) where
  | call (f : F)
  | terminate

def TaskFunc.isTerminate {F : Type} : TaskFunc F → Bool
  | call _ => false
  | terminate => true

/-- The expiration zero stands for none. -/
structure DispatcherTask (F : Type) where
  func : TaskFunc F
  expiration : Nat := 0

def DispatcherTask.hasExpired {F : Type} (task : DispatcherTask F) (now : Nat) : Bool :=
  if task.expiration = 0 then false else decide (task.expiration < now)

/-- Where the thread is in `threadMain`: at the condition of the loop, before the lock, in the
wait, past the wait, in the loop over the tasks that it took, or past the end. -/
inductive DispatcherThread (F : Type) where
  | check
  | lock
  | wait
  | woken
  | run (tmpTaskList : List (DispatcherTask F))
  | ended

/-- The notifications are those that `addTask` still owes. The tasks that were accepted are kept
in order, and so are those that the thread is done with, each with whether it was executed. -/
structure Dispatcher (F : Type) where
  state : ThreadState := .running
  taskList : List (DispatcherTask F) := []
  thread : DispatcherThread F := .check
  signals : Nat := 0
  dispatcherCycle : Nat := 0
  accepted : List (DispatcherTask F) := []
  handled : List (DispatcherTask F × Bool) := []

namespace Dispatcher

variable {F : Type} (d : Dispatcher F)

def addTask (task : DispatcherTask F) : Dispatcher F :=
  if d.state = .running then
    { d with
      signals := d.signals + if d.taskList.isEmpty then 1 else 0
      taskList := d.taskList ++ [task]
      accepted := d.accepted ++ [task] }
  else d

def notify_one : Dispatcher F :=
  match d.thread with
  | .wait => { d with thread := .woken }
  | _ => d

def stop : Dispatcher F := { d with state := .closing }

def terminateTask : DispatcherTask F where
  func := .terminate

/-- The task is added and the thread notified under the lock. -/
def shutdown : Dispatcher F :=
  { d with
    taskList := d.taskList ++ [terminateTask]
    accepted := d.accepted ++ [terminateTask] }.notify_one

/-- The thread swaps its empty list with the task list. -/
def swap : Dispatcher F := { d with thread := .run d.taskList, taskList := [] }

def execute (task : DispatcherTask F) : Dispatcher F :=
  match task.func with
  | .call _ => d
  | .terminate => { d with state := .terminated }.notify_one

/-- One task of the loop. What its function does to the dispatcher are steps of their own. -/
def runTask (now : Nat) (task : DispatcherTask F) (rest : List (DispatcherTask F)) :
    Dispatcher F :=
  if !task.hasExpired now then
    { { d with dispatcherCycle := d.dispatcherCycle + 1 }.execute task with
      thread := .run rest
      handled := d.handled ++ [(task, true)] }
  else { d with thread := .run rest, handled := d.handled ++ [(task, false)] }

/-- The next step of `threadMain`. In the wait there is none. -/
def threadMain (now : Nat) : Option (Dispatcher F) :=
  match d.thread with
  | .check => some { d with thread := if d.state ≠ .terminated then .lock else .ended }
  | .lock => some (if d.taskList.isEmpty then { d with thread := .wait } else d.swap)
  | .wait => none
  | .woken => some d.swap
  | .run (task :: rest) => some (d.runTask now task rest)
  | .run [] => some { d with thread := .check }
  | .ended => none

end Dispatcher

inductive DispatcherOp (F : Type) where
  | addTask (task : DispatcherTask F)
  | notify
  | spuriousWakeup
  | stop
  | shutdown
  | thread (now : Nat)

namespace DispatcherOp

variable {F : Type}

def apply (d : Dispatcher F) : DispatcherOp F → Option (Dispatcher F)
  | addTask task => some (d.addTask task)
  | notify =>
    match d.signals with
    | 0 => none
    | signals + 1 => some { d with signals := signals }.notify_one
  | spuriousWakeup => some d.notify_one
  | stop => some d.stop
  | shutdown => some d.shutdown
  | thread now => d.threadMain now

/-- The steps that are left when nobody calls the dispatcher any more. -/
def Internal : DispatcherOp F → Prop
  | notify | thread _ => True
  | _ => False

end DispatcherOp

def dispatcherSystem (F : Type) : Run.System (Dispatcher F) (DispatcherOp F) where
  init d := d = {}
  step d op d' := op.apply d = some d'

/-! ## The queue behind it -/

namespace Dispatcher

variable {F : Type} {d d' : Dispatcher F} {op : DispatcherOp F} {now : Nat}

def tmpTaskList (d : Dispatcher F) : List (DispatcherTask F) :=
  match d.thread with
  | .run tasks => tasks
  | _ => []

def waits (d : Dispatcher F) : Bool :=
  match d.thread with
  | .wait => true
  | _ => false

def queueState (d : Dispatcher F) : SignalledQueue.State (DispatcherTask F) where
  queue := d.taskList
  asleep := d.waits
  signals := d.signals
  added := d.accepted
  taken := d.handled.map Prod.fst ++ d.tmpTaskList

theorem queueState_notify_one (d : Dispatcher F) :
    d.notify_one.queueState = { d.queueState with asleep := false } := by
  obtain ⟨state, taskList, thread, signals, cycle, accepted, handled⟩ := d
  cases thread <;> rfl

theorem queueState_swap (hwaits : d.waits = false) (htmp : d.tmpTaskList = []) :
    SignalledQueue.Step d.queueState d.swap.queueState := by
  have htake := SignalledQueue.Step.take d.queueState d.taskList [] (List.append_nil _).symm
  simp only [queueState, htmp, List.append_nil, hwaits] at htake ⊢
  exact htake

theorem runTask_eq {task : DispatcherTask F} {rest : List (DispatcherTask F)}
    (hthread : d.thread = .run (task :: rest)) :
    d.runTask now task rest = { d with
      state := if !task.hasExpired now && task.func.isTerminate then .terminated else d.state
      thread := .run rest
      dispatcherCycle := d.dispatcherCycle + if task.hasExpired now then 0 else 1
      handled := d.handled ++ [(task, !task.hasExpired now)] } := by
  obtain ⟨state, taskList, thread, signals, cycle, accepted, handled⟩ := d
  obtain rfl : thread = .run (task :: rest) := hthread
  unfold runTask execute
  cases task.hasExpired now <;> cases task.func <;> rfl

theorem queueState_runTask {task : DispatcherTask F} {rest : List (DispatcherTask F)}
    (hthread : d.thread = .run (task :: rest)) :
    (d.runTask now task rest).queueState = d.queueState := by
  rw [runTask_eq hthread]
  simp [queueState, waits, tmpTaskList, hthread]

/-- Every step of the dispatcher is one of the queue, or does not touch it. -/
theorem queueState_apply (h : op.apply d = some d') :
    d'.queueState = d.queueState ∨ SignalledQueue.Step d.queueState d'.queueState := by
  cases op with
  | addTask task =>
    obtain rfl := Option.some.inj h
    by_cases hstate : d.state = .running
    · rw [addTask, if_pos hstate]
      exact .inr (.add d.queueState task)
    · rw [addTask, if_neg hstate]
      exact .inl rfl
  | notify =>
    simp only [DispatcherOp.apply] at h
    split at h
    next => cases h
    next signals hsignals =>
      obtain rfl := Option.some.inj h
      rw [queueState_notify_one]
      exact .inr (.signal d.queueState signals hsignals)
  | spuriousWakeup =>
    obtain rfl := Option.some.inj h
    rw [queueState_notify_one]
    exact .inr (.wake d.queueState)
  | stop =>
    obtain rfl := Option.some.inj h
    exact .inl rfl
  | shutdown =>
    obtain rfl := Option.some.inj h
    rw [shutdown, queueState_notify_one]
    exact .inr (.addAndSignal d.queueState _)
  | thread now =>
    simp only [DispatcherOp.apply, threadMain] at h
    split at h
    next hthread =>
      obtain rfl := Option.some.inj h
      left
      split_ifs <;> simp [queueState, waits, tmpTaskList, hthread]
    next hthread =>
      obtain rfl := Option.some.inj h
      split_ifs with hempty
      · right
        have hsleep := SignalledQueue.Step.sleep d.queueState (List.isEmpty_iff.mp hempty)
        simpa [queueState, waits, tmpTaskList, hthread] using hsleep
      · exact .inr (queueState_swap (by rw [waits, hthread]) (by rw [tmpTaskList, hthread]))
    next => cases h
    next hthread =>
      obtain rfl := Option.some.inj h
      exact .inr (queueState_swap (by rw [waits, hthread]) (by rw [tmpTaskList, hthread]))
    next task rest hthread =>
      obtain rfl := Option.some.inj h
      exact .inl (queueState_runTask hthread)
    next hthread =>
      obtain rfl := Option.some.inj h
      left
      simp [queueState, waits, tmpTaskList, hthread]
    next => cases h

/-! ## Runs -/

/-- A task without an expiration is executed, and the thread does not end before the task of
`shutdown` was handled. -/
structure Sound (d : Dispatcher F) : Prop where
  queue : SignalledQueue.Sound d.queueState
  executed : ∀ e ∈ d.handled, e.1.expiration = 0 → e.2 = true
  ended : d.state = .terminated ∨ d.thread = .ended → ∃ e ∈ d.handled, e.1.func.isTerminate

theorem notify_one_cases (d : Dispatcher F) :
    d.notify_one = d ∨ d.notify_one = { d with thread := .woken } := by
  unfold notify_one
  split
  · exact .inr rfl
  · exact .inl rfl

/-- What a step adds to the tasks that were handled, and when the thread ends. -/
structure Follows (d d' : Dispatcher F) : Prop where
  handled : d'.handled = d.handled ∨ ∃ task now,
    d'.handled = d.handled ++ [(task, !task.hasExpired now)]
  ended : d'.state = .terminated ∨ d'.thread = .ended →
    d.state = .terminated ∨ d.thread = .ended ∨ ∃ e ∈ d'.handled, e.1.func.isTerminate

theorem Follows.of_same (hhandled : d'.handled = d.handled)
    (hstate : d'.state = .terminated → d.state = .terminated)
    (hthread : d'.thread = .ended → d.state = .terminated ∨ d.thread = .ended) :
    Follows d d' where
  handled := .inl hhandled
  ended := by
    rintro (h | h)
    · exact .inl (hstate h)
    · exact (hthread h).imp_right .inl

theorem follows_notify_one (d : Dispatcher F) : Follows d d.notify_one := by
  obtain h | h := notify_one_cases d <;> rw [h]
  · exact .of_same rfl id .inr
  · exact .of_same rfl id nofun

theorem follows_runTask {task : DispatcherTask F} {rest : List (DispatcherTask F)}
    (hthread : d.thread = .run (task :: rest)) : Follows d (d.runTask now task rest) := by
  rw [runTask_eq hthread]
  refine ⟨.inr ⟨task, now, rfl⟩, fun hend => ?_⟩
  simp only [reduceCtorEq, or_false] at hend
  split_ifs at hend with hterminate
  · rw [Bool.and_eq_true] at hterminate
    exact .inr (.inr ⟨_, List.mem_append_right _ (List.mem_singleton_self _), hterminate.2⟩)
  · exact .inl hend

theorem follows_apply (h : op.apply d = some d') : Follows d d' := by
  cases op with
  | addTask task =>
    obtain rfl := Option.some.inj h
    by_cases hstate : d.state = .running
    · rw [addTask, if_pos hstate]
      exact .of_same rfl id .inr
    · rw [addTask, if_neg hstate]
      exact .of_same rfl id .inr
  | notify =>
    simp only [DispatcherOp.apply] at h
    split at h
    next => cases h
    next signals hsignals =>
      obtain rfl := Option.some.inj h
      obtain ⟨hhandled, hended⟩ := follows_notify_one { d with signals := signals }
      exact ⟨hhandled, hended⟩
  | spuriousWakeup =>
    obtain rfl := Option.some.inj h
    exact follows_notify_one d
  | stop =>
    obtain rfl := Option.some.inj h
    exact .of_same rfl nofun .inr
  | shutdown =>
    obtain rfl := Option.some.inj h
    obtain ⟨hhandled, hended⟩ := follows_notify_one { d with
      taskList := d.taskList ++ [terminateTask], accepted := d.accepted ++ [terminateTask] }
    exact ⟨hhandled, hended⟩
  | thread now =>
    simp only [DispatcherOp.apply, threadMain] at h
    split at h
    next hthread =>
      obtain rfl := Option.some.inj h
      refine .of_same rfl id fun hend => ?_
      split_ifs at hend with hstate
      exact .inl (not_not.mp hstate)
    next hthread =>
      obtain rfl := Option.some.inj h
      split_ifs
      · exact .of_same rfl id nofun
      · exact .of_same rfl id nofun
    next => cases h
    next hthread =>
      obtain rfl := Option.some.inj h
      exact .of_same rfl id nofun
    next task rest hthread =>
      obtain rfl := Option.some.inj h
      exact follows_runTask hthread
    next hthread =>
      obtain rfl := Option.some.inj h
      exact .of_same rfl id nofun
    next => cases h

theorem not_hasExpired_of_none {task : DispatcherTask F} (h : task.expiration = 0) (now : Nat) :
    task.hasExpired now = false := if_pos h

theorem Sound.apply (h : Sound d) (hop : op.apply d = some d') : Sound d' := by
  obtain ⟨hhandled, hended⟩ := follows_apply hop
  refine ⟨?_, ?_, fun hend => ?_⟩
  · obtain hsame | hstep := queueState_apply hop
    · rw [hsame]
      exact h.queue
    · exact h.queue.step hstep
  · obtain hsame | ⟨task, now, hmore⟩ := hhandled
    · rw [hsame]
      exact h.executed
    · rw [hmore]
      intro e he hnone
      obtain he | he := List.mem_append.mp he
      · exact h.executed e he hnone
      · rw [List.mem_singleton.mp he] at hnone ⊢
        simp only [not_hasExpired_of_none hnone, Bool.not_false]
  · have hkept (hbefore : d.state = .terminated ∨ d.thread = .ended) :
        ∃ e ∈ d'.handled, e.1.func.isTerminate := by
      obtain ⟨e, he, hterminate⟩ := h.ended hbefore
      refine ⟨e, ?_, hterminate⟩
      obtain hsame | ⟨task, now, hmore⟩ := hhandled
      · rwa [hsame]
      · rw [hmore]
        exact List.mem_append_left _ he
    obtain hstate | hthread | hnew := hended hend
    · exact hkept (.inl hstate)
    · exact hkept (.inr hthread)
    · exact hnew

theorem sound_of_reachable (h : Run.Reachable (dispatcherSystem F) d) : Sound d := by
  refine h.invariant (fun d hd => ?_) fun d op d' hd hop => hd.apply hop
  have hinit : d = {} := hd
  rw [hinit]
  exact ⟨⟨rfl, nofun⟩, nofun, nofun⟩

/-! ## What is left to do -/

def threadRank (d : Dispatcher F) : Nat :=
  match d.thread with
  | .check => 2
  | .lock => 1
  | .wait => 0
  | .woken => 4
  | .run tasks => 3 + tasks.length
  | .ended => 0

/-- A bound of the steps that are left when nobody calls the dispatcher any more. -/
def rank (d : Dispatcher F) : Nat := 10 * d.signals + 10 * d.taskList.length + d.threadRank

theorem threadRank_notify_one (d : Dispatcher F) : d.notify_one.threadRank ≤ d.threadRank + 4 := by
  obtain h | h := notify_one_cases d <;> rw [h]
  · exact Nat.le_add_right _ _
  · exact Nat.le_add_left _ _

theorem notify_one_frame (d : Dispatcher F) : d.notify_one.signals = d.signals ∧
    d.notify_one.taskList = d.taskList ∧ d.notify_one.accepted = d.accepted := by
  obtain h | h := notify_one_cases d <;> rw [h] <;> exact ⟨rfl, rfl, rfl⟩

theorem rank_apply (hinternal : op.Internal) (h : op.apply d = some d') :
    d'.rank < d.rank ∧ d'.accepted = d.accepted := by
  cases op with
  | addTask task => exact absurd hinternal id
  | spuriousWakeup => exact absurd hinternal id
  | stop => exact absurd hinternal id
  | shutdown => exact absurd hinternal id
  | notify =>
    simp only [DispatcherOp.apply] at h
    split at h
    next => cases h
    next signals hsignals =>
      obtain rfl := Option.some.inj h
      obtain ⟨hsame, htasks, haccepted⟩ := notify_one_frame { d with signals := signals }
      have hrank := threadRank_notify_one { d with signals := signals }
      have hthread : ({ d with signals := signals } : Dispatcher F).threadRank = d.threadRank := rfl
      refine ⟨?_, haccepted⟩
      rw [rank, rank, hsame, htasks, hsignals]
      dsimp only
      omega
  | thread now =>
    simp only [DispatcherOp.apply, threadMain] at h
    split at h
    next hthread =>
      obtain rfl := Option.some.inj h
      refine ⟨?_, rfl⟩
      split_ifs <;> simp [rank, threadRank, hthread]
    next hthread =>
      obtain rfl := Option.some.inj h
      split_ifs with hempty
      · exact ⟨by simp [rank, threadRank, hthread], rfl⟩
      · have hpos : 0 < d.taskList.length := List.length_pos_iff.mpr (List.isEmpty_iff.not.mp hempty)
        refine ⟨?_, rfl⟩
        simp only [swap, rank, threadRank, hthread, List.length_nil]
        omega
    next => cases h
    next hthread =>
      obtain rfl := Option.some.inj h
      refine ⟨?_, rfl⟩
      simp only [swap, rank, threadRank, hthread, List.length_nil]
      omega
    next task rest hthread =>
      obtain rfl := Option.some.inj h
      rw [runTask_eq hthread]
      refine ⟨?_, rfl⟩
      simp only [rank, threadRank, hthread, List.length_cons]
      omega
    next hthread =>
      obtain rfl := Option.some.inj h
      exact ⟨by simp [rank, threadRank, hthread], rfl⟩
    next => cases h

theorem prefix_handled {before : List (DispatcherTask F)} (h : Sound d)
    (hended : d.thread = .ended) (hstart : before <+: d.accepted)
    (hbefore : ∀ task ∈ before, task.func.isTerminate = false) :
    before <+: d.handled.map Prod.fst := by
  have hhandled : d.handled.map Prod.fst <+: d.accepted :=
    ⟨d.taskList, by simpa [queueState, tmpTaskList, hended] using h.queue.added_eq.symm⟩
  obtain hshort | hlong := List.prefix_or_prefix_of_prefix hstart hhandled
  · exact hshort
  · obtain ⟨e, he, hterminate⟩ := h.ended (.inr hended)
    have hmem : e.1 ∈ before := hlong.subset (List.mem_map_of_mem he)
    rw [hbefore e.1 hmem] at hterminate
    cases hterminate

/-- Under every interleaving, each task that was accepted is waiting or was handled, in the order
in which they were accepted, and it was executed unless it expired. Once nobody calls any more,
only so many steps are left, and when there is none every task was handled or the thread ended;
it does not end before everything ahead of the task of `shutdown` was handled. -/
theorem tasks_handled (h : Run.Reachable (dispatcherSystem F) d) :
    d.accepted = d.handled.map Prod.fst ++ d.tmpTaskList ++ d.taskList ∧
    (∀ e ∈ d.handled, e.1.expiration = 0 → e.2 = true) ∧
    (d.thread = .ended → ∀ before, before <+: d.accepted →
      (∀ task ∈ before, task.func.isTerminate = false) → before <+: d.handled.map Prod.fst) ∧
    ∀ ops d', Run.Execution ((dispatcherSystem F).startedAt d) ops d' →
      (∀ op ∈ ops, op.Internal) → ops.length ≤ d.rank ∧
        ((∀ op : DispatcherOp F, op.Internal → op.apply d' = none) →
          d'.thread = .ended ∨ d'.handled.map Prod.fst = d.accepted) := by
  have hsound := sound_of_reachable h
  refine ⟨hsound.queue.added_eq, hsound.executed, fun hended before => prefix_handled hsound hended,
    fun ops d' hrun hinternal => ⟨?_, fun hstuck => ?_⟩⟩
  · have hlength := hrun.length_le (S := dispatcherSystem F)
      (fun d op d' hop hstep => (rank_apply hop hstep).1) hinternal
    omega
  · have hlast := sound_of_reachable (hrun.reachable_from h)
    have haccepted : d'.accepted = d.accepted := by
      clear hstuck hlast
      induction hrun with
      | init hd =>
        cases hd
        rfl
      | step _ hop ih =>
        exact (rank_apply (hinternal _ (List.mem_append_right _ (List.mem_singleton_self _)))
          hop).2.trans (ih fun op hop => hinternal op (List.mem_append_left _ hop))
    have hthread := hstuck (.thread 0) trivial
    simp only [DispatcherOp.apply, threadMain] at hthread
    split at hthread
    next => cases hthread
    next => cases hthread
    next hwait =>
      right
      have hsignals : d'.signals = 0 := by
        have hnotify := hstuck .notify trivial
        simp only [DispatcherOp.apply] at hnotify
        split at hnotify
        · assumption
        · cases hnotify
      have htaken := hlast.queue.taken_of_asleep (by simp only [queueState, waits, hwait]) hsignals
      simp only [queueState, tmpTaskList, hwait, List.append_nil] at htaken
      rw [← htaken, haccepted]
    next => cases hthread
    next => cases hthread
    next => cases hthread
    next hended => exact .inl hended

/-! The thread has gone to sleep before the first task comes. -/

def firstTask : DispatcherTask Nat where
  func := .call 7

def lateCall : Dispatcher Nat := ({ thread := .wait } : Dispatcher Nat).addTask firstTask

theorem reachable_lateCall : Run.Reachable (dispatcherSystem Nat) lateCall := by
  have h₀ : Run.Reachable (dispatcherSystem Nat) {} := .init rfl
  have h₁ : Run.Reachable (dispatcherSystem Nat) { thread := .lock } :=
    h₀.step' (i := .thread 0) rfl
  have h₂ : Run.Reachable (dispatcherSystem Nat) { thread := .wait } :=
    h₁.step' (i := .thread 0) rfl
  exact h₂.step' (i := .addTask firstTask) rfl

theorem tasks_handled_lateCall : lateCall.accepted = [firstTask] ∧
    ∀ ops d', Run.Execution ((dispatcherSystem Nat).startedAt lateCall) ops d' →
      (∀ op ∈ ops, op.Internal) → ops.length ≤ 20 ∧
        ((∀ op : DispatcherOp Nat, op.Internal → op.apply d' = none) →
          d'.thread = .ended ∨ d'.handled.map Prod.fst = [firstTask]) :=
  ⟨rfl, (tasks_handled reachable_lateCall).2.2.2⟩

end Dispatcher

end Eloth
