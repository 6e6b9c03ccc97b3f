import Mathlib.Algebra.GroupWithZero.Nat
import Mathlib.Data.List.Perm.Basic
import Eloth.Lib.ListSet
import Eloth.Lib.Run
import Eloth.Lib.SignalledQueue
import Eloth.Scheduler

/-!
# The tasks of the database

Queries that nobody waits for are put into a list. The thread of the database runs them one at a
time, and so does every call of `flush`, in the thread of its caller and at the same time. What a
thread does under the lock of the list is one step here, and a query runs between two steps.
-/

namespace Eloth

structure DatabaseTask (C : Type) where
  query : String
  callback : Option C := none
  store : Bool := false

/-- What the database says to a query: the result of `storeQuery` and the success of
`executeQuery`. -/
structure DatabaseAnswer (R : Type) where
  result : Option R
  success : Bool

/-- The arguments of the callback. -/
def DatabaseTask.outcome {C R : Type} (task : DatabaseTask C) (answer : DatabaseAnswer R) :
    Option R × Bool :=
  if task.store then (answer.result, true) else (none, answer.success)

def DatabaseTask.boundCallback {C R : Type} (task : DatabaseTask C) (answer : DatabaseAnswer R) :
    Option (C × Option R × Bool) :=
  task.callback.map fun callback => (callback, task.outcome answer)

/-- Where the thread is in `threadMain`: at the condition of the loop, before the lock, in the
wait, past the wait, in a query, or past the end. -/
inductive DatabaseThread (C : Type) where
  | check
  | lock
  | wait
  | woken
  | run (task : DatabaseTask C)
  | ended

/-- A call of `flush` with the query that it runs, if it does not stand before the lock. The
call that `shutdown` makes is followed by a notification. -/
structure FlushCall (C : Type) where
  notifies : Bool
  task : Option (DatabaseTask C) := none

/-- The notifications are those that are still owed. The tasks that were accepted, that were begun
and that were finished are kept in order, and the callbacks given to the dispatcher. -/
structure DatabaseTasks (C R : Type) where
  state : ThreadState := .running
  tasks : List (DatabaseTask C) := []
  thread : DatabaseThread C := .check
  flushes : List (FlushCall C) := []
  signals : Nat := 0
  accepted : List (DatabaseTask C) := []
  started : List (DatabaseTask C) := []
  finished : List (DatabaseTask C × DatabaseAnswer R) := []
  callbacks : List (C × Option R × Bool) := []

namespace DatabaseTasks

variable {C R : Type} (d : DatabaseTasks C R)

def addTask (task : DatabaseTask C) : DatabaseTasks C R :=
  if d.state = .running then
    { d with
      signals := d.signals + if d.tasks.isEmpty then 1 else 0
      tasks := d.tasks ++ [task]
      accepted := d.accepted ++ [task] }
  else d

def notify_one : DatabaseTasks C R :=
  match d.thread with
  | .wait => { d with thread := .woken }
  | _ => d

def stop : DatabaseTasks C R := { d with state := .closing }

def flush : DatabaseTasks C R := { d with flushes := d.flushes ++ [{ notifies := false }] }

def shutdown : DatabaseTasks C R :=
  { d with state := .terminated, flushes := d.flushes ++ [{ notifies := true }] }

def runTask (task : DatabaseTask C) (answer : DatabaseAnswer R) : DatabaseTasks C R :=
  { d with
    finished := d.finished ++ [(task, answer)]
    callbacks := d.callbacks ++ (task.boundCallback answer).toList }

/-- The front of the list is moved out of it. -/
def popFront (task : DatabaseTask C) (tasks : List (DatabaseTask C)) : DatabaseTasks C R :=
  { d with tasks := tasks, started := d.started ++ [task] }

/-- The next step of `threadMain`. In the wait there is none. -/
def threadMain (answer : DatabaseAnswer R) : Option (DatabaseTasks C R) :=
  match d.thread with
  | .check => some { d with thread := if d.state ≠ .terminated then .lock else .ended }
  | .lock =>
    some (match d.tasks with
      | [] => { d with thread := .wait }
      | task :: tasks => { d.popFront task tasks with thread := .run task })
  | .wait => none
  | .woken =>
    some (match d.tasks with
      | [] => { d with thread := .check }
      | task :: tasks => { d.popFront task tasks with thread := .run task })
  | .run task => some { d.runTask task answer with thread := .check }
  | .ended => none

/-- The next step of a call of `flush`. -/
def flushStep (i : Nat) (answer : DatabaseAnswer R) : Option (DatabaseTasks C R) :=
  match d.flushes[i]? with
  | none => none
  | some call =>
    match call.task, d.tasks with
    | some task, _ => some { d.runTask task answer with
        flushes := d.flushes.set i { call with task := none } }
    | none, task :: tasks => some { d.popFront task tasks with
        flushes := d.flushes.set i { call with task := some task } }
    | none, [] => some { d with
        flushes := d.flushes.eraseIdx i
        signals := d.signals + if call.notifies then 1 else 0 }

end DatabaseTasks

inductive DatabaseOp (C R : Type) where
  | addTask (task : DatabaseTask C)
  | notify
  | spuriousWakeup
  | stop
  | flush
  | shutdown
  | thread (answer : DatabaseAnswer R)
  | flushStep (i : Nat) (answer : DatabaseAnswer R)

namespace DatabaseOp

variable {C R : Type}

def apply (d : DatabaseTasks C R) : DatabaseOp C R → Option (DatabaseTasks C R)
  | addTask task => some (d.addTask task)
  | notify =>
    match d.signals with
    | 0 => none
    | signals + 1 => some { d with signals := signals }.notify_one
  | spuriousWakeup => some d.notify_one
  | stop => some d.stop
  | flush => some d.flush
  | shutdown => some d.shutdown
  | thread answer => d.threadMain answer
  | flushStep i answer => d.flushStep i answer

/-- The steps that are left when nobody calls any more. -/
def Internal : DatabaseOp C R → Prop
  | notify | thread _ | flushStep _ _ => True
  | _ => False

/-- The calls that run queries in the thread of their caller. -/
def Flushes : DatabaseOp C R → Prop
  | flush | shutdown => True
  | _ => False

end DatabaseOp

def databaseSystem (C R : Type) : Run.System (DatabaseTasks C R) (DatabaseOp C R) where
  init d := d = {}
  step d op d' := op.apply d = some d'

namespace DatabaseTasks

variable {C R : Type} {d d' : DatabaseTasks C R} {op : DatabaseOp C R}

/-- What a step can do, with the list of the calls of `flush` taken apart. -/
inductive Change (d : DatabaseTasks C R) : DatabaseOp C R → DatabaseTasks C R → Prop
  | accept (task : DatabaseTask C) (h : d.state = .running) : Change d (.addTask task) { d with
      signals := d.signals + if d.tasks.isEmpty then 1 else 0
      tasks := d.tasks ++ [task]
      accepted := d.accepted ++ [task] }
  | refuse (task : DatabaseTask C) : Change d (.addTask task) d
  | notify (signals : Nat) (h : d.signals = signals + 1) :
      Change d .notify { d with signals := signals }.notify_one
  | spuriousWakeup : Change d .spuriousWakeup d.notify_one
  | stop : Change d .stop d.stop
  | flush : Change d .flush d.flush
  | shutdown : Change d .shutdown d.shutdown
  | lock (answer : DatabaseAnswer R) (h : d.thread = .check) :
      Change d (.thread answer) { d with thread := .lock }
  | leave (answer : DatabaseAnswer R) (h : d.thread = .check) (hstate : d.state = .terminated) :
      Change d (.thread answer) { d with thread := .ended }
  | wait (answer : DatabaseAnswer R) (h : d.thread = .lock) (htasks : d.tasks = []) :
      Change d (.thread answer) { d with thread := .wait }
  | again (answer : DatabaseAnswer R) (h : d.thread = .woken) (htasks : d.tasks = []) :
      Change d (.thread answer) { d with thread := .check }
  | take (answer : DatabaseAnswer R) {task : DatabaseTask C} {tasks : List (DatabaseTask C)}
      (h : d.thread = .lock ∨ d.thread = .woken) (htasks : d.tasks = task :: tasks) :
      Change d (.thread answer) { d.popFront task tasks with thread := .run task }
  | finish {task : DatabaseTask C} (answer : DatabaseAnswer R) (h : d.thread = .run task) :
      Change d (.thread answer) { d.runTask task answer with thread := .check }
  | flushTake (i : Nat) (answer : DatabaseAnswer R) {task : DatabaseTask C}
      {tasks : List (DatabaseTask C)} {call : FlushCall C} {front back : List (FlushCall C)}
      (h : d.flushes = front ++ call :: back) (hcall : call.task = none)
      (htasks : d.tasks = task :: tasks) :
      Change d (.flushStep i answer) { d.popFront task tasks with
        flushes := front ++ { call with task := some task } :: back }
  | flushFinish (i : Nat) {task : DatabaseTask C} (answer : DatabaseAnswer R) {call : FlushCall C}
      {front back : List (FlushCall C)} (h : d.flushes = front ++ call :: back)
      (hcall : call.task = some task) :
      Change d (.flushStep i answer) { d.runTask task answer with
        flushes := front ++ { call with task := none } :: back }
  | flushEnd (i : Nat) (answer : DatabaseAnswer R) {call : FlushCall C}
      {front back : List (FlushCall C)} (h : d.flushes = front ++ call :: back)
      (hcall : call.task = none) (htasks : d.tasks = []) :
      Change d (.flushStep i answer) { d with
        flushes := front ++ back
        signals := d.signals + if call.notifies then 1 else 0 }

theorem change_threadMain {answer : DatabaseAnswer R} (h : d.threadMain answer = some d') :
    Change d (.thread answer) d' := by
  unfold threadMain at h
  split at h
  next hthread =>
    obtain rfl := Option.some.inj h
    by_cases hstate : d.state = .terminated
    · rw [if_neg (not_not.mpr hstate)]
      exact .leave answer hthread hstate
    · rw [if_pos hstate]
      exact .lock answer hthread
  next hthread =>
    obtain rfl := Option.some.inj h
    split
    next htasks => exact .wait answer hthread htasks
    next task tasks htasks => exact .take answer (.inl hthread) htasks
  next => cases h
  next hthread =>
    obtain rfl := Option.some.inj h
    split
    next htasks => exact .again answer hthread htasks
    next task tasks htasks => exact .take answer (.inr hthread) htasks
  next task hthread =>
    obtain rfl := Option.some.inj h
    exact .finish answer hthread
  next => cases h

theorem change_flushStep {i : Nat} {answer : DatabaseAnswer R}
    (h : d.flushStep i answer = some d') : Change d (.flushStep i answer) d' := by
  unfold flushStep at h
  split at h
  next => cases h
  next call hcall =>
    split at h
    next task tasks htask =>
      obtain rfl := Option.some.inj h
      obtain ⟨front, back, hflushes, hset⟩ :=
        ListSet.set_split hcall { call with task := none }
      rw [hset]
      exact .flushFinish i answer hflushes htask
    next task tasks hnone htasks =>
      obtain rfl := Option.some.inj h
      obtain ⟨front, back, hflushes, hset⟩ :=
        ListSet.set_split hcall { call with task := some task }
      rw [hset]
      exact .flushTake i answer hflushes hnone htasks
    next hnone htasks =>
      obtain rfl := Option.some.inj h
      obtain ⟨hlt, hget⟩ := List.getElem?_eq_some_iff.mp hcall
      have hflushes : d.flushes = d.flushes.take i ++ call :: d.flushes.drop (i + 1) := by
        rw [← hget, List.getElem_cons_drop, List.take_append_drop]
      rw [List.eraseIdx_eq_take_drop_succ]
      exact .flushEnd i answer hflushes hnone htasks

theorem change_apply (h : op.apply d = some d') : Change d op d' := by
  cases op with
  | addTask task =>
    obtain rfl := Option.some.inj h
    by_cases hstate : d.state = .running
    · rw [addTask, if_pos hstate]
      exact .accept task hstate
    · rw [addTask, if_neg hstate]
      exact .refuse task
  | notify =>
    simp only [DatabaseOp.apply] at h
    split at h
    next => cases h
    next signals hsignals =>
      obtain rfl := Option.some.inj h
      exact .notify signals hsignals
  | spuriousWakeup =>
    obtain rfl := Option.some.inj h
    exact .spuriousWakeup
  | stop =>
    obtain rfl := Option.some.inj h
    exact .stop
  | flush =>
    obtain rfl := Option.some.inj h
    exact .flush
  | shutdown =>
    obtain rfl := Option.some.inj h
    exact .shutdown
  | thread answer => exact change_threadMain h
  | flushStep i answer => exact change_flushStep h

/-! ## The queue behind it -/

def waits (d : DatabaseTasks C R) : Bool :=
  match d.thread with
  | .wait => true
  | _ => false

def threadTask (d : DatabaseTasks C R) : List (DatabaseTask C) :=
  match d.thread with
  | .run task => [task]
  | _ => []

/-- The queries that run now. -/
def runningTasks (d : DatabaseTasks C R) : List (DatabaseTask C) :=
  d.threadTask ++ d.flushes.filterMap FlushCall.task

def queueState (d : DatabaseTasks C R) : SignalledQueue.State (DatabaseTask C) where
  queue := d.tasks
  asleep := d.waits
  signals := d.signals
  added := d.accepted
  taken := d.started

theorem notify_one_cases (d : DatabaseTasks C R) : d.waits = false ∧ d.notify_one = d ∨
    d.thread = .wait ∧ d.notify_one = { d with thread := .woken } := by
  unfold notify_one waits
  split
  next h => exact .inr ⟨h, rfl⟩
  next => exact .inl ⟨rfl, rfl⟩

theorem queueState_notify_one (d : DatabaseTasks C R) :
    d.notify_one.queueState = { d.queueState with asleep := false } := by
  obtain ⟨hwaits, h⟩ | ⟨-, h⟩ := notify_one_cases d
  · rw [h, queueState, hwaits]
  · rw [h]
    rfl

/-- Every step is one of the queue, or does not touch it. -/
theorem Change.queueState (h : Change d op d') :
    d'.queueState = d.queueState ∨ SignalledQueue.Step d.queueState d'.queueState := by
  cases h with
  | accept task => exact .inr (.add d.queueState task)
  | refuse => exact .inl rfl
  | notify signals hsignals =>
    rw [queueState_notify_one]
    exact .inr (.signal d.queueState signals hsignals)
  | spuriousWakeup =>
    rw [queueState_notify_one]
    exact .inr (.wake d.queueState)
  | stop => exact .inl rfl
  | flush => exact .inl rfl
  | shutdown => exact .inl rfl
  | lock _ hthread => exact .inl (by simp [DatabaseTasks.queueState, waits, hthread])
  | leave _ hthread => exact .inl (by simp [DatabaseTasks.queueState, waits, hthread])
  | wait _ hthread htasks =>
    have hsleep := SignalledQueue.Step.sleep d.queueState htasks
    exact .inr (by simpa [DatabaseTasks.queueState, waits] using hsleep)
  | again _ hthread => exact .inl (by simp [DatabaseTasks.queueState, waits, hthread])
  | take _ hthread htasks =>
    have htake := SignalledQueue.Step.take d.queueState [_] _ htasks
    have hasleep : d.queueState.asleep = false := by
      obtain hlock | hwoken := hthread
      · simp only [DatabaseTasks.queueState, waits, hlock]
      · simp only [DatabaseTasks.queueState, waits, hwoken]
    rw [hasleep] at htake
    exact .inr htake
  | finish _ hthread =>
    exact .inl (by simp [DatabaseTasks.queueState, waits, runTask, hthread])
  | flushTake _ _ _ _ htasks => exact .inr (.take d.queueState [_] _ htasks)
  | flushFinish => exact .inl rfl
  | @flushEnd _ _ call =>
    by_cases hnotifies : call.notifies
    · simp only [hnotifies, if_true]
      exact .inr (.oweSignal d.queueState)
    · simp only [hnotifies]
      exact .inl rfl

/-! ## Runs -/

/-- Once the state is `terminated`, whatever is left is run by the call that `shutdown` made. -/
def Closed (d : DatabaseTasks C R) : Prop := d.state = .terminated ∨ d.thread = .ended →
  d.state ≠ .running ∧ (d.tasks = [] ∨ ∃ call ∈ d.flushes, call.notifies)

structure Sound (d : DatabaseTasks C R) : Prop where
  queue : SignalledQueue.Sound d.queueState
  ran : d.started.Perm (d.finished.map Prod.fst ++ d.runningTasks)
  callbacks : d.callbacks = d.finished.filterMap fun e => e.1.boundCallback e.2
  closed : d.Closed

/-- What a step does to the queries that run: nothing, one begins, or one of them is finished. -/
inductive Progress (d d' : DatabaseTasks C R) : Prop
  | same (hstarted : d'.started = d.started) (hfinished : d'.finished = d.finished)
      (hcallbacks : d'.callbacks = d.callbacks) (hrunning : d'.runningTasks = d.runningTasks)
  | begun (task : DatabaseTask C) (hstarted : d'.started = d.started ++ [task])
      (hfinished : d'.finished = d.finished) (hcallbacks : d'.callbacks = d.callbacks)
      (hrunning : d'.runningTasks.Perm (task :: d.runningTasks))
  | done (task : DatabaseTask C) (answer : DatabaseAnswer R) (hstarted : d'.started = d.started)
      (hfinished : d'.finished = d.finished ++ [(task, answer)])
      (hcallbacks : d'.callbacks = d.callbacks ++ (task.boundCallback answer).toList)
      (hrunning : d.runningTasks.Perm (task :: d'.runningTasks))

theorem runningTasks_woken (h : d.thread = .wait) :
    ({ d with thread := .woken } : DatabaseTasks C R).runningTasks = d.runningTasks := by
  simp [runningTasks, threadTask, h]

theorem progress_notify_one (d : DatabaseTasks C R) : Progress d d.notify_one := by
  obtain ⟨-, h⟩ | ⟨hthread, h⟩ := notify_one_cases d <;> rw [h]
  · exact .same rfl rfl rfl rfl
  · exact .same rfl rfl rfl (runningTasks_woken hthread)

theorem Change.progress (h : Change d op d') : Progress d d' := by
  cases h with
  | accept => exact .same rfl rfl rfl rfl
  | refuse => exact .same rfl rfl rfl rfl
  | notify signals =>
    obtain ⟨-, h⟩ | ⟨hthread, h⟩ := notify_one_cases { d with signals := signals } <;> rw [h]
    · exact .same rfl rfl rfl rfl
    · exact .same rfl rfl rfl (runningTasks_woken hthread)
  | spuriousWakeup => exact progress_notify_one d
  | stop => exact .same rfl rfl rfl rfl
  | flush =>
    exact .same rfl rfl rfl (by simp [DatabaseTasks.flush, runningTasks, threadTask])
  | shutdown =>
    exact .same rfl rfl rfl (by simp [DatabaseTasks.shutdown, runningTasks, threadTask])
  | lock _ hthread => exact .same rfl rfl rfl (by simp [runningTasks, threadTask, hthread])
  | leave _ hthread => exact .same rfl rfl rfl (by simp [runningTasks, threadTask, hthread])
  | wait _ hthread => exact .same rfl rfl rfl (by simp [runningTasks, threadTask, hthread])
  | again _ hthread => exact .same rfl rfl rfl (by simp [runningTasks, threadTask, hthread])
  | @take _ task _ hthread =>
    have hnone : d.threadTask = [] := by
      obtain hlock | hwoken := hthread
      · simp only [threadTask, hlock]
      · simp only [threadTask, hwoken]
    have hbefore : d.runningTasks = d.flushes.filterMap FlushCall.task := by
      rw [runningTasks, hnone, List.nil_append]
    exact .begun task rfl rfl rfl (hbefore ▸ .refl _)
  | @finish task answer hthread =>
    exact .done task answer rfl rfl rfl (by simp [runningTasks, threadTask, runTask, hthread])
  | @flushTake _ _ task _ call front back hflushes hcall =>
    refine .begun task rfl rfl rfl ?_
    have hmiddle : (d.threadTask ++ front.filterMap FlushCall.task ++
        task :: back.filterMap FlushCall.task).Perm
        (task :: (d.threadTask ++ front.filterMap FlushCall.task ++
          back.filterMap FlushCall.task)) := List.perm_middle
    simpa [runningTasks, threadTask, popFront, hflushes, hcall, List.filterMap_cons] using hmiddle
  | @flushFinish _ task answer call front back hflushes hcall =>
    refine .done task answer rfl rfl rfl ?_
    have hmiddle : (d.threadTask ++ front.filterMap FlushCall.task ++
        task :: back.filterMap FlushCall.task).Perm
        (task :: (d.threadTask ++ front.filterMap FlushCall.task ++
          back.filterMap FlushCall.task)) := List.perm_middle
    simpa [runningTasks, threadTask, runTask, hflushes, hcall, List.filterMap_cons] using hmiddle
  | flushEnd _ _ hflushes hcall =>
    exact .same rfl rfl rfl
      (by simp [runningTasks, threadTask, hflushes, hcall])

theorem Progress.ran (h : Progress d d')
    (hran : d.started.Perm (d.finished.map Prod.fst ++ d.runningTasks)) :
    d'.started.Perm (d'.finished.map Prod.fst ++ d'.runningTasks) := by
  cases h with
  | same hstarted hfinished _ hrunning => rwa [hstarted, hfinished, hrunning]
  | begun task hstarted hfinished _ hrunning =>
    rw [hstarted, hfinished]
    calc (d.started ++ [task]).Perm (task :: d.started) := List.perm_append_singleton task _
      List.Perm _ (task :: (d.finished.map Prod.fst ++ d.runningTasks)) := hran.cons task
      List.Perm _ (d.finished.map Prod.fst ++ task :: d.runningTasks) := List.perm_middle.symm
      List.Perm _ (d.finished.map Prod.fst ++ d'.runningTasks) := hrunning.symm.append_left _
  | done task answer hstarted hfinished _ hrunning =>
    rw [hstarted, hfinished, List.map_append, List.append_assoc]
    exact hran.trans (hrunning.append_left _)

theorem Progress.callbacks (h : Progress d d')
    (hcallbacks : d.callbacks = d.finished.filterMap fun e => e.1.boundCallback e.2) :
    d'.callbacks = d'.finished.filterMap fun e => e.1.boundCallback e.2 := by
  cases h with
  | same _ hfinished hsame => rw [hsame, hfinished, hcallbacks]
  | begun _ _ hfinished hsame => rw [hsame, hfinished, hcallbacks]
  | done task answer _ hfinished hmore =>
    rw [hmore, hfinished, hcallbacks, List.filterMap_append]
    cases hcall : task.boundCallback answer <;> simp [hcall]

theorem closed_notify_one (h : d.Closed) : d.notify_one.Closed := by
  obtain ⟨-, hsame⟩ | ⟨-, hwoken⟩ := notify_one_cases d
  · rwa [hsame]
  · rw [hwoken]
    exact fun hend => h (.inl (hend.resolve_right nofun))

theorem exists_notifies_middle (call call' : FlushCall C) {front back : List (FlushCall C)}
    (hsame : call'.notifies = call.notifies)
    (h : ∃ c ∈ front ++ call :: back, c.notifies) :
    ∃ c ∈ front ++ call' :: back, c.notifies := by
  obtain ⟨c, hc, hnotifies⟩ := h
  obtain hc | hc := List.mem_append.mp hc
  · exact ⟨c, List.mem_append_left _ hc, hnotifies⟩
  · obtain rfl | hc := List.mem_cons.mp hc
    · exact ⟨call', List.mem_append_right _ (List.mem_cons_self ..), hsame.trans hnotifies⟩
    · exact ⟨c, List.mem_append_right _ (List.mem_cons_of_mem _ hc), hnotifies⟩

theorem Change.closed (h : Change d op d') (hclosed : d.Closed) : d'.Closed := by
  cases h with
  | accept _ hrunning => exact fun hend => absurd hrunning (hclosed hend).1
  | refuse => exact hclosed
  | notify signals =>
    have hless : ({ d with signals := signals } : DatabaseTasks C R).Closed := hclosed
    exact closed_notify_one hless
  | spuriousWakeup => exact closed_notify_one hclosed
  | stop => exact fun hend => ⟨nofun, (hclosed (.inr (hend.resolve_left nofun))).2⟩
  | flush =>
    intro hend
    obtain ⟨hstate, htasks | ⟨call, hcall, hnotifies⟩⟩ := hclosed hend
    · exact ⟨hstate, .inl htasks⟩
    · exact ⟨hstate, .inr ⟨call, List.mem_append_left _ hcall, hnotifies⟩⟩
  | shutdown =>
    exact fun _ => ⟨nofun, .inr ⟨_, List.mem_append_right _ (List.mem_singleton_self _), rfl⟩⟩
  | lock => exact fun hend => hclosed (.inl (hend.resolve_right nofun))
  | leave _ _ hstate => exact fun _ => hclosed (.inl hstate)
  | wait => exact fun hend => hclosed (.inl (hend.resolve_right nofun))
  | again => exact fun hend => hclosed (.inl (hend.resolve_right nofun))
  | take _ _ htasks =>
    intro hend
    obtain ⟨hstate, hnone | hsome⟩ := hclosed (.inl (hend.resolve_right nofun))
    · cases htasks.symm.trans hnone
    · exact ⟨hstate, .inr hsome⟩
  | finish => exact fun hend => hclosed (.inl (hend.resolve_right nofun))
  | @flushTake _ _ task _ call front back hflushes _ htasks =>
    intro hend
    obtain ⟨hstate, hnone | hsome⟩ := hclosed hend
    · cases htasks.symm.trans hnone
    · rw [hflushes] at hsome
      exact ⟨hstate, .inr (exists_notifies_middle call _ rfl hsome)⟩
  | @flushFinish _ task answer call front back hflushes =>
    intro hend
    obtain ⟨hstate, hnone | hsome⟩ := hclosed hend
    · exact ⟨hstate, .inl hnone⟩
    · rw [hflushes] at hsome
      exact ⟨hstate, .inr (exists_notifies_middle call _ rfl hsome)⟩
  | flushEnd _ _ _ _ htasks => exact fun hend => ⟨(hclosed hend).1, .inl htasks⟩

theorem Sound.apply (h : Sound d) (hop : op.apply d = some d') : Sound d' := by
  have hchange := change_apply hop
  refine ⟨?_, hchange.progress.ran h.ran, hchange.progress.callbacks h.callbacks,
    hchange.closed h.closed⟩
  obtain hsame | hstep := hchange.queueState
  · rw [hsame]
    exact h.queue
  · exact h.queue.step hstep

theorem sound_of_reachable (h : Run.Reachable (databaseSystem C R) d) : Sound d := by
  refine h.invariant (fun d hd => ?_) fun d op d' hd hop => hd.apply hop
  have hinit : d = {} := hd
  rw [hinit]
  refine ⟨⟨rfl, nofun⟩, .nil, rfl, ?_⟩
  rintro (hstate | hthread)
  · cases hstate
  · cases hthread

/-! ## What is left to do -/

def threadRank (d : DatabaseTasks C R) : Nat :=
  match d.thread with
  | .check => 2
  | .lock => 1
  | .wait => 0
  | .woken => 3
  | .run _ => 3
  | .ended => 0

end DatabaseTasks

namespace FlushCall

variable {C : Type}

def rank (call : FlushCall C) : Nat := if call.task.isSome then 13 else 12

end FlushCall

namespace DatabaseTasks

variable {C R : Type} {d d' : DatabaseTasks C R} {op : DatabaseOp C R}

/-- A bound of the steps that are left when nobody calls any more. -/
def rank (d : DatabaseTasks C R) : Nat :=
  10 * d.signals + 20 * d.tasks.length + d.threadRank + (d.flushes.map FlushCall.rank).sum

theorem rank_notify_one (d : DatabaseTasks C R) :
    d.notify_one.rank ≤ d.rank + 3 ∧ d.notify_one.accepted = d.accepted := by
  obtain ⟨-, h⟩ | ⟨hthread, h⟩ := notify_one_cases d <;> rw [h]
  · exact ⟨Nat.le_add_right _ _, rfl⟩
  · refine ⟨?_, rfl⟩
    simp only [rank, threadRank, hthread]
    omega

theorem Change.rank (h : Change d op d') (hinternal : op.Internal) :
    d'.rank < d.rank ∧ d'.accepted = d.accepted := by
  cases h with
  | accept => exact absurd hinternal id
  | refuse => exact absurd hinternal id
  | spuriousWakeup => exact absurd hinternal id
  | stop => exact absurd hinternal id
  | flush => exact absurd hinternal id
  | shutdown => exact absurd hinternal id
  | notify signals hsignals =>
    obtain ⟨hrank, haccepted⟩ := rank_notify_one { d with signals := signals }
    have hsame : ({ d with signals := signals } : DatabaseTasks C R).rank + 10 = d.rank := by
      simp only [DatabaseTasks.rank, threadRank, hsignals]
      omega
    exact ⟨by omega, haccepted⟩
  | lock _ hthread => exact ⟨by simp [DatabaseTasks.rank, threadRank, hthread], rfl⟩
  | leave _ hthread => exact ⟨by simp [DatabaseTasks.rank, threadRank, hthread], rfl⟩
  | wait _ hthread => exact ⟨by simp [DatabaseTasks.rank, threadRank, hthread], rfl⟩
  | again _ hthread => exact ⟨by simp [DatabaseTasks.rank, threadRank, hthread], rfl⟩
  | take _ _ htasks =>
    refine ⟨?_, rfl⟩
    simp only [DatabaseTasks.rank, threadRank, popFront, htasks, List.length_cons]
    omega
  | finish _ hthread => exact ⟨by simp [DatabaseTasks.rank, threadRank, runTask, hthread], rfl⟩
  | flushTake _ _ hflushes hcall htasks =>
    refine ⟨?_, rfl⟩
    simp only [DatabaseTasks.rank, threadRank, popFront, hflushes, htasks, List.length_cons,
      List.map_append, List.map_cons, List.sum_append, List.sum_cons, FlushCall.rank, hcall,
      Option.isSome_none, Option.isSome_some, if_true]
    simp only [Bool.false_eq_true, if_false]
    omega
  | flushFinish _ _ hflushes hcall =>
    refine ⟨?_, rfl⟩
    simp only [DatabaseTasks.rank, threadRank, runTask, hflushes,
      List.map_append, List.map_cons, List.sum_append, List.sum_cons, FlushCall.rank, hcall,
      Option.isSome_none, Option.isSome_some, if_true]
    simp only [Bool.false_eq_true, if_false]
    omega
  | @flushEnd _ _ call _ _ hflushes hcall =>
    refine ⟨?_, rfl⟩
    have hsignal : (if call.notifies then 1 else 0) ≤ 1 := by split <;> omega
    simp only [DatabaseTasks.rank, threadRank, hflushes, List.map_append, List.map_cons,
      List.sum_append, List.sum_cons, FlushCall.rank, hcall, Option.isSome_none,
      Bool.false_eq_true, if_false]
    omega

/-- When no step is left, nothing waits and nothing runs. -/
theorem quiet_of_stuck (h : Sound d)
    (hstuck : ∀ op : DatabaseOp C R, op.Internal → op.apply d = none) :
    d.tasks = [] ∧ d.runningTasks = [] := by
  have hflushes : d.flushes = [] := by
    cases hcalls : d.flushes with
    | nil => rfl
    | cons call calls =>
      have hstep := hstuck (.flushStep 0 ⟨none, false⟩) trivial
      simp only [DatabaseOp.apply, flushStep, hcalls, List.getElem?_cons_zero] at hstep
      split at hstep <;> cases hstep
  have hsignals : d.signals = 0 := by
    have hnotify := hstuck .notify trivial
    simp only [DatabaseOp.apply] at hnotify
    split at hnotify
    · assumption
    · cases hnotify
  have hthread := hstuck (.thread ⟨none, false⟩) trivial
  simp only [DatabaseOp.apply, threadMain] at hthread
  split at hthread
  next => cases hthread
  next => cases hthread
  next hwait =>
    refine ⟨?_, by simp [runningTasks, threadTask, hwait, hflushes]⟩
    by_contra hne
    have hpos : 0 < d.signals := h.queue.owed (by simp only [queueState, waits, hwait]) hne
    omega
  next => cases hthread
  next => cases hthread
  next hended =>
    refine ⟨?_, by simp [runningTasks, threadTask, hended, hflushes]⟩
    obtain ⟨-, htasks | ⟨call, hcall, -⟩⟩ := h.closed (.inr hended)
    · exact htasks
    · rw [hflushes] at hcall
      cases hcall

/-- However the calls of `addTask`, `flush` and `shutdown`, the wakeups and the steps of the
threads follow one another: tasks are begun in the order in which they were accepted, each once,
every one that was begun runs or is finished, and each that is finished has given its callback to
the dispatcher. Once nobody calls any more, only so many steps are left, and when there is none
every task is finished, after `shutdown` as before. -/
theorem tasks_finished (h : Run.Reachable (databaseSystem C R) d) :
    d.accepted = d.started ++ d.tasks ∧
    d.started.Perm (d.finished.map Prod.fst ++ d.runningTasks) ∧
    (d.callbacks = d.finished.filterMap fun e => e.1.boundCallback e.2) ∧
    ∀ ops d', Run.Execution ((databaseSystem C R).startedAt d) ops d' →
      (∀ op ∈ ops, op.Internal) → ops.length ≤ d.rank ∧
        ((∀ op : DatabaseOp C R, op.Internal → op.apply d' = none) →
          (d'.finished.map Prod.fst).Perm d.accepted) := by
  have hsound := sound_of_reachable h
  refine ⟨hsound.queue.added_eq, hsound.ran, hsound.callbacks,
    fun ops d' hrun hinternal => ⟨?_, fun hstuck => ?_⟩⟩
  · have hlength := hrun.length_le (S := databaseSystem C R)
      (fun d op d' hop hstep => ((change_apply hstep).rank hop).1) hinternal
    omega
  · have hlast := sound_of_reachable (hrun.reachable_from h)
    have haccepted : d'.accepted = d.accepted := by
      clear hstuck hlast
      induction hrun with
      | init hd =>
        cases hd
        rfl
      | step _ hop ih =>
        exact ((change_apply hop).rank (hinternal _
          (List.mem_append_right _ (List.mem_singleton_self _)))).2.trans
            (ih fun op hop => hinternal op (List.mem_append_left _ hop))
    obtain ⟨htasks, hrunning⟩ := quiet_of_stuck hlast hstuck
    have hran := hlast.ran
    have hadded : d'.accepted = d'.started ++ d'.tasks := hlast.queue.added_eq
    rw [hrunning, List.append_nil] at hran
    rw [htasks, List.append_nil, haccepted] at hadded
    rw [hadded]
    exact hran.symm

/-! One query is in the list when `shutdown` is called. -/

def firstQuery : DatabaseTask Nat where
  query := "DELETE FROM `ip_bans`"
  callback := some 7

def lateShutdown : DatabaseTasks Nat Nat :=
  shutdown { tasks := [firstQuery], signals := 1, accepted := [firstQuery] }

theorem reachable_lateShutdown : Run.Reachable (databaseSystem Nat Nat) lateShutdown := by
  have h₀ : Run.Reachable (databaseSystem Nat Nat) {} := .init rfl
  have h₁ : Run.Reachable (databaseSystem Nat Nat)
      { tasks := [firstQuery], signals := 1, accepted := [firstQuery] } :=
    h₀.step' (i := .addTask firstQuery) rfl
  exact h₁.step' (i := .shutdown) rfl

theorem tasks_finished_lateShutdown : lateShutdown.accepted = [firstQuery] ∧
    ∀ ops d', Run.Execution ((databaseSystem Nat Nat).startedAt lateShutdown) ops d' →
      (∀ op ∈ ops, op.Internal) → ops.length ≤ 44 ∧
        ((∀ op : DatabaseOp Nat Nat, op.Internal → op.apply d' = none) →
          (d'.finished.map Prod.fst).Perm [firstQuery]) :=
  ⟨rfl, (tasks_finished reachable_lateShutdown).2.2.2⟩

/-- The thread alone finishes what it began before it begins the next. -/
def InOrder (d : DatabaseTasks C R) : Prop :=
  d.flushes = [] ∧ d.started = d.finished.map Prod.fst ++ d.threadTask

theorem inOrder_notify_one (h : d.InOrder) : d.notify_one.InOrder := by
  obtain ⟨-, hsame⟩ | ⟨hthread, hwoken⟩ := notify_one_cases d
  · rwa [hsame]
  · rw [hwoken]
    obtain ⟨hflushes, hstarted⟩ := h
    rw [threadTask, hthread] at hstarted
    exact ⟨hflushes, hstarted⟩

theorem InOrder.not_flushing (h : d.InOrder) {call : FlushCall C} {front back : List (FlushCall C)}
    (hflushes : d.flushes = front ++ call :: back) : False := by
  rw [h.1] at hflushes
  simp at hflushes

theorem InOrder.change (h : d.InOrder) (hop : ¬op.Flushes) (hchange : Change d op d') :
    d'.InOrder := by
  have hnothing {thread : DatabaseThread C} (hbefore : d.threadTask = [])
      (hafter : ({ d with thread := thread } : DatabaseTasks C R).threadTask = []) :
      ({ d with thread := thread } : DatabaseTasks C R).InOrder := by
    refine ⟨h.1, ?_⟩
    rw [hafter, ← hbefore]
    exact h.2
  cases hchange with
  | accept => exact h
  | refuse => exact h
  | notify signals =>
    have hless : ({ d with signals := signals } : DatabaseTasks C R).InOrder := h
    exact inOrder_notify_one hless
  | spuriousWakeup => exact inOrder_notify_one h
  | stop => exact h
  | flush => exact absurd trivial hop
  | shutdown => exact absurd trivial hop
  | lock _ hthread => exact hnothing (by rw [threadTask, hthread]) rfl
  | leave _ hthread => exact hnothing (by rw [threadTask, hthread]) rfl
  | wait _ hthread => exact hnothing (by rw [threadTask, hthread]) rfl
  | again _ hthread => exact hnothing (by rw [threadTask, hthread]) rfl
  | @take _ task _ hthread =>
    have hnone : d.threadTask = [] := by
      obtain hlock | hwoken := hthread
      · rw [threadTask, hlock]
      · rw [threadTask, hwoken]
    have hstarted := h.2
    rw [hnone, List.append_nil] at hstarted
    exact ⟨h.1, congrArg (· ++ [task]) hstarted⟩
  | @finish task answer hthread =>
    refine ⟨h.1, ?_⟩
    have hstarted := h.2
    rw [threadTask, hthread] at hstarted
    simpa [runTask, threadTask] using hstarted
  | flushTake _ _ hflushes => exact (h.not_flushing hflushes).elim
  | flushFinish _ _ hflushes => exact (h.not_flushing hflushes).elim
  | flushEnd _ _ hflushes => exact (h.not_flushing hflushes).elim

/-- As long as nothing was flushed, the tasks are finished in the order in which they were
accepted. -/
theorem finished_in_order
    (h : Run.ReachableBy (databaseSystem C R) (fun _ op => ¬op.Flushes) d) :
    d.accepted = d.finished.map Prod.fst ++ d.threadTask ++ d.tasks := by
  have hqueue : d.accepted = d.started ++ d.tasks :=
    (sound_of_reachable h.reachable).queue.added_eq
  have hinorder : d.InOrder := by
    refine Run.ReachableBy.invariant (I := InOrder) (fun d hd => ?_)
      (fun d op d' hd hop hstep => hd.change hop (change_apply hstep)) h
    have hinit : d = {} := hd
    rw [hinit]
    exact ⟨rfl, rfl⟩
  rw [hqueue, hinorder.2]

/-! The state was found not to be `terminated` before all of `shutdown` took place. -/

def lateSleep : DatabaseTasks Nat Nat := { state := .terminated, thread := .wait }

/-- The thread can go to sleep after the notification of `shutdown`, and nothing wakes it. -/
theorem asleep_after_shutdown : Run.Reachable (databaseSystem Nat Nat) lateSleep ∧
    ∀ op : DatabaseOp Nat Nat, op.Internal → op.apply lateSleep = none := by
  refine ⟨?_, ?_⟩
  · have h₀ : Run.Reachable (databaseSystem Nat Nat) {} := .init rfl
    have h₁ : Run.Reachable (databaseSystem Nat Nat) { thread := .lock } :=
      h₀.step' (i := .thread ⟨none, false⟩) rfl
    have h₂ : Run.Reachable (databaseSystem Nat Nat) (shutdown { thread := .lock }) :=
      h₁.step' (i := .shutdown) rfl
    have h₃ : Run.Reachable (databaseSystem Nat Nat)
        { state := .terminated, thread := .lock, signals := 1 } :=
      h₂.step' (i := .flushStep 0 ⟨none, false⟩) rfl
    have h₄ : Run.Reachable (databaseSystem Nat Nat)
        { state := .terminated, thread := .lock } := h₃.step' (i := .notify) rfl
    exact h₄.step' (i := .thread ⟨none, false⟩) rfl
  · intro op hinternal
    cases op with
    | notify => rfl
    | thread => rfl
    | flushStep => rfl
    | addTask => cases hinternal
    | spuriousWakeup => cases hinternal
    | stop => cases hinternal
    | flush => cases hinternal
    | shutdown => cases hinternal

end DatabaseTasks

end Eloth
