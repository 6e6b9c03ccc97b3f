import Mathlib.Data.List.Count
import Mathlib.Logic.Function.Basic
import Eloth.Lib.Run

/-!
# The scheduler of delayed tasks

Calls of `addEvent` and `stopEvent` post closures to the context of the scheduler's thread, which
runs them in order. The waits of the timers complete by their expiry or by a cancellation, and a
completed wait leaves a handler that runs at any later time.
-/

namespace Eloth

inductive ThreadState where
  | running
  | closing
  | terminated
  deriving DecidableEq

structure SchedulerTask (F : Type) where
  func : F
  delay : Nat
  eventId : Nat := 0
  deriving DecidableEq

/-- The closures that `addEvent` and `stopEvent` post. -/
inductive Posted (F : Type) where
  | insert (task : SchedulerTask F)
  | cancel (eventId : Nat)

/-- The handler of a completed wait, with the error code `operation_aborted` or none. -/
structure WaitHandler (F : Type) where
  aborted : Bool
  task : SchedulerTask F

/-- A timer of the map is the list of its outstanding waits. The tasks that were handed to the
dispatcher and those that were deleted are kept in order. -/
structure Scheduler (F : Type) where
  state : ThreadState := .running
  dispatcherState : ThreadState := .running
  lastEventId : Nat := 0
  posted : List (Posted F) := []
  eventIdTimerMap : Nat → Option (List (SchedulerTask F)) := fun _ => none
  handlers : List (WaitHandler F) := []
  dispatched : List (SchedulerTask F) := []
  deleted : List (SchedulerTask F) := []

namespace Scheduler

variable {F : Type} (w : Scheduler F)

def setTimer (eventId : Nat) (timer : Option (List (SchedulerTask F))) : Scheduler F :=
  { w with eventIdTimerMap := Function.update w.eventIdTimerMap eventId timer }

def addEvent (task : SchedulerTask F) : Scheduler F :=
  if task.eventId = 0 then
    let task := { task with eventId := w.lastEventId + 1 }
    { w with lastEventId := w.lastEventId + 1, posted := w.posted ++ [.insert task] }
  else { w with posted := w.posted ++ [.insert task] }

def stopEvent (eventId : Nat) : Scheduler F :=
  if eventId = 0 then w else { w with posted := w.posted ++ [.cancel eventId] }

/-- All outstanding waits of a timer complete, by its expiry or by `cancel`. -/
def complete (eventId : Nat) (aborted : Bool) : Scheduler F :=
  match w.eventIdTimerMap eventId with
  | some waits =>
    let w := w.setTimer eventId (some [])
    { w with handlers := w.handlers ++ waits.map fun task => ⟨aborted, task⟩ }
  | none => w

/-- `erase` destroys the timer, which cancels what it still waits for. -/
def eraseTimer (eventId : Nat) : Scheduler F := (w.complete eventId true).setTimer eventId none

/-- The closure of `addEvent`. The timer of an id that is in the map is used again: its new expiry
time cancels the waits it has. -/
def insertEvent (task : SchedulerTask F) : Scheduler F :=
  let w := w.complete task.eventId true
  w.setTimer task.eventId (some ((w.eventIdTimerMap task.eventId).getD [] ++ [task]))

def runPosted : Posted F → Scheduler F
  | .insert task => w.insertEvent task
  | .cancel eventId => w.complete eventId true

/-- `Dispatcher::addTask`. -/
def addTask (task : SchedulerTask F) : Scheduler F :=
  if w.dispatcherState = .running then { w with dispatched := w.dispatched ++ [task] }
  else { w with deleted := w.deleted ++ [task] }

def handleWait (handler : WaitHandler F) : Scheduler F :=
  let w := w.eraseTimer handler.task.eventId
  if handler.aborted = true ∨ w.state = .terminated then
    { w with deleted := w.deleted ++ [handler.task] }
  else w.addTask handler.task

/-! ## Runs -/

inductive Event (F : Type) where
  | addEvent (task : SchedulerTask F)
  | stopEvent (eventId : Nat)
  | runPosted
  | expire (eventId : Nat)
  | handleWait (handler : WaitHandler F)

/-- Tasks come from `createSchedulerTask`, without an id. The closures run in the order in which
they were posted, the handlers in any order. -/
inductive Step : Scheduler F → Event F → Scheduler F → Prop
  | addEvent {w : Scheduler F} {task : SchedulerTask F} (hnew : task.eventId = 0) :
      Step w (.addEvent task) (w.addEvent task)
  | stopEvent {w : Scheduler F} {eventId : Nat} :
      Step w (.stopEvent eventId) (w.stopEvent eventId)
  | runPosted {w : Scheduler F} {first : Posted F} {rest : List (Posted F)}
      (hposted : w.posted = first :: rest) :
      Step w .runPosted ({ w with posted := rest }.runPosted first)
  | expire {w : Scheduler F} {eventId : Nat} {waits : List (SchedulerTask F)}
      (htimer : w.eventIdTimerMap eventId = some waits) (hwaits : waits ≠ []) :
      Step w (.expire eventId) (w.complete eventId false)
  | handleWait {w : Scheduler F} {handler : WaitHandler F} {l r : List (WaitHandler F)}
      (hhandlers : w.handlers = l ++ handler :: r) :
      Step w (.handleWait handler) ({ w with handlers := l ++ r }.handleWait handler)

/-- Both threads are running, and nothing has been scheduled. -/
def system (F : Type) : Run.System (Scheduler F) (Event F) where
  init w := w = {}
  step := Step

/-! ## Where an event is -/

def Posted.inserts (eventId : Nat) : Posted F → Bool
  | .insert task => task.eventId = eventId
  | .cancel _ => false

def waits (eventId : Nat) : List (SchedulerTask F) := (w.eventIdTimerMap eventId).getD []

/-- The closures that still insert the event, its outstanding waits, the handlers that are to run,
and the tasks handed to the dispatcher and deleted. -/
def insertions (eventId : Nat) : Nat := w.posted.countP (Posted.inserts eventId)

def completed (eventId : Nat) : Nat := w.handlers.countP fun handler => handler.task.eventId = eventId

def handed (eventId : Nat) : Nat := w.dispatched.countP fun task => task.eventId = eventId

def deletions (eventId : Nat) : Nat := w.deleted.countP fun task => task.eventId = eventId

def Added (eventId : Nat) : Prop := 0 < eventId ∧ eventId ≤ w.lastEventId

instance (eventId : Nat) : Decidable (w.Added eventId) := by unfold Added; infer_instance

/-- An added event is in one place, and any other id in none. A timer is in the map from its
insertion until the handler of its wait has run. -/
structure Accounted : Prop where
  running : w.state = .running ∧ w.dispatcherState = .running
  own : ∀ eventId, ∀ task ∈ w.waits eventId, task.eventId = eventId
  mapped : ∀ eventId, (w.eventIdTimerMap eventId).isSome = true ↔
    0 < (w.waits eventId).length + w.completed eventId
  once : ∀ eventId, w.insertions eventId + (w.waits eventId).length + w.completed eventId +
    w.handed eventId + w.deletions eventId = if w.Added eventId then 1 else 0

variable {w} {eventId i : Nat} {task : SchedulerTask F}

/-! ## What the functions change -/

section Frame

variable (w) (eventId : Nat) (aborted : Bool) (timer : Option (List (SchedulerTask F)))

@[simp] theorem isSome_setTimer : ((w.setTimer eventId timer).eventIdTimerMap i).isSome =
    if i = eventId then timer.isSome else (w.eventIdTimerMap i).isSome := by
  by_cases hi : i = eventId
  · simp [setTimer, hi]
  · simp [setTimer, hi]

@[simp] theorem waits_setTimer :
    (w.setTimer eventId timer).waits i = if i = eventId then timer.getD [] else w.waits i := by
  by_cases hi : i = eventId
  · simp [waits, setTimer, hi]
  · simp [waits, setTimer, hi]

/-- Completing waits leaves everything but the timer and the handlers. -/
theorem complete_frame : ∃ eventIdTimerMap handlers, w.complete eventId aborted =
    { w with eventIdTimerMap := eventIdTimerMap, handlers := handlers } := by
  unfold complete
  split
  · exact ⟨_, _, rfl⟩
  · exact ⟨w.eventIdTimerMap, w.handlers, rfl⟩

theorem isSome_complete : ((w.complete eventId aborted).eventIdTimerMap i).isSome =
    (w.eventIdTimerMap i).isSome := by
  unfold complete
  cases htimer : w.eventIdTimerMap eventId with
  | none => rfl
  | some waits =>
    by_cases hi : i = eventId
    · simp [setTimer, hi, htimer]
    · simp [setTimer, hi]

theorem waits_complete :
    (w.complete eventId aborted).waits i = if i = eventId then [] else w.waits i := by
  unfold complete
  cases htimer : w.eventIdTimerMap eventId with
  | none =>
    by_cases hi : i = eventId
    · simp [waits, hi, htimer]
    · simp [hi]
  | some timer =>
    by_cases hi : i = eventId
    · simp [waits, setTimer, hi]
    · simp [waits, setTimer, hi]

theorem handlers_complete : (w.complete eventId aborted).handlers =
    w.handlers ++ (w.waits eventId).map fun task => ⟨aborted, task⟩ := by
  unfold complete
  cases htimer : w.eventIdTimerMap eventId with
  | none => simp [waits, htimer]
  | some timer => simp [waits, htimer, setTimer]

end Frame

/-- The waits of one timer, counted by the event of their tasks. -/
theorem countP_waits (hown : ∀ task ∈ w.waits eventId, task.eventId = eventId) (i : Nat) :
    (w.waits eventId).countP (fun task => task.eventId = i) =
      if i = eventId then (w.waits eventId).length else 0 := by
  split_ifs with hi
  · rw [List.countP_eq_length]
    intro task htask
    simp [hown task htask, hi]
  · rw [List.countP_eq_zero]
    intro task htask
    simp [hown task htask, Ne.symm hi]

theorem completed_complete (hown : ∀ task ∈ w.waits eventId, task.eventId = eventId)
    (aborted : Bool) (i : Nat) : (w.complete eventId aborted).completed i =
      w.completed i + if i = eventId then (w.waits eventId).length else 0 := by
  rw [completed, handlers_complete, List.countP_append, List.countP_map, ← countP_waits hown i]
  rfl

/-- No wait is outstanding for the event. -/
theorem complete_of_waits (hwaits : w.waits eventId = []) (aborted : Bool) :
    w.complete eventId aborted = w := by
  unfold complete
  cases htimer : w.eventIdTimerMap eventId with
  | none => rfl
  | some timer =>
    obtain rfl : timer = [] := by simpa [waits, htimer] using hwaits
    have hmap : Function.update w.eventIdTimerMap eventId (some []) = w.eventIdTimerMap := by
      rw [← htimer, Function.update_eq_self]
    simp [setTimer, hmap]

/-! ## The invariant -/

namespace Accounted

/-- Waits that complete keep their place in the account: they become handlers. -/
theorem complete (h : w.Accounted) (eventId : Nat) (aborted : Bool) :
    (w.complete eventId aborted).Accounted := by
  obtain ⟨map, handlers, hframe⟩ := complete_frame w eventId aborted
  have hcompleted := completed_complete (h.own eventId) aborted
  refine ⟨?_, fun i task htask => ?_, fun i => ?_, fun i => ?_⟩
  · rw [hframe]
    exact h.running
  · rw [waits_complete] at htask
    split_ifs at htask with hi
    · simp at htask
    · exact h.own i task htask
  · rw [isSome_complete, h.mapped i, waits_complete, hcompleted]
    split_ifs with hi
    · rw [hi, List.length_nil]
      omega
    · rfl
  · have honce := h.once i
    rw [waits_complete, hcompleted]
    have hrest : (w.complete eventId aborted).insertions i = w.insertions i ∧
        (w.complete eventId aborted).handed i = w.handed i ∧
        (w.complete eventId aborted).deletions i = w.deletions i ∧
        ((w.complete eventId aborted).Added i ↔ w.Added i) := by
      rw [hframe]
      exact ⟨rfl, rfl, rfl, Iff.rfl⟩
    simp only [hrest, ← honce]
    split_ifs with hi
    · rw [hi, List.length_nil]
      omega
    · rfl

theorem addEvent (h : w.Accounted) (hnew : task.eventId = 0) : (w.addEvent task).Accounted := by
  have hrest : ∀ i, (w.addEvent task).waits i = w.waits i ∧
      (w.addEvent task).completed i = w.completed i ∧ (w.addEvent task).handed i = w.handed i ∧
      (w.addEvent task).deletions i = w.deletions i ∧ (w.addEvent task).insertions i =
        w.insertions i + if i = w.lastEventId + 1 then 1 else 0 := by
    intro i
    rw [Scheduler.addEvent, if_pos hnew]
    refine ⟨rfl, rfl, rfl, rfl, ?_⟩
    rw [insertions, List.countP_append, List.countP_singleton]
    simp [insertions, Posted.inserts, eq_comm]
  refine ⟨?_, fun i task' htask => ?_, fun i => ?_, fun i => ?_⟩
  · rw [Scheduler.addEvent, if_pos hnew]
    exact h.running
  · rw [(hrest i).1] at htask
    exact h.own i task' htask
  · rw [(hrest i).1, (hrest i).2.1, ← h.mapped i, Scheduler.addEvent, if_pos hnew]
  · have honce := h.once i
    have hadded : (w.addEvent task).Added i ↔ w.Added i ∨ i = w.lastEventId + 1 := by
      rw [Scheduler.addEvent, if_pos hnew]
      simp only [Added]
      omega
    simp only [hrest, hadded]
    by_cases hi : i = w.lastEventId + 1
    · have hnot : ¬ w.Added i := by
        simp only [Added]
        omega
      rw [if_neg hnot] at honce
      rw [if_pos hi, if_pos (.inr hi)]
      omega
    · simp only [hi, or_false, if_false, Nat.add_zero]
      exact honce

theorem stopEvent (h : w.Accounted) (eventId : Nat) : (w.stopEvent eventId).Accounted := by
  unfold Scheduler.stopEvent
  split_ifs with hzero
  · exact h
  · refine ⟨h.running, h.own, h.mapped, fun i => ?_⟩
    have hinsertions : (w.posted ++ [Posted.cancel eventId]).countP (Posted.inserts i) =
        w.insertions i := by
      rw [List.countP_append]
      simp [insertions, Posted.inserts]
    exact (congrArg (· + (w.waits i).length + w.completed i + w.handed i + w.deletions i)
      hinsertions).trans (h.once i)

/-- The closure of an event that has no timer yet. -/
theorem insertEvent_spec (h : w.Accounted) {rest : List (Posted F)}
    (hposted : w.posted = .insert task :: rest) :
    { w with posted := rest }.insertEvent task =
      { w with posted := rest }.setTimer task.eventId (some [task]) ∧
    (w.waits task.eventId).length = 0 ∧ w.completed task.eventId = 0 := by
  have hinsertions : 0 < w.insertions task.eventId := by
    rw [insertions, hposted, List.countP_cons]
    simp [Posted.inserts]
  have honce := h.once task.eventId
  have hone : (if w.Added task.eventId then 1 else 0) ≤ 1 := by split_ifs <;> omega
  have hwaits : (w.waits task.eventId).length = 0 := by omega
  have hcompleted : w.completed task.eventId = 0 := by omega
  have hnone : w.eventIdTimerMap task.eventId = none := by
    have hmapped := h.mapped task.eventId
    rw [hwaits, hcompleted] at hmapped
    simpa using hmapped
  refine ⟨?_, hwaits, hcompleted⟩
  unfold insertEvent Scheduler.complete
  simp [hnone]

theorem runPosted (h : w.Accounted) {first : Posted F} {rest : List (Posted F)}
    (hposted : w.posted = first :: rest) : ({ w with posted := rest }.runPosted first).Accounted := by
  cases first with
  | insert task =>
    obtain ⟨heq, hwaits, hcompleted⟩ := h.insertEvent_spec hposted
    rw [Scheduler.runPosted, heq]
    refine ⟨h.running, fun i task' htask => ?_, fun i => ?_, fun i => ?_⟩
    · rw [waits_setTimer] at htask
      split_ifs at htask with hi
      · obtain rfl : task' = task := by simpa using htask
        exact hi.symm
      · exact h.own i task' htask
    · rw [isSome_setTimer, waits_setTimer]
      split_ifs with hi
      · exact iff_of_true rfl (Nat.add_pos_left Nat.one_pos _)
      · exact h.mapped i
    · have honce := h.once i
      rw [insertions, hposted, List.countP_cons] at honce
      rw [waits_setTimer]
      by_cases hi : i = task.eventId
      · subst hi
        have hinserts : Posted.inserts task.eventId (Posted.insert task) = true := by
          simp [Posted.inserts]
        rw [if_pos hinserts] at honce
        rw [if_pos rfl]
        refine Eq.trans ?_ honce
        change rest.countP _ + 1 + w.completed _ + w.handed _ + w.deletions _ = _
        omega
      · have hinserts : ¬ Posted.inserts i (Posted.insert task) = true := by
          simpa [Posted.inserts] using Ne.symm hi
        rw [if_neg hinserts] at honce
        rw [if_neg hi]
        exact honce
  | cancel eventId =>
    refine complete ?_ eventId true
    refine ⟨h.running, h.own, h.mapped, fun i => ?_⟩
    have hinsertions : rest.countP (Posted.inserts i) = w.insertions i := by
      rw [insertions, hposted, List.countP_cons]
      simp [Posted.inserts]
    exact (congrArg (· + (w.waits i).length + w.completed i + w.handed i + w.deletions i)
      hinsertions).trans (h.once i)

/-- The handler of an event's only wait takes the timer off the map, and its task has no other place
from then on. -/
theorem handleWait_spec (h : w.Accounted) {handler : WaitHandler F} {l r : List (WaitHandler F)}
    (hhandlers : w.handlers = l ++ handler :: r) :
    ∃ dispatched deleted, { w with handlers := l ++ r }.handleWait handler =
      { w.setTimer handler.task.eventId none with
        handlers := l ++ r, dispatched := dispatched, deleted := deleted } ∧
      ∀ i, (dispatched.countP fun task => task.eventId = i) +
        (deleted.countP fun task => task.eventId = i) =
        w.handed i + w.deletions i + if i = handler.task.eventId then 1 else 0 := by
  have hwaits : w.waits handler.task.eventId = [] := by
    have honce := h.once handler.task.eventId
    have hone : (if w.Added handler.task.eventId then 1 else 0) ≤ 1 := by split_ifs <;> omega
    have hcompleted : 0 < w.completed handler.task.eventId := by
      rw [completed, hhandlers, List.countP_pos_iff]
      exact ⟨handler, by simp, by simp⟩
    rw [← List.length_eq_zero_iff]
    omega
  have herase : { w with handlers := l ++ r }.eraseTimer handler.task.eventId =
      { w with handlers := l ++ r }.setTimer handler.task.eventId none := by
    rw [eraseTimer, complete_of_waits (w := { w with handlers := l ++ r }) hwaits]
  rw [Scheduler.handleWait, herase]
  have hstate : ¬ ({ w with handlers := l ++ r }.setTimer handler.task.eventId none).state =
      .terminated := by
    change ¬ w.state = .terminated
    simp [h.running.1]
  cases haborted : handler.aborted with
  | true =>
    refine ⟨w.dispatched, w.deleted ++ [handler.task], by simp [setTimer], fun i => ?_⟩
    rw [List.countP_append, List.countP_singleton]
    simp [handed, deletions, eq_comm, Nat.add_assoc]
  | false =>
    refine ⟨w.dispatched ++ [handler.task], w.deleted, ?_, fun i => ?_⟩
    · have hrunning := h.running
      simp [setTimer, addTask, hrunning]
    · rw [List.countP_append, List.countP_singleton]
      simp [handed, deletions, eq_comm]
      omega

theorem handleWait (h : w.Accounted) {handler : WaitHandler F} {l r : List (WaitHandler F)}
    (hhandlers : w.handlers = l ++ handler :: r) :
    ({ w with handlers := l ++ r }.handleWait handler).Accounted := by
  obtain ⟨dispatched, deleted, heq, hsettled⟩ := h.handleWait_spec hhandlers
  have hcompleted (i : Nat) : w.completed i = (l ++ r).countP (fun h => h.task.eventId = i) +
      if i = handler.task.eventId then 1 else 0 := by
    rw [completed, hhandlers, List.countP_append, List.countP_cons, List.countP_append]
    simp [eq_comm]
    omega
  have hlone (i : Nat) (hi : i = handler.task.eventId) :
      (l ++ r).countP (fun h => h.task.eventId = i) = 0 ∧ (w.waits i).length = 0 := by
    have honce := h.once i
    have hone : (if w.Added i then 1 else 0) ≤ 1 := by split_ifs <;> omega
    rw [hcompleted, if_pos hi] at honce
    omega
  have hwaits (i : Nat) : (w.setTimer handler.task.eventId none).waits i = w.waits i := by
    rw [waits_setTimer]
    split_ifs with hi
    · exact (List.length_eq_zero_iff.mp (hlone i hi).2).symm
    · rfl
  rw [heq]
  refine ⟨h.running, fun i task htask => ?_, fun i => ?_, fun i => ?_⟩
  · exact h.own i task ((hwaits i) ▸ htask)
  · change ((w.setTimer handler.task.eventId none).eventIdTimerMap i).isSome = true ↔
      0 < ((w.setTimer handler.task.eventId none).waits i).length +
        (l ++ r).countP (fun h => h.task.eventId = i)
    rw [hwaits, isSome_setTimer]
    split_ifs with hi
    · simp [hlone i hi]
    · rw [h.mapped i, hcompleted, if_neg hi]
      rfl
  · have honce := h.once i
    change w.insertions i + ((w.setTimer handler.task.eventId none).waits i).length +
      (l ++ r).countP (fun h => h.task.eventId = i) +
      (dispatched.countP fun task => task.eventId = i) +
      (deleted.countP fun task => task.eventId = i) = if w.Added i then 1 else 0
    have hsettled := hsettled i
    rw [hwaits, ← honce, hcompleted]
    omega

theorem step {w' : Scheduler F} {e : Event F} (h : w.Accounted) (hstep : Step w e w') :
    w'.Accounted := by
  cases hstep with
  | addEvent hnew => exact h.addEvent hnew
  | stopEvent => exact h.stopEvent _
  | runPosted hposted => exact h.runPosted hposted
  | expire => exact h.complete _ _
  | handleWait hhandlers => exact h.handleWait hhandlers

end Accounted

theorem accounted_of_reachable (h : Run.Reachable (system F) w) : w.Accounted := by
  refine h.invariant (I := Accounted) ?_ fun w e w' hw hs => hw.step hs
  rintro w rfl
  refine ⟨⟨rfl, rfl⟩, fun i task htask => ?_, fun i => ?_, fun i => ?_⟩
  · simp [waits] at htask
  · simp [waits, completed]
  · simp [waits, insertions, completed, handed, deletions, Added]
    omega

/-! ## What runs to its end -/

/-- The events of the scheduler's own thread. -/
def Event.Internal : Event F → Prop
  | .runPosted => True
  | .expire _ => True
  | .handleWait _ => True
  | _ => False

/-- An event that is neither handed over nor deleted has something to run. -/
theorem Accounted.exists_step (h : w.Accounted) {i : Nat} (hadded : w.Added i)
    (hopen : w.handed i + w.deletions i = 0) :
    ∃ e w', Event.Internal e ∧ Step w e w' := by
  have honce := h.once i
  rw [if_pos hadded] at honce
  rcases Nat.eq_zero_or_pos (w.insertions i) with hinsertions | hinsertions
  · rcases Nat.eq_zero_or_pos (w.completed i) with hcompleted | hcompleted
    · cases htimer : w.eventIdTimerMap i with
      | none =>
        have hwaits : (w.waits i).length = 0 := by simp [waits, htimer]
        omega
      | some timer =>
        have hwaits : w.waits i = timer := by simp [waits, htimer]
        refine ⟨.expire i, _, trivial, .expire htimer ?_⟩
        rintro rfl
        rw [hwaits, List.length_nil] at honce
        omega
    · obtain ⟨handler, hmem, -⟩ := List.countP_pos_iff.mp hcompleted
      obtain ⟨l, r, hhandlers⟩ := List.append_of_mem hmem
      exact ⟨.handleWait handler, _, trivial, .handleWait hhandlers⟩
  · cases hposted : w.posted with
    | nil => simp [insertions, hposted] at hinsertions
    | cons first rest => exact ⟨.runPosted, _, trivial, .runPosted hposted⟩

/-! ## Stopping what is not pending -/

/-- Whether an event has an outstanding wait after some closures, if it has one before exactly when
`armed`. -/
def armedAfter (i : Nat) (armed : Bool) (closures : List (Posted F)) : Bool :=
  closures.foldl (fun armed closure =>
    match closure with
    | .insert task => armed || task.eventId = i
    | .cancel eventId => armed && eventId ≠ i) armed

/-- The closures will leave no wait of the event: it is unknown, its timer has expired, or a stop
of it has been called. -/
def Unarmed (w : Scheduler F) (i : Nat) (closures : List (Posted F)) : Prop :=
  armedAfter i (!(w.waits i).isEmpty) closures = false

theorem armedAfter_false {i : Nat} {armed : Bool} {closures : List (Posted F)}
    (h : armedAfter i armed closures = false) : armedAfter i false closures = false := by
  cases armed with
  | false => exact h
  | true =>
    induction closures with
    | nil => rfl
    | cons first rest ih =>
      cases first with
      | insert task =>
        by_cases htask : task.eventId = i
        · simpa [armedAfter, htask] using h
        · simpa [armedAfter, htask] using ih (by simpa [armedAfter] using h)
      | cancel eventId =>
        by_cases hid : eventId = i
        · simpa [armedAfter, hid] using h
        · simpa [armedAfter, hid] using ih (by simpa [armedAfter, hid] using h)

/-- A closure that runs arms the event as `armedAfter` says. -/
theorem Accounted.unarmed_runPosted (h : w.Accounted) {i : Nat} {first : Posted F}
    {before rest : List (Posted F)} (hposted : w.posted = first :: rest)
    (hunarmed : w.Unarmed i (first :: before)) :
    ({ w with posted := rest }.runPosted first).Unarmed i before ∧
    ({ w with posted := rest }.runPosted first).posted = rest := by
  have hsame : { w with posted := rest }.waits i = w.waits i := rfl
  cases first with
  | insert task =>
    rw [Scheduler.runPosted, (h.insertEvent_spec hposted).1]
    refine ⟨?_, rfl⟩
    rw [Unarmed, waits_setTimer, hsame]
    by_cases hi : i = task.eventId
    · simpa [Unarmed, armedAfter, hi] using hunarmed
    · simpa [Unarmed, armedAfter, hi, Ne.symm hi] using hunarmed
  | cancel eventId =>
    obtain ⟨map, handlers, hframe⟩ := complete_frame { w with posted := rest } eventId true
    refine ⟨?_, by rw [Scheduler.runPosted, hframe]⟩
    rw [Scheduler.runPosted, Unarmed, waits_complete, hsame]
    by_cases hi : i = eventId
    · simpa [Unarmed, armedAfter, hi] using hunarmed
    · simpa [Unarmed, armedAfter, hi, Ne.symm hi] using hunarmed

/-- Until the closure of a stop runs, its event stays unarmed, and then the closure changes
nothing else. -/
theorem Accounted.stop_step {w' : Scheduler F} {e : Event F} (h : w.Accounted) {i : Nat}
    {before after : List (Posted F)} (hposted : w.posted = before ++ .cancel i :: after)
    (hunarmed : w.Unarmed i before) (hstep : Step w e w') :
    (before = [] ∧ w' = { w with posted := after }) ∨
    ∃ before' after', w'.posted = before' ++ .cancel i :: after' ∧ w'.Unarmed i before' := by
  have hless {u : Scheduler F} {timer : Nat} (hwaits : u.waits i =
      if i = timer then [] else w.waits i) : u.Unarmed i before := by
    rw [Unarmed, hwaits]
    split_ifs with hi
    · exact armedAfter_false hunarmed
    · exact hunarmed
  cases hstep with
  | @addEvent task hnew =>
    refine .inr ⟨before, after ++ [.insert { task with eventId := w.lastEventId + 1 }], ?_, ?_⟩
    · rw [Scheduler.addEvent, if_pos hnew]
      simp [hposted]
    · rw [Scheduler.addEvent, if_pos hnew]
      exact hunarmed
  | @stopEvent eventId =>
    unfold Scheduler.stopEvent
    split_ifs with hzero
    · exact .inr ⟨before, after, hposted, hunarmed⟩
    · exact .inr ⟨before, after ++ [.cancel eventId], by simp [hposted], hunarmed⟩
  | @runPosted first rest hfirst =>
    cases before with
    | nil =>
      obtain ⟨rfl, rfl⟩ : Posted.cancel i = first ∧ after = rest := by
        simpa using hposted.symm.trans hfirst
      have hwaits : w.waits i = [] := by simpa [Unarmed, armedAfter] using hunarmed
      exact .inl ⟨rfl, complete_of_waits (w := { w with posted := after }) hwaits true⟩
    | cons closure before =>
      obtain ⟨rfl, hrest⟩ : closure = first ∧ before ++ Posted.cancel i :: after = rest := by
        simpa using hposted.symm.trans hfirst
      obtain ⟨hunarmed', hposted'⟩ := h.unarmed_runPosted hfirst hunarmed
      exact .inr ⟨before, after, hposted'.trans hrest.symm, hunarmed'⟩
  | @expire eventId =>
    obtain ⟨map, handlers, hframe⟩ := complete_frame w eventId false
    refine .inr ⟨before, after, ?_, hless (waits_complete w eventId false)⟩
    rw [hframe]
    exact hposted
  | @handleWait handler l r hhandlers =>
    obtain ⟨dispatched, deleted, heq, -⟩ := h.handleWait_spec hhandlers
    refine .inr ⟨before, after, ?_, @hless _ handler.task.eventId ?_⟩
    · rw [heq]
      exact hposted
    · rw [heq]
      exact waits_setTimer w handler.task.eventId none

/-- Every added event is handed to the dispatcher or deleted, once: never both or twice, and when
the scheduler's thread has nothing left to run, one of them. The map holds the timers whose waits
have not been handled. A stop of an event that is not pending at the call changes nothing else. -/
theorem settled_once (h : Run.Reachable (system F) w) (i : Nat) :
    w.handed i + w.deletions i ≤ 1 ∧
    (w.Added i → (∀ e w', Event.Internal e → ¬ Step w e w') → w.handed i + w.deletions i = 1) ∧
    ((w.eventIdTimerMap i).isSome = true ↔
      w.waits i ≠ [] ∨ ∃ handler ∈ w.handlers, handler.task.eventId = i) ∧
    (∀ before after e w', w.posted = before ++ .cancel i :: after → w.Unarmed i before →
      Step w e w' → (before = [] ∧ w' = { w with posted := after }) ∨
        ∃ before' after', w'.posted = before' ++ .cancel i :: after' ∧ w'.Unarmed i before') := by
  have haccounted := accounted_of_reachable h
  have honce := haccounted.once i
  have hone : (if w.Added i then 1 else 0) ≤ 1 := by split_ifs <;> omega
  refine ⟨by omega, fun hadded hquiet => ?_, ?_, fun before after e w' hposted hunarmed hstep => ?_⟩
  · by_contra hopen
    obtain ⟨e, w', hinternal, hstep⟩ := haccounted.exists_step hadded (by omega)
    exact hquiet e w' hinternal hstep
  · rw [haccounted.mapped i, Nat.add_pos_iff_pos_or_pos, List.length_pos_iff, completed,
      List.countP_pos_iff]
    simp
  · exact haccounted.stop_step hposted hunarmed hstep

def oneAdded : Scheduler String :=
  ({} : Scheduler String).addEvent { func := "checkDecay", delay := 1000 }

/-- The scheduler after the timer of the task has been set. -/
def oneTimer : Scheduler String :=
  { oneAdded with posted := [] }.runPosted
    (.insert { func := "checkDecay", delay := 1000, eventId := 1 })

theorem reachable_oneTimer : Run.Reachable (system String) oneTimer := by
  have hstart : Run.Reachable (system String) {} := .init rfl
  have hadded : Run.Reachable (system String) oneAdded :=
    hstart.step' (i := .addEvent { func := "checkDecay", delay := 1000 }) (Step.addEvent rfl)
  have hposted : oneAdded.posted =
      [.insert { func := "checkDecay", delay := 1000, eventId := 1 }] := rfl
  exact hadded.step' (i := .runPosted) (Step.runPosted hposted)

theorem settled_once_oneTimer : (oneTimer.eventIdTimerMap 1).isSome = true ∧
    oneTimer.handed 1 + oneTimer.deletions 1 ≤ 1 ∧
    (oneTimer.Added 1 → (∀ e w', Event.Internal e → ¬ Step oneTimer e w') →
      oneTimer.handed 1 + oneTimer.deletions 1 = 1) := by
  have h := settled_once reachable_oneTimer 1
  exact ⟨by decide, h.1, h.2.1⟩

end Scheduler

end Eloth
