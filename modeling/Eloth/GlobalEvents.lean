import Mathlib.Algebra.Group.Nat.Defs
import Mathlib.Data.List.Sort
import Mathlib.Logic.Function.Basic
import Eloth.Lib.Run
import Eloth.Lib.TaskQueue

/-!
# Global events

Events for a time of day and events for an interval are kept in two maps, each of which is served
by a task that schedules itself again. The time of the next task is found from the periods of the
events that have just been executed.
-/

namespace Eloth

/-- The next execution is in seconds for an event with a time of day, and in milliseconds for one
with an interval. -/
structure GlobalEvent where
  name : String
  fromLua : Bool
  interval : Nat
  nextExecution : Int

inductive GlobalEventType where
  | none
  | timer
  | startup
  | shutdown
  | record
  deriving DecidableEq

inductive GlobalEventTask where
  | timer
  | think
  deriving DecidableEq

/-- `timerMap` with `timerEventId`, or `thinkMap` with `thinkEventId`. -/
structure EventChain where
  map : List GlobalEvent := []
  eventId : Nat := 0

structure GlobalEvents where
  tasks : TaskQueue GlobalEventTask := {}
  chain : GlobalEventTask → EventChain := fun _ => {}
  serverMap : List GlobalEvent := []

def SCHEDULER_MINTICKS : Nat := 50

namespace GlobalEvents

variable (s : GlobalEvents)

/-- A map is in the order of the names, and takes a name once. -/
def emplace (map : List GlobalEvent) (event : GlobalEvent) : Bool × List GlobalEvent :=
  if map.any fun e => e.name = event.name then (false, map)
  else (true, map.orderedInsert (fun e e' => e.name ≤ e'.name) event)

/-- The task is scheduled, and its id is kept. -/
def schedule (task : GlobalEventTask) (delay : Nat) : GlobalEvents :=
  { s with
    tasks := s.tasks.addEvent delay task
    chain := Function.update s.chain task
      { s.chain task with eventId := s.tasks.lastEventId + 1 } }

def setMap (task : GlobalEventTask) (map : List GlobalEvent) : GlobalEvents :=
  { s with chain := Function.update s.chain task { s.chain task with map := map } }

def register (task : GlobalEventTask) (event : GlobalEvent) : Bool × GlobalEvents :=
  match emplace (s.chain task).map event with
  | (true, map) =>
    let s := s.setMap task map
    (true, if (s.chain task).eventId = 0 then s.schedule task SCHEDULER_MINTICKS else s)
  | (false, _) => (false, s)

def registerEvent (type : GlobalEventType) (event : GlobalEvent) : Bool × GlobalEvents :=
  match type with
  | .timer => s.register .timer event
  | .none => s.register .think event
  | _ =>
    let result := emplace s.serverMap event
    (result.1, { s with serverMap := result.2 })

def registerLuaEvent (type : GlobalEventType) (event : GlobalEvent) : Bool × GlobalEvents :=
  s.registerEvent type { event with fromLua := true }

def clearMap (map : List GlobalEvent) (fromLua : Bool) : List GlobalEvent :=
  map.filter fun e => e.fromLua ≠ fromLua

def clear (fromLua : Bool) : GlobalEvents where
  tasks := (s.tasks.stopEvent (s.chain .think).eventId).stopEvent (s.chain .timer).eventId
  chain task := { map := clearMap (s.chain task).map fromLua, eventId := 0 }
  serverMap := clearMap s.serverMap fromLua

/-! ## The tasks -/

def earlier (nextScheduledTime : Option Int) (nextExecutionTime : Int) : Option Int :=
  match nextScheduledTime with
  | some next => some (if nextExecutionTime < next then nextExecutionTime else next)
  | none => some nextExecutionTime

/-- Events whose time has come are executed. They are dropped or have their next execution moved
by their period. -/
def executeEvents (now : Int) (period : GlobalEvent → Int) (dropped : GlobalEvent → Bool) :
    List GlobalEvent → Option Int → List GlobalEvent × Option Int
  | [], next => ([], next)
  | e :: events, next =>
    if e.nextExecution - now > 0 then
      let result := executeEvents now period dropped events
        (earlier next (e.nextExecution - now))
      (e :: result.1, result.2)
    else if dropped e then executeEvents now period dropped events next
    else
      let result := executeEvents now period dropped events (earlier next (period e))
      ({ e with nextExecution := e.nextExecution + period e } :: result.1, result.2)

def runEvents (task : GlobalEventTask) (now : Int) (period : GlobalEvent → Int)
    (dropped : GlobalEvent → Bool) (delay : Int → Nat) : GlobalEvents :=
  let result := executeEvents now period dropped (s.chain task).map none
  let s := s.setMap task result.1
  match result.2 with
  | some next => s.schedule task (delay next)
  | none => s

/-- The clock of the task, in the unit of its events. -/
def clock (task : GlobalEventTask) (now : Nat) : Int :=
  match task with
  | .timer => (now / 1000 : Nat)
  | .think => now

def period (task : GlobalEventTask) (event : GlobalEvent) : Int :=
  match task with
  | .timer => 86400
  | .think => event.interval

/-- An event with a time of day is dropped when its callback fails. -/
def dropped (task : GlobalEventTask) (success : String → Bool) (event : GlobalEvent) : Bool :=
  match task with
  | .timer => !success event.name
  | .think => false

/-- The delay in milliseconds, as an unsigned number of 32 bits. -/
def delay (task : GlobalEventTask) (nextScheduledTime : Int) : Nat :=
  match task with
  | .timer => (max 1000 (nextScheduledTime * 1000)).toNat % 2 ^ 32
  | .think => nextScheduledTime.toNat % 2 ^ 32

def timer (success : String → Bool) : GlobalEvents :=
  s.runEvents .timer (clock .timer s.tasks.now) (period .timer) (dropped .timer success)
    (delay .timer)

/-- A callback that fails is reported only. -/
def think (success : String → Bool) : GlobalEvents :=
  s.runEvents .think (clock .think s.tasks.now) (period .think) (dropped .think success)
    (delay .think)

/-- The dispatcher runs the next task, with the success of the callbacks given. -/
def runTask (success : String → Bool) : GlobalEvents :=
  match s.tasks.queue.head? with
  | some .timer => { s with tasks := s.tasks.next }.timer success
  | some .think => { s with tasks := s.tasks.next }.think success
  | none => s

/-! ## Runs -/

inductive Op where
  | pass (time : Nat)
  | expire (i : Nat)
  | runTask (success : String → Bool)
  | registerEvent (type : GlobalEventType) (event : GlobalEvent)
  | registerLuaEvent (type : GlobalEventType) (event : GlobalEvent)
  | clear (fromLua : Bool)

def next : Op → GlobalEvents
  | .pass time => { s with tasks := s.tasks.pass time }
  | .expire i => { s with tasks := s.tasks.expire i }
  | .runTask success => s.runTask success
  | .registerEvent type event => (s.registerEvent type event).2
  | .registerLuaEvent type event => (s.registerLuaEvent type event).2
  | .clear fromLua => s.clear fromLua

/-- The server starts at any time. -/
def system : Run.System GlobalEvents Op where
  init s := ∃ now, s = { tasks := { now := now } }
  step s op s' := s' = s.next op

def pending (task : GlobalEventTask) : List GlobalEventTask :=
  s.tasks.pending fun t => t = task

/-- A second for events with a time of day. -/
def minTicks : GlobalEventTask → Nat
  | .timer => 1000
  | .think => SCHEDULER_MINTICKS

/-- The task comes no later than the event, or than the minimal delay from now. -/
def Prompt (task : GlobalEventTask) (due now : Nat) (event : GlobalEvent) : Prop :=
  clock task due ≤ event.nextExecution ∨ due ≤ now + minTicks task

instance (task : GlobalEventTask) (due now : Nat) (event : GlobalEvent) :
    Decidable (Prompt task due now event) :=
  inferInstanceAs (Decidable (_ ∨ _))

/-- A map with events is served by one task, which comes in time for each of them. -/
structure Served (task : GlobalEventTask) : Prop where
  once : (s.chain task).map ≠ [] → s.pending task = [task]
  prompt : ∀ t ∈ s.tasks.timers, t.task = task → ∀ e ∈ (s.chain task).map,
    Prompt task t.due s.tasks.now e

/-! ## When the task comes in time -/

/-- For how long the event lets the task sleep. -/
def wait (task : GlobalEventTask) (now : Int) (event : GlobalEvent) : Int :=
  if event.nextExecution - now > 0 then event.nextExecution - now else period task event

/-- When its next execution is due after the task has run. -/
def timeLeft (task : GlobalEventTask) (now : Int) (event : GlobalEvent) : Int :=
  if event.nextExecution - now > 0 then event.nextExecution - now
  else event.nextExecution + period task event - now

def remain (task : GlobalEventTask) (now : Int) (success : String → Bool)
    (events : List GlobalEvent) : List GlobalEvent :=
  events.filter fun e => e.nextExecution - now > 0 ∨ dropped task success e = false

/-- For each event that remains, one that remains lets the task sleep no longer than until that
event, or for the minimal delay. An event that is executed on time is such a one itself. -/
def Steady (task : GlobalEventTask) (now : Int) (events : List GlobalEvent) : Prop :=
  ∀ e ∈ events, ∃ e' ∈ events,
    wait task now e' ≤ max (timeLeft task now e) (clock task (minTicks task))

/-- An event of a new name is registered while no task is known or while one is scheduled early
enough. -/
def Welcome (task : GlobalEventTask) (event : GlobalEvent) : Prop :=
  (∀ e ∈ (s.chain task).map, e.name ≠ event.name) → (s.chain task).eventId ≠ 0 →
    s.pending task ≠ [] ∧
      ∀ t ∈ s.tasks.timers, t.task = task → Prompt task t.due s.tasks.now event

/-- The maps are left empty, and no task is on its way. -/
def Clears (fromLua : Bool) (task : GlobalEventTask) : Prop :=
  (∀ e ∈ (s.chain task).map, e.fromLua = fromLua) ∧ task ∉ s.tasks.queue

def Sound : Op → Prop
  | .runTask success => ∀ task, s.tasks.queue.head? = some task →
      Steady task (clock task s.tasks.now)
        (remain task (clock task s.tasks.now) success (s.chain task).map)
  | .registerEvent .timer event => s.Welcome .timer event
  | .registerEvent .none event => s.Welcome .think event
  | .registerLuaEvent .timer event => s.Welcome .timer event
  | .registerLuaEvent .none event => s.Welcome .think event
  | .clear fromLua => ∀ task, s.Clears fromLua task
  | _ => True

end GlobalEvents

end Eloth
