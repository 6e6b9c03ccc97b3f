import Mathlib.Algebra.Group.Nat.Defs
import Mathlib.Data.List.Sort
import Mathlib.Logic.Function.Basic
import Eloth.Lib.Run
import Eloth.Lib.TaskQueue

/-!
# Raids

A raid that is started schedules its first event, and each event schedules the next one. The
mark of the running raid is cleared by the event that ends the raid.
-/

namespace Eloth

/-- The events are given by their delays. -/
structure Raid where
  raidEvents : List Nat := []
  interval : Nat := 0
  margin : Nat := 0
  canBeRepeated : Bool := false
  nextEvent : Nat := 0
  executing : Bool := false
  nextEventEvent : Nat := 0

/-- A raid as the files describe it. -/
structure RaidNode where
  delays : List Nat
  interval : Nat
  margin : Nat
  canBeRepeated : Bool

inductive RaidTask where
  | checkRaids
  | executeRaidEvent (raid event : Nat)
  deriving DecidableEq

def RaidTask.isRaidEvent : RaidTask → Bool
  | checkRaids => false
  | executeRaidEvent _ _ => true

/-- Raids that are erased or deleted stay at their addresses. The runs of raids with the events
that they executed, the newest first, are recorded for the statements only. -/
structure Raids where
  tasks : TaskQueue RaidTask := {}
  raid : Nat → Raid := fun _ => {}
  allocated : Nat := 0
  raidList : List Nat := []
  running : Option Nat := none
  lastRaidEnd : Nat := 0
  checkRaidsEvent : Nat := 0
  loaded : Bool := false
  started : Bool := false
  runs : List (Nat × List Nat) := []

def CHECK_RAIDS_INTERVAL : Nat := 60
def RAID_MINTICKS : Nat := 1000
def MAX_RAND_RANGE : Nat := 10000000

namespace Raids

variable (s : Raids)

/-! ## The files -/

def loadRaid (s : Raids) (node : RaidNode) : Raids :=
  if node.interval = 0 then s
  else
    { s with
      raid := Function.update s.raid s.allocated
        { raidEvents := (node.delays.map (max RAID_MINTICKS)).insertionSort (· ≤ ·)
          interval := node.interval
          margin := node.margin
          canBeRepeated := node.canBeRepeated }
      allocated := s.allocated + 1
      raidList := s.raidList ++ [s.allocated] }

def loadFromXml (nodes : List RaidNode) : Raids :=
  if s.loaded then s else { nodes.foldl loadRaid s with loaded := true }

def startup : Raids :=
  if !s.loaded ∨ s.started then s
  else
    { s with
      lastRaidEnd := s.tasks.now
      tasks := s.tasks.addEvent (CHECK_RAIDS_INTERVAL * 1000) .checkRaids
      checkRaidsEvent := s.tasks.lastEventId + 1
      started := true }

def stopEvents (s : Raids) (r : Nat) : Raids :=
  if (s.raid r).nextEventEvent ≠ 0 then
    { s with
      tasks := s.tasks.stopEvent (s.raid r).nextEventEvent
      raid := Function.update s.raid r { s.raid r with nextEventEvent := 0 } }
  else s

def clear : Raids :=
  let s := { s with tasks := s.tasks.stopEvent s.checkRaidsEvent, checkRaidsEvent := 0 }
  { s.raidList.foldl stopEvents s with
    raidList := []
    loaded := false
    started := false
    running := none
    lastRaidEnd := 0 }

def reload (nodes : List RaidNode) : Raids := s.clear.loadFromXml nodes

/-! ## The events -/

/-- The next event is scheduled. -/
def scheduleNext (r delay : Nat) : Raids :=
  { s with
    tasks := s.tasks.addEvent delay (.executeRaidEvent r (s.raid r).nextEvent)
    raid := Function.update s.raid r
      { s.raid r with executing := true, nextEventEvent := s.tasks.lastEventId + 1 } }

def startRaid (r : Nat) : Raids :=
  match (s.raid r).raidEvents[(s.raid r).nextEvent]? with
  | some delay => s.scheduleNext r delay
  | none => s

/-- The raid is marked as running, and started. -/
def start (r : Nat) : Raids :=
  { s with running := some r, runs := (r, []) :: s.runs }.startRaid r

def resetRaid (r : Nat) : Raids :=
  { s with
    raid := Function.update s.raid r { s.raid r with nextEvent := 0, executing := false }
    running := none
    lastRaidEnd := s.tasks.now }

/-- The difference of two unsigned delays is read as a signed number. -/
def ticksBetween (delay newDelay : Nat) : Nat :=
  let difference := (newDelay + 2 ^ 32 - delay) % 2 ^ 32
  if difference < 2 ^ 31 then max RAID_MINTICKS difference else RAID_MINTICKS

/-- The event belongs to the newest run of the raid. -/
def record (r event : Nat) : List (Nat × List Nat) → List (Nat × List Nat)
  | [] => []
  | (r', events) :: runs =>
    if r' = r then (r', events ++ [event]) :: runs else (r', events) :: record r event runs

/-- The success of the event is given. -/
def executeRaidEvent (r event : Nat) (success : Bool) : Raids :=
  let s := { s with runs := record r event s.runs }
  if success then
    let raid := s.raid r
    let s := { s with raid := Function.update s.raid r { raid with nextEvent := raid.nextEvent + 1 } }
    match raid.raidEvents[raid.nextEvent + 1]? with
    | some newDelay => s.scheduleNext r (ticksBetween (raid.raidEvents[event]?.getD 0) newDelay)
    | none => s.resetRaid r
  else s.resetRaid r

/-- The raid that is started, for the given random numbers. -/
def chosen (roll : Nat → Nat) : Option Nat :=
  if s.running.isNone then
    s.raidList.find? fun r =>
      s.lastRaidEnd + (s.raid r).margin ≤ s.tasks.now ∧
        roll r ≤ (MAX_RAND_RANGE * CHECK_RAIDS_INTERVAL) / (s.raid r).interval
  else none

def checkRaids (roll : Nat → Nat) : Raids :=
  let s :=
    match s.chosen roll with
    | some r =>
      let started := s.start r
      if !(s.raid r).canBeRepeated then { started with raidList := started.raidList.erase r }
      else started
    | none => s
  { s with
    tasks := s.tasks.addEvent (CHECK_RAIDS_INTERVAL * 1000) .checkRaids
    checkRaidsEvent := s.tasks.lastEventId + 1 }

/-- A script starts a raid of the list. -/
def luaGameStartRaid (r : Nat) : Raids :=
  if r ∉ s.raidList then s else if s.running.isSome then s else s.start r

/-- The dispatcher runs the next task, with the random numbers and the success given. -/
def runTask (roll : Nat → Nat) (success : Bool) : Raids :=
  match s.tasks.queue.head? with
  | some .checkRaids => { s with tasks := s.tasks.next }.checkRaids roll
  | some (.executeRaidEvent r event) =>
    { s with tasks := s.tasks.next }.executeRaidEvent r event success
  | none => s

/-! ## Runs -/

inductive Op where
  | pass (time : Nat)
  | expire (i : Nat)
  | runTask (roll : Nat → Nat) (success : Bool)
  | luaGameStartRaid (r : Nat)
  | startup
  | clear
  | reload (nodes : List RaidNode)

def next : Op → Raids
  | .pass time => { s with tasks := s.tasks.pass time }
  | .expire i => { s with tasks := s.tasks.expire i }
  | .runTask roll success => s.runTask roll success
  | .luaGameStartRaid r => s.luaGameStartRaid r
  | .startup => s.startup
  | .clear => s.clear
  | .reload nodes => s.reload nodes

def system : Run.System Raids Op where
  init s := s = {}
  step s op s' := s' = s.next op

/-- No event of the running raid outlives the list of raids. -/
def Stoppable : Prop :=
  ∀ r, s.running = some r → r ∈ s.raidList ∧ ∀ event, .executeRaidEvent r event ∉ s.tasks.queue

/-- Raids that are started have an event, and the raids are cleared while the running one is in the
list and its event is with the scheduler. -/
def Sound : Op → Prop
  | .runTask roll _ =>
    s.tasks.queue.head? = some .checkRaids → ∀ r, s.chosen roll = some r →
      (s.raid r).raidEvents ≠ []
  | .luaGameStartRaid r => r ∈ s.raidList → s.running = none → (s.raid r).raidEvents ≠ []
  | .clear => s.Stoppable
  | .reload _ => s.Stoppable
  | _ => True

/-- The events that the run has still to execute. -/
def remaining : Nat :=
  match s.running, s.runs with
  | some r, (_, events) :: _ => (s.raid r).raidEvents.length - events.length
  | _, _ => 0

/-- A running raid has one event scheduled, the one after those that this run has executed, and no
other raid has one. The events of each run were executed in order of their delays, none twice. -/
structure Lawful : Prop where
  running : ∀ r, s.running = some r → ∃ events runs, s.runs = (r, events) :: runs ∧
    s.tasks.pending RaidTask.isRaidEvent = [.executeRaidEvent r events.length] ∧
    events.length < (s.raid r).raidEvents.length
  idle : s.running = none → s.tasks.pending RaidTask.isRaidEvent = []
  runs : ∀ run ∈ s.runs, run.2 = List.range run.2.length ∧
    run.2.length ≤ (s.raid run.1).raidEvents.length
  sorted : ∀ r, (s.raid r).raidEvents.Pairwise (· ≤ ·)

end Raids

end Eloth
