import Mathlib.Data.List.Basic
import Mathlib.Logic.Function.Basic
import Eloth.Lib.Run

/-!
# The walk events of a creature

A creature keeps the id of its walk event. The timer of an event runs on the thread of the
scheduler; when it expires its task waits in the queue of the dispatcher, where a stop of the event
does not find it any more.
-/

namespace Eloth

/-- The walk event that the creature remembers, the armed timers of its walk tasks, the stops whose
closures the scheduler has not run, and the walk tasks in the queue of the dispatcher. -/
structure WalkEvents where
  eventWalk : Nat := 0
  lastEventId : Nat := 0
  armed : List Nat := []
  stops : List Nat := []
  queued : List Nat := []
  deriving DecidableEq

/-- What `getNextStep` finds. A monster that nobody watches finds no step and forgets its event. -/
inductive NextStep where
  | found
  | missing
  | idle
  deriving DecidableEq

mutual

/-- What a move, or the end of a walk, makes with the walk events of the creature. -/
inductive WalkEffect where
  | stopEventWalk
  | addEventWalk (stepSpeed ticks : Int) (firstWalk : Walk)

/-- What `checkCreatureWalk` meets: no creature that lives, or the walk delay, the next step, what
the move or `onWalkComplete` makes, and the speed, the ticks and the first step of the renewal. -/
inductive Walk where
  | gone
  | onWalk (walkDelay : Int) (next : NextStep) (effects : List WalkEffect)
      (stepSpeed ticks : Int) (firstWalk : Walk)

end

namespace WalkEvents

variable (w : WalkEvents)

/-- The call of `addEvent` with the walk task. -/
def schedule : WalkEvents :=
  { w with
    eventWalk := w.lastEventId + 1
    lastEventId := w.lastEventId + 1
    armed := w.armed ++ [w.lastEventId + 1] }

def stopEventWalk : WalkEvents :=
  if w.eventWalk ≠ 0 then { w with eventWalk := 0, stops := w.stops ++ [w.eventWalk] } else w

/-- `getNextStep` and, when there is no step, the stop of the walk. -/
def takeNextStep : NextStep → WalkEvents
  | .found => w
  | .missing => w.stopEventWalk
  | .idle => { w with eventWalk := 0 }.stopEventWalk

/-- `addEventWalk` with the step that is taken right away when there is one tick. -/
def addEventWalk (stepSpeed ticks : Int) (firstWalk : WalkEvents → WalkEvents) : WalkEvents :=
  if stepSpeed ≤ 0 then w
  else if w.eventWalk ≠ 0 then w
  else if ticks ≤ 0 then w
  else (if ticks = 1 then firstWalk w else w).schedule

/-- The end of `onWalk`. -/
def renew (stepSpeed ticks : Int) (firstWalk : WalkEvents → WalkEvents) : WalkEvents :=
  if w.eventWalk ≠ 0 then { w with eventWalk := 0 }.addEventWalk stepSpeed ticks firstWalk else w

end WalkEvents

mutual

def WalkEffect.run : WalkEffect → WalkEvents → WalkEvents
  | .stopEventWalk, w => w.stopEventWalk
  | .addEventWalk stepSpeed ticks firstWalk, w =>
    w.addEventWalk stepSpeed ticks fun w => firstWalk.run w

def WalkEffect.runAll : List WalkEffect → WalkEvents → WalkEvents
  | [], w => w
  | effect :: rest, w => WalkEffect.runAll rest (effect.run w)

/-- `Game::checkCreatureWalk`. -/
def Walk.run : Walk → WalkEvents → WalkEvents
  | .gone, w => w
  | .onWalk walkDelay next effects stepSpeed ticks firstWalk, w =>
    let w := if walkDelay ≤ 0 then WalkEffect.runAll effects (w.takeNextStep next) else w
    w.renew stepSpeed ticks fun w => firstWalk.run w

end

namespace WalkEvents

/-! ## Runs -/

inductive Event where
  | addEventWalk (stepSpeed ticks : Int) (firstWalk : Walk)
  | stopEventWalk
  | runStop
  | expire (eventId : Nat)
  | checkCreatureWalk (walk : Walk)

/-- The closures of the stops run in order, the tasks of the dispatcher too. -/
inductive Step : WalkEvents → Event → WalkEvents → Prop
  | addEventWalk {w : WalkEvents} {stepSpeed ticks : Int} {firstWalk : Walk} :
      Step w (.addEventWalk stepSpeed ticks firstWalk)
        (w.addEventWalk stepSpeed ticks firstWalk.run)
  | stopEventWalk {w : WalkEvents} : Step w .stopEventWalk w.stopEventWalk
  | runStop {w : WalkEvents} {eventId : Nat} {rest : List Nat} (hstops : w.stops = eventId :: rest) :
      Step w .runStop { w with stops := rest, armed := w.armed.filter (· ≠ eventId) }
  | expire {w : WalkEvents} {eventId : Nat} (harmed : eventId ∈ w.armed) :
      Step w (.expire eventId)
        { w with armed := w.armed.filter (· ≠ eventId), queued := w.queued ++ [eventId] }
  | checkCreatureWalk {w : WalkEvents} {walk : Walk} {eventId : Nat} {rest : List Nat}
      (hqueued : w.queued = eventId :: rest) :
      Step w (.checkCreatureWalk walk) (walk.run { w with queued := rest })

def system : Run.System WalkEvents Event where
  init w := w = {}
  step := Step

/-- The walk tasks to come: the timers that nothing stops, and the tasks in the queue. -/
def outstanding (w : WalkEvents) : List Nat :=
  w.armed.filter (fun eventId => eventId ∉ w.stops) ++ w.queued

end WalkEvents

/-! ## Walks that keep to one event -/

def WalkEffect.isStop : WalkEffect → Bool
  | .stopEventWalk => true
  | .addEventWalk .. => false

/-- No effect schedules an event: the creature remembers one at every `addEventWalk`, or cannot
walk. `free` is whether it remembers none at first. -/
def WalkEffect.Calm : Bool → List WalkEffect → Prop
  | _, [] => True
  | _, .stopEventWalk :: rest => WalkEffect.Calm true rest
  | free, .addEventWalk stepSpeed ticks _ :: rest =>
    (free = false ∨ stepSpeed ≤ 0 ∨ ticks ≤ 0) ∧ WalkEffect.Calm free rest

/-- Whether the creature remembers no event after the step of a walk. -/
def Walk.frees (free : Bool) (walkDelay : Int) (next : NextStep) (effects : List WalkEffect) : Bool :=
  free || decide (walkDelay ≤ 0) && (next ≠ .found || effects.any WalkEffect.isStop)

/-- A walk that schedules nothing but its renewal, which it takes up with an event only. -/
def Walk.Calm : Bool → Walk → Prop
  | _, .gone => True
  | free, .onWalk walkDelay next effects stepSpeed ticks firstWalk =>
    (walkDelay ≤ 0 → WalkEffect.Calm (free || next ≠ .found) effects) ∧
    (Walk.frees free walkDelay next effects = false → 0 < stepSpeed → ticks = 1 →
      firstWalk.Calm true)

namespace WalkEvents

/-- An event is stopped and a timer expires only while the other has not happened to the event, and
the walks are calm. -/
def Calm : WalkEvents → Event → Prop
  | w, .addEventWalk stepSpeed ticks firstWalk =>
    w.eventWalk = 0 → 0 < stepSpeed → ticks = 1 → firstWalk.Calm true
  | w, .stopEventWalk => w.eventWalk ∉ w.queued
  | w, .expire eventId => eventId ∉ w.stops
  | _, .checkCreatureWalk walk => walk.Calm false
  | _, .runStop => True

/-! ## One event at a time -/

structure Fresh (w : WalkEvents) : Prop where
  eventWalk : w.eventWalk ≤ w.lastEventId
  armed : ∀ eventId ∈ w.armed, eventId ≤ w.lastEventId
  stops : ∀ eventId ∈ w.stops, eventId ≤ w.lastEventId

/-- Between two steps a walk task to come is that of the event which the creature remembers. -/
structure Single (w : WalkEvents) : Prop where
  fresh : w.Fresh
  outstanding : w.outstanding = [] ∨ w.eventWalk ≠ 0 ∧ w.outstanding = [w.eventWalk]

/-- While a walk task runs there is no other one. -/
structure Alone (free : Bool) (w : WalkEvents) : Prop where
  fresh : w.Fresh
  outstanding : w.outstanding = []
  eventWalk : free = true ↔ w.eventWalk = 0

variable {w : WalkEvents} {free : Bool}

theorem Alone.single (h : w.Alone free) : w.Single := ⟨h.fresh, .inl h.outstanding⟩

theorem outstanding_eq_nil : w.outstanding = [] ↔
    (∀ eventId ∈ w.armed, eventId ∈ w.stops) ∧ w.queued = [] := by
  rw [outstanding, List.append_eq_nil_iff, List.filter_eq_nil_iff]
  simp

theorem Fresh.stopEventWalk (h : w.Fresh) : w.stopEventWalk.Fresh := by
  unfold WalkEvents.stopEventWalk
  split_ifs with hevent
  · refine ⟨by simp, h.armed, fun eventId hmem => ?_⟩
    rcases List.mem_append.mp hmem with hmem | hmem
    · exact h.stops eventId hmem
    · obtain rfl : eventId = w.eventWalk := by simpa using hmem
      exact h.eventWalk
  · exact h

theorem Alone.stopEventWalk (h : w.Alone free) : w.stopEventWalk.Alone true := by
  refine ⟨h.fresh.stopEventWalk, ?_, ?_⟩
  · have hnone := outstanding_eq_nil.mp h.outstanding
    rw [outstanding_eq_nil]
    unfold WalkEvents.stopEventWalk
    split_ifs
    · exact ⟨fun eventId hmem => List.mem_append_left _ (hnone.1 eventId hmem), hnone.2⟩
    · exact hnone
  · unfold WalkEvents.stopEventWalk
    split_ifs with hevent
    · simp
    · simpa using hevent

theorem Alone.forget (h : w.Alone free) : { w with eventWalk := 0 }.Alone true :=
  ⟨⟨Nat.zero_le _, h.fresh.armed, h.fresh.stops⟩, h.outstanding, by simp⟩

theorem Alone.takeNextStep (h : w.Alone free) (next : NextStep) :
    (w.takeNextStep next).Alone (free || next ≠ .found) := by
  cases next with
  | found => simpa [WalkEvents.takeNextStep] using h
  | missing => simpa [WalkEvents.takeNextStep] using h.stopEventWalk
  | idle => simpa [WalkEvents.takeNextStep] using h.forget.stopEventWalk

theorem Alone.schedule (h : w.Alone free) : w.schedule.Single := by
  have hnone := outstanding_eq_nil.mp h.outstanding
  have hnew : w.lastEventId + 1 ∉ w.stops := fun hmem => by
    have hle := h.fresh.stops _ hmem
    omega
  refine ⟨⟨Nat.le_refl _, fun eventId hmem => ?_, fun eventId hmem => ?_⟩, ?_⟩
  · have hle : eventId ≤ w.lastEventId ∨ eventId = w.lastEventId + 1 := by
      rcases List.mem_append.mp hmem with hmem | hmem
      · exact .inl (h.fresh.armed eventId hmem)
      · exact .inr (by simpa using hmem)
    change eventId ≤ w.lastEventId + 1
    omega
  · exact Nat.le_succ_of_le (h.fresh.stops eventId hmem)
  · have hold : w.armed.filter (fun eventId => eventId ∉ w.stops) = [] := by
      rw [List.filter_eq_nil_iff]
      intro eventId hmem
      simpa using hnone.1 eventId hmem
    refine .inr ⟨by simp [WalkEvents.schedule], ?_⟩
    change (w.armed ++ [w.lastEventId + 1]).filter (fun eventId => eventId ∉ w.stops) ++ w.queued =
      [w.lastEventId + 1]
    rw [List.filter_append, hold, hnone.2]
    simp [hnew]

theorem Alone.addEventWalk (h : w.Alone true) {stepSpeed ticks : Int}
    {firstWalk : WalkEvents → WalkEvents}
    (hfirst : 0 < stepSpeed → ticks = 1 → (firstWalk w).Alone true) :
    (w.addEventWalk stepSpeed ticks firstWalk).Single := by
  unfold WalkEvents.addEventWalk
  split_ifs with hspeed hevent hticks hone
  · exact h.single
  · exact h.single
  · exact h.single
  · exact (hfirst (by omega) hone).schedule
  · exact h.schedule

end WalkEvents

theorem WalkEffect.runAll_calm {free : Bool} (effects : List WalkEffect) {w : WalkEvents}
    (h : w.Alone free) (hcalm : WalkEffect.Calm free effects) :
    (WalkEffect.runAll effects w).Alone (free || effects.any WalkEffect.isStop) := by
  induction effects generalizing free w with
  | nil => simpa [WalkEffect.runAll] using h
  | cons effect rest ih =>
    cases effect with
    | stopEventWalk =>
      have hrest := ih h.stopEventWalk hcalm
      simpa [WalkEffect.runAll, WalkEffect.run, WalkEffect.isStop] using hrest
    | addEventWalk stepSpeed ticks firstWalk =>
      obtain ⟨hquiet, hcalm⟩ := hcalm
      have hsame : w.addEventWalk stepSpeed ticks (fun w => firstWalk.run w) = w := by
        rcases hquiet with hquiet | hquiet | hquiet
        · have hevent : w.eventWalk ≠ 0 := fun hzero => by
            simpa [hquiet] using h.eventWalk.mpr hzero
          simp [WalkEvents.addEventWalk, hevent]
        · simp [WalkEvents.addEventWalk, hquiet]
        · simp [WalkEvents.addEventWalk, hquiet]
      have hrest := ih h hcalm
      simpa [WalkEffect.runAll, WalkEffect.run, WalkEffect.isStop, hsame] using hrest

/-- A calm walk leaves one task at most, and none if the creature remembered no event. -/
theorem Walk.run_calm : ∀ (walk : Walk) {free : Bool} {w : WalkEvents}, w.Alone free →
    walk.Calm free → (walk.run w).Single ∧ (free = true → (walk.run w).Alone true)
  | .gone, free, w, h, _ => ⟨h.single, fun hfree => by simpa [Walk.run, hfree] using h⟩
  | .onWalk walkDelay next effects stepSpeed ticks firstWalk, free, w, h, hcalm => by
    obtain ⟨heffects, hfirst⟩ := hcalm
    have hstep : (if walkDelay ≤ 0 then WalkEffect.runAll effects (w.takeNextStep next)
        else w).Alone (Walk.frees free walkDelay next effects) := by
      split_ifs with hdelay
      · have hrun := WalkEffect.runAll_calm effects (h.takeNextStep next) (heffects hdelay)
        simpa [Walk.frees, hdelay, Bool.or_assoc] using hrun
      · simpa [Walk.frees, hdelay] using h
    have hrenew {stepped : WalkEvents}
        (hstepped : stepped.Alone (Walk.frees free walkDelay next effects)) :
        (stepped.renew stepSpeed ticks fun w => firstWalk.run w).Single ∧
        (free = true → (stepped.renew stepSpeed ticks fun w => firstWalk.run w).Alone true) := by
      unfold WalkEvents.renew
      cases hfrees : Walk.frees free walkDelay next effects with
      | true =>
        rw [hfrees] at hstepped
        rw [if_neg (by simpa using hstepped.eventWalk.mp rfl)]
        exact ⟨hstepped.single, fun _ => hstepped⟩
      | false =>
        rw [hfrees] at hstepped
        have hfree : free = false := by
          rw [Walk.frees, Bool.or_eq_false_iff] at hfrees
          exact hfrees.1
        rw [if_pos fun hzero => by simpa using hstepped.eventWalk.mpr hzero]
        refine ⟨hstepped.forget.addEventWalk fun hspeed hticks => ?_, by simp [hfree]⟩
        exact (firstWalk.run_calm hstepped.forget (hfirst hfrees hspeed hticks)).2 rfl
    simp only [Walk.run]
    exact hrenew hstep

namespace WalkEvents

theorem Single.step {w w' : WalkEvents} {e : Event} (h : w.Single) (hcalm : Calm w e)
    (hstep : Step w e w') : w'.Single := by
  cases hstep with
  | @addEventWalk stepSpeed ticks firstWalk =>
    by_cases hevent : w.eventWalk = 0
    · have halone : w.Alone true :=
        ⟨h.fresh, h.outstanding.resolve_right fun hone => hone.1 hevent, by simp [hevent]⟩
      exact halone.addEventWalk fun hspeed hticks =>
        (firstWalk.run_calm halone (hcalm hevent hspeed hticks)).2 rfl
    · have hsame : w.addEventWalk stepSpeed ticks firstWalk.run = w := by
        simp [addEventWalk, hevent]
      rw [hsame]
      exact h
  | stopEventWalk =>
    refine ⟨h.fresh.stopEventWalk, .inl ?_⟩
    rw [outstanding_eq_nil, WalkEvents.stopEventWalk]
    rcases h.outstanding with hnone | ⟨hevent, hone⟩
    · obtain ⟨hstops, hqueued⟩ := outstanding_eq_nil.mp hnone
      split_ifs
      · exact ⟨fun eventId hmem => List.mem_append_left _ (hstops eventId hmem), hqueued⟩
      · exact ⟨hstops, hqueued⟩
    · have hall (eventId : Nat) (hmem : eventId ∈ w.outstanding) : eventId = w.eventWalk := by
        rw [hone] at hmem
        simpa using hmem
      rw [if_pos hevent]
      refine ⟨fun eventId hmem => ?_, List.eq_nil_iff_forall_not_mem.mpr fun eventId hmem => ?_⟩
      · by_cases hstops : eventId ∈ w.stops
        · exact List.mem_append_left _ hstops
        · have hmem' : eventId ∈ w.outstanding :=
            List.mem_append_left _ (List.mem_filter.mpr ⟨hmem, by simpa using hstops⟩)
          simp [hall eventId hmem']
      · obtain rfl := hall eventId (List.mem_append_right _ hmem)
        exact hcalm hmem
  | @runStop eventId rest hstops =>
    have hsame : ({ w with stops := rest, armed := w.armed.filter (· ≠ eventId) } :
        WalkEvents).outstanding = w.outstanding := by
      rw [WalkEvents.outstanding, WalkEvents.outstanding, List.filter_filter, hstops]
      congr 1
      refine List.filter_congr fun id hmem => ?_
      simp [Bool.and_comm]
    refine ⟨⟨h.fresh.eventWalk, fun id hmem => ?_, fun id hmem => ?_⟩, ?_⟩
    · exact h.fresh.armed id (List.mem_of_mem_filter hmem)
    · exact h.fresh.stops id (by rw [hstops]; exact List.mem_cons_of_mem _ hmem)
    · rw [hsame]
      exact h.outstanding
  | @expire eventId harmed =>
    have hmem : eventId ∈ w.armed.filter (fun eventId => eventId ∉ w.stops) :=
      List.mem_filter.mpr ⟨harmed, decide_eq_true hcalm⟩
    rcases h.outstanding with hnone | ⟨hevent, hone⟩
    · rw [WalkEvents.outstanding, List.append_eq_nil_iff] at hnone
      rw [hnone.1] at hmem
      cases hmem
    · obtain ⟨hfilter, hqueued⟩ : w.armed.filter (fun eventId => eventId ∉ w.stops) =
          [w.eventWalk] ∧ w.queued = [] := by
        rw [WalkEvents.outstanding, List.append_eq_singleton_iff] at hone
        refine hone.resolve_left fun hnot => ?_
        rw [hnot.1] at hmem
        cases hmem
      obtain rfl : eventId = w.eventWalk := by
        rw [hfilter] at hmem
        exact List.mem_singleton.mp hmem
      refine ⟨⟨h.fresh.eventWalk, fun id hid => ?_, h.fresh.stops⟩, .inr ⟨hevent, ?_⟩⟩
      · exact h.fresh.armed id (List.mem_of_mem_filter hid)
      · rw [WalkEvents.outstanding, List.filter_comm, hfilter, hqueued]
        simp
  | @checkCreatureWalk walk eventId rest hqueued =>
    have halone : { w with queued := rest }.Alone false := by
      rcases h.outstanding with hnone | ⟨hevent, hone⟩
      · rw [WalkEvents.outstanding, List.append_eq_nil_iff] at hnone
        simp [hqueued] at hnone
      · refine ⟨⟨h.fresh.eventWalk, h.fresh.armed, h.fresh.stops⟩, ?_, by simpa using hevent⟩
        rw [WalkEvents.outstanding, hqueued, List.append_eq_singleton_iff] at hone
        obtain ⟨hstops, -, hrest⟩ : (∀ id ∈ w.armed, id ∈ w.stops) ∧ eventId = w.eventWalk ∧
            rest = [] := by simpa using hone
        exact outstanding_eq_nil.mpr ⟨hstops, hrest⟩
    exact (walk.run_calm halone hcalm).1

/-- In a run whose steps are all calm at most one walk task of the creature is to come. -/
theorem outstanding_le_one {w : WalkEvents} (h : Run.ReachableBy system Calm w) :
    w.outstanding.length ≤ 1 := by
  have hsingle : w.Single := by
    refine h.invariant (I := Single) ?_ fun w e w' hw hc hs => hw.step hc hs
    rintro w rfl
    exact ⟨⟨Nat.le_refl _, by simp, by simp⟩, .inl rfl⟩
  rcases hsingle.outstanding with hnone | ⟨-, hone⟩
  · simp [hnone]
  · simp [hone]

/-- The start of a walk of several steps. -/
def walking : WalkEvents := ({} : WalkEvents).addEventWalk 220 500 Walk.gone.run

theorem reachable_walking : Run.ReachableBy system Calm walking := by
  have hstart : Run.ReachableBy system Calm {} := .init rfl
  exact hstart.step (i := .addEventWalk 220 500 .gone) (fun _ _ _ => trivial) Step.addEventWalk

theorem outstanding_walking : walking.outstanding = [1] ∧ walking.outstanding.length ≤ 1 :=
  ⟨by decide, outstanding_le_one reachable_walking⟩

/-- The task of event 1 waits in the queue while the event is stopped and a new walk is started. It
then renews the event of that walk, and both tasks go on. -/
theorem two_walk_chains :
    ¬ ∀ w : WalkEvents, Run.Reachable system w → w.outstanding.length ≤ 1 := by
  intro hall
  let expired : WalkEvents := { eventWalk := 1, lastEventId := 1, queued := [1] }
  have hexpired : Run.Reachable system expired :=
    reachable_walking.reachable.step' (i := .expire 1)
      (Step.expire (by decide : 1 ∈ walking.armed))
  have hstopped : Run.Reachable system expired.stopEventWalk :=
    hexpired.step' (i := .stopEventWalk) Step.stopEventWalk
  have hstarted : Run.Reachable system
      (expired.stopEventWalk.addEventWalk 220 500 Walk.gone.run) :=
    hstopped.step' (i := .addEventWalk 220 500 .gone) Step.addEventWalk
  let walk : Walk := .onWalk 0 .found [] 220 500 .gone
  have hrenewed : Run.Reachable system
      (walk.run { expired.stopEventWalk.addEventWalk 220 500 Walk.gone.run with queued := [] }) :=
    hstarted.step' (i := .checkCreatureWalk walk) (Step.checkCreatureWalk (by rfl))
  have hle := hall _ hrenewed
  revert hle
  decide

end WalkEvents

end Eloth
