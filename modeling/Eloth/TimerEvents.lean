import Eloth.LuaRegistry
import Eloth.ScheduledTask

/-!
# The timer events of the scripts

`addEvent` of Lua keeps the callback and its parameters in the registry and schedules a task that
looks the event up when the dispatcher runs it. `stopEvent` takes the event away, which may come
before or after the timer has expired. Ids are taken not to wrap.
-/

namespace Eloth

structure LuaTimerEventDesc where
  function : LuaRef
  parameters : List LuaRef
  eventId : Nat

/-- What the tasks of the scheduler call. -/
inductive TimerFunc where
  | executeTimerEvent (eventIndex : Nat)
  | other
  deriving DecidableEq

/-- The scheduler, how many of its tasks the dispatcher has run, and the timer events. The one that
runs is `executing`. What the scripts asked for, what was called and what was stopped are kept. -/
structure LuaTimers (V : Type) where
  scheduler : Scheduler TimerFunc := {}
  ran : Nat := 0
  registry : LuaRegistry V := []
  timerEvents : List (Nat × LuaTimerEventDesc) := []
  lastEventTimerId : Nat := 1
  executing : Option LuaTimerEventDesc := none
  closed : Bool := false
  asked : List (Nat × V × List (LuaValue V)) := []
  called : List (Nat × LuaValue V × List (LuaValue V)) := []
  stopped : List Nat := []

namespace LuaTimers

variable {V : Type} (picker : LuaRefPicker) (w : LuaTimers V)

/-- `createSchedulerTask` with the least delay. -/
def timerTask (eventIndex delay : Nat) : SchedulerTask TimerFunc where
  func := .executeTimerEvent eventIndex
  delay := max 100 delay

/-- The parameters are taken off the stack, the last one first. -/
def luaAddEvent (callback : V) (delay : Nat) (parameters : List (LuaValue V)) : LuaTimers V :=
  let (registry, refs) := w.registry.luaL_refs picker parameters.reverse
  let (registry, function) := registry.luaL_ref picker (some callback)
  { w with
    registry := registry
    scheduler := w.scheduler.addEvent (timerTask w.lastEventTimerId delay)
    timerEvents := w.timerEvents ++
      [(w.lastEventTimerId, ⟨function, refs, w.scheduler.lastEventId + 1⟩)]
    lastEventTimerId := w.lastEventTimerId + 1
    asked := w.asked ++ [(w.lastEventTimerId, callback, parameters)] }

def refs (desc : LuaTimerEventDesc) : List LuaRef := desc.function :: desc.parameters

def unrefs (registry : LuaRegistry V) (desc : LuaTimerEventDesc) : LuaRegistry V :=
  (refs desc).foldl LuaRegistry.luaL_unref registry

def find (eventIndex : Nat) : Option LuaTimerEventDesc :=
  (w.timerEvents.find? (·.1 = eventIndex)).map Prod.snd

def erase (eventIndex : Nat) : LuaTimers V :=
  { w with timerEvents := w.timerEvents.filter (·.1 ≠ eventIndex) }

def luaStopEvent (eventIndex : Nat) : LuaTimers V :=
  match w.find eventIndex with
  | none => w
  | some desc =>
    { w.erase eventIndex with
      scheduler := w.scheduler.stopEvent desc.eventId
      registry := unrefs w.registry desc
      stopped := w.stopped ++ [eventIndex] }

/-- Up to the return of the callback. It is not called when there is no room on the script
stack. -/
def executeTimerEvent (eventIndex : Nat) (reserveScriptEnv : Bool) : LuaTimers V :=
  match w.find eventIndex with
  | none => w
  | some desc =>
    { w.erase eventIndex with
      executing := some desc
      called :=
        if reserveScriptEnv then
          w.called ++ [(eventIndex, w.registry.lua_rawgeti desc.function,
            desc.parameters.reverse.map w.registry.lua_rawgeti)]
        else w.called }

/-- The rest of it. -/
def freeResources (desc : LuaTimerEventDesc) : LuaTimers V :=
  { w with registry := unrefs w.registry desc, executing := none }

def runTask (task : SchedulerTask TimerFunc) (reserveScriptEnv : Bool) : LuaTimers V :=
  let w := { w with ran := w.ran + 1 }
  match task.func with
  | .executeTimerEvent eventIndex => w.executeTimerEvent eventIndex reserveScriptEnv
  | .other => w

def closeState : LuaTimers V :=
  { w with
    registry := w.timerEvents.foldl (fun registry e => unrefs registry e.2) w.registry
    timerEvents := []
    closed := true }

end LuaTimers

inductive TimerOp (V : Type) where
  | addEvent (callback : V) (delay : Nat) (parameters : List (LuaValue V))
  | stopEvent (eventIndex : Nat)
  | scheduler (e : Scheduler.Event TimerFunc)
  | addOther (delay : Nat)
  | stopOther (eventId : Nat)
  | runTask (reserveScriptEnv : Bool)
  | freeResources
  | closeState

namespace LuaTimers

variable {V : Type}

/-- Scripts run also while an event is executed. The other tasks of the scheduler are stopped by
those who added them, with ids that they were given. -/
inductive Step (picker : LuaRefPicker) : LuaTimers V → TimerOp V → LuaTimers V → Prop
  | addEvent {w : LuaTimers V} {callback : V} {delay : Nat} {parameters : List (LuaValue V)}
      (hopen : w.closed = false) :
      Step picker w (.addEvent callback delay parameters)
        (w.luaAddEvent picker callback delay parameters)
  | stopEvent {w : LuaTimers V} {eventIndex : Nat} (hopen : w.closed = false) :
      Step picker w (.stopEvent eventIndex) (w.luaStopEvent eventIndex)
  | scheduler {w : LuaTimers V} {e : Scheduler.Event TimerFunc} {scheduler : Scheduler TimerFunc}
      (hinternal : e.Internal) (hstep : Scheduler.Step w.scheduler e scheduler) :
      Step picker w (.scheduler e) { w with scheduler := scheduler }
  | addOther {w : LuaTimers V} {delay : Nat} :
      Step picker w (.addOther delay)
        { w with scheduler := w.scheduler.addEvent ⟨.other, delay, 0⟩ }
  | stopOther {w : LuaTimers V} {eventId : Nat}
      (hadded : w.scheduler.Added eventId)
      (hother : ∀ e ∈ w.timerEvents, e.2.eventId ≠ eventId) :
      Step picker w (.stopOther eventId)
        { w with scheduler := w.scheduler.stopEvent eventId }
  | runTask {w : LuaTimers V} {task : SchedulerTask TimerFunc} {reserveScriptEnv : Bool}
      (hidle : w.executing = none) (hnext : w.scheduler.dispatched[w.ran]? = some task) :
      Step picker w (.runTask reserveScriptEnv) (w.runTask task reserveScriptEnv)
  | freeResources {w : LuaTimers V} {desc : LuaTimerEventDesc}
      (hexecuting : w.executing = some desc) :
      Step picker w .freeResources (w.freeResources desc)
  | closeState {w : LuaTimers V} (hidle : w.executing = none) (hopen : w.closed = false) :
      Step picker w .closeState w.closeState

def system (picker : LuaRefPicker) (V : Type) : Run.System (LuaTimers V) (TimerOp V) where
  init w := w = {}
  step := Step picker

end LuaTimers

namespace LuaTimers

variable {V : Type} {picker : LuaRefPicker} {w w' : LuaTimers V} {op : TimerOp V}
  {eventIndex : Nat} {desc : LuaTimerEventDesc}

/-! ## The entries of the events -/

def descRefs (desc : LuaTimerEventDesc) : List Nat := (refs desc).reduceOption

/-- The references that are to be given back. -/
def liveRefs (w : LuaTimers V) : List Nat :=
  w.timerEvents.flatMap (fun e => descRefs e.2) ++ w.executing.elim [] descRefs

/-- The ids that were given to scripts and are pending, called or stopped. -/
def ids (w : LuaTimers V) : List Nat :=
  w.timerEvents.map Prod.fst ++ (w.called.map Prod.fst ++ w.stopped)

theorem perm_cons_filter {l : List (Nat × LuaTimerEventDesc)} (hnodup : (l.map Prod.fst).Nodup)
    (hfind : (l.find? (·.1 = eventIndex)).map Prod.snd = some desc) :
    l.Perm ((eventIndex, desc) :: l.filter (·.1 ≠ eventIndex)) := by
  induction l with
  | nil => cases hfind
  | cons e l ih =>
    obtain ⟨hnew, hnodup⟩ := List.nodup_cons.mp hnodup
    by_cases he : e.1 = eventIndex
    · obtain rfl : e.2 = desc := by simpa [he] using hfind
      have hrest : l.filter (·.1 ≠ eventIndex) = l := by
        rw [List.filter_eq_self]
        intro e' he'
        have hne : e'.1 ≠ eventIndex := fun h =>
          hnew (List.mem_map.mpr ⟨e', he', h.trans he.symm⟩)
        simpa using hne
      subst he
      rw [List.filter_cons_of_neg (by simp), hrest]
    · rw [List.filter_cons_of_pos (by simpa using he)]
      have hfind' : (l.find? (·.1 = eventIndex)).map Prod.snd = some desc := by
        simpa [List.find?_cons, he] using hfind
      exact ((ih hnodup hfind').cons e).trans (List.Perm.swap _ _ _)

/-- What the script asked for is in the registry. -/
def Asks (w : LuaTimers V) (e : Nat × LuaTimerEventDesc) : Prop :=
  ∃ a ∈ w.asked, a.1 = e.1 ∧ w.registry.lua_rawgeti e.2.function = some a.2.1 ∧
    e.2.parameters.reverse.map w.registry.lua_rawgeti = a.2.2

structure Sound (w : LuaTimers V) : Prop where
  accounted : w.scheduler.Accounted
  cancels : ∀ i, .cancel i ∈ w.scheduler.posted → i ≤ w.scheduler.lastEventId
  ran_le : w.ran ≤ w.scheduler.dispatched.length
  eventIds : (w.timerEvents.map (·.2.eventId)).Nodup
  underway : ∀ e ∈ w.timerEvents,
    w.scheduler.Underway w.ran e.2.eventId (.executeTimerEvent e.1)
  nodup : w.ids.Nodup
  below : ∀ i ∈ w.ids, i < w.lastEventTimerId
  askedIds : (w.asked.map Prod.fst).Nodup ∧ ∀ a ∈ w.asked, a.1 < w.lastEventTimerId
  keys : w.registry.keys.Nodup
  owned : w.registry.keys.Perm w.liveRefs
  asks : ∀ e ∈ w.timerEvents, w.Asks e
  called : ∀ e ∈ w.called, ∃ a ∈ w.asked, a.1 = e.1 ∧ e.2 = (some a.2.1, a.2.2)

theorem Sound.mem_keys (h : w.Sound) {e : Nat × LuaTimerEventDesc} (he : e ∈ w.timerEvents)
    {r : Nat} (hr : some r ∈ refs e.2) : r ∈ w.registry.keys := by
  rw [h.owned.mem_iff]
  refine List.mem_append_left _ (List.mem_flatMap.mpr ⟨e, he, ?_⟩)
  exact List.reduceOption_mem_iff.mpr hr

/-- An event is asked for as before when the registry gives the same for its references. -/
theorem Asks.congr {e : Nat × LuaTimerEventDesc} (h : w.Asks e) (hasked : w.asked ⊆ w'.asked)
    (hsame : ∀ r ∈ refs e.2, w'.registry.lua_rawgeti r = w.registry.lua_rawgeti r) :
    w'.Asks e := by
  obtain ⟨a, ha, hid, hfunction, hparameters⟩ := h
  refine ⟨a, hasked ha, hid, ?_, ?_⟩
  · rw [hsame _ List.mem_cons_self]
    exact hfunction
  · rw [← hparameters]
    refine List.map_congr_left fun r hr => hsame r ?_
    exact List.mem_cons_of_mem _ (List.mem_reverse.mp hr)

/-! ## The steps -/

theorem Sound.luaAddEvent (h : w.Sound) (callback : V) (delay : Nat)
    (parameters : List (LuaValue V)) :
    (w.luaAddEvent picker callback delay parameters).Sound := by
  obtain ⟨hparams, hvalues⟩ := LuaRegistry.luaL_refs_spec picker w.registry parameters.reverse
  unfold LuaTimers.luaAddEvent
  generalize LuaRegistry.luaL_refs picker w.registry parameters.reverse = taken at hparams hvalues ⊢
  obtain ⟨registry, params⟩ := taken
  dsimp only at hparams hvalues ⊢
  have hfunction := LuaRegistry.luaL_ref_grows picker registry (some callback)
  have hcallback := LuaRegistry.lua_rawgeti_luaL_ref picker registry (some callback)
  generalize LuaRegistry.luaL_ref picker registry (some callback) = last at hfunction hcallback ⊢
  obtain ⟨registry', function⟩ := last
  dsimp only at hfunction hcallback ⊢
  have hgrows := hparams.trans hfunction
  have hnew : (timerTask w.lastEventTimerId delay).eventId = 0 := rfl
  obtain ⟨hdispatched, hlast, hcancel⟩ := Scheduler.addEvent_frame (s := w.scheduler) hnew
  have hfresh : w.lastEventTimerId ∉ w.ids := fun hmem => absurd (h.below _ hmem) (Nat.lt_irrefl _)
  refine ⟨h.accounted.addEvent hnew, fun i hi => ?_, ?_, ?_, ?_, ?_, ?_, ⟨?_, ?_⟩,
    hgrows.nodup h.keys, ?_, ?_, ?_⟩
  · rw [hlast]
    exact Nat.le_succ_of_le (h.cancels i (hcancel i hi))
  · rw [hdispatched]
    exact h.ran_le
  · rw [List.map_append, List.map_singleton]
    refine (List.perm_append_singleton _ _).nodup_iff.mpr (List.nodup_cons.mpr ⟨fun hmem => ?_,
      h.eventIds⟩)
    obtain ⟨e, he, heq⟩ := List.mem_map.mp hmem
    have hle := (h.underway e he).added.2
    dsimp only at heq
    omega
  · intro e he
    obtain hold | hlater := List.mem_append.mp he
    · exact (h.underway e hold).addEvent hnew
    · rw [List.mem_singleton.mp hlater]
      exact Scheduler.underway_addEvent h.accounted h.cancels hnew w.ran
  · have hperm : (w.lastEventTimerId :: w.ids).Perm ((w.timerEvents.map Prod.fst ++
        [w.lastEventTimerId]) ++ (w.called.map Prod.fst ++ w.stopped)) := by
      rw [List.append_assoc]
      exact List.perm_middle.symm
    have hnodup := hperm.nodup_iff.mp (List.nodup_cons.mpr ⟨hfresh, h.nodup⟩)
    simpa [ids] using hnodup
  · intro i hi
    have hi : i ∈ w.ids ∨ i = w.lastEventTimerId := by
      simp only [ids, List.map_append, List.map_singleton, List.mem_append,
        List.mem_singleton] at hi ⊢
      tauto
    obtain hold | rfl := hi
    · exact Nat.lt_succ_of_lt (h.below i hold)
    · exact Nat.lt_succ_self _
  · rw [List.map_append, List.map_singleton]
    refine (List.perm_append_singleton _ _).nodup_iff.mpr (List.nodup_cons.mpr ⟨fun hmem => ?_,
      h.askedIds.1⟩)
    obtain ⟨a, ha, heq⟩ := List.mem_map.mp hmem
    exact absurd (h.askedIds.2 a ha) (by simp [heq])
  · intro a ha
    obtain hold | hnew := List.mem_append.mp ha
    · exact Nat.lt_succ_of_lt (h.askedIds.2 a hold)
    · rw [List.mem_singleton.mp hnew]
      exact Nat.lt_succ_self _
  · rw [hgrows.keys, List.perm_iff_count]
    intro r
    have howned := h.owned.count_eq r
    have hrefs := ((List.perm_append_singleton function params).filterMap id).count_eq r
    simp only [liveRefs, List.flatMap_append, List.flatMap_cons, List.flatMap_nil, descRefs, refs,
      List.reduceOption, List.count_append, List.append_nil] at howned hrefs ⊢
    omega
  · intro e he
    obtain hold | hnew := List.mem_append.mp he
    · refine (h.asks e hold).congr (List.subset_append_left _ _) fun r hr => ?_
      exact hgrows.lua_rawgeti fun k hk => h.mem_keys hold (hk ▸ hr)
    · rw [List.mem_singleton.mp hnew]
      refine ⟨_, List.mem_append_right _ List.mem_cons_self, rfl, hcallback, ?_⟩
      have hsame : params.map registry'.lua_rawgeti = params.map registry.lua_rawgeti :=
        List.map_congr_left fun r hr => hfunction.lua_rawgeti fun k hk =>
          hparams.mem_keys (hk ▸ hr)
      dsimp only
      rw [List.map_reverse, hsame, hvalues, List.reverse_reverse]
  · intro e he
    obtain ⟨a, ha, hrest⟩ := h.called e he
    exact ⟨a, List.mem_append_left _ ha, hrest⟩

/-- What the event that a lookup finds leaves behind. -/
theorem Sound.found (h : w.Sound) (hfind : w.find eventIndex = some desc) :
    w.timerEvents.Perm ((eventIndex, desc) :: (w.erase eventIndex).timerEvents) ∧
    w.registry.keys.Perm (descRefs desc ++ (w.erase eventIndex).liveRefs) ∧
    (∀ e ∈ (w.erase eventIndex).timerEvents, e ∈ w.timerEvents ∧ e.2.eventId ≠ desc.eventId ∧
      ∀ r, some r ∈ refs e.2 → some r ∉ refs desc) ∧
    ((w.erase eventIndex).timerEvents.map (·.2.eventId)).Nodup := by
  have hids := (List.nodup_append.mp h.nodup).1
  have hperm : w.timerEvents.Perm ((eventIndex, desc) :: (w.erase eventIndex).timerEvents) :=
    perm_cons_filter hids hfind
  have hlive : w.liveRefs.Perm (descRefs desc ++ (w.erase eventIndex).liveRefs) := by
    have hmap := (hperm.flatMap_right fun e => descRefs e.2).append_right
      (w.executing.elim [] descRefs)
    rwa [List.flatMap_cons, List.append_assoc] at hmap
  have hkeys := h.owned.trans hlive
  have hdisjoint := (List.nodup_append.mp (hkeys.nodup_iff.mp h.keys)).2.2
  have heventIds := List.nodup_cons.mp ((hperm.map (·.2.eventId)).nodup_iff.mp h.eventIds)
  refine ⟨hperm, hkeys, fun e he => ⟨List.mem_of_mem_filter he, fun heq => ?_,
    fun r hr hmine => ?_⟩, heventIds.2⟩
  · exact heventIds.1 (List.mem_map.mpr ⟨e, he, heq⟩)
  · refine hdisjoint r (List.reduceOption_mem_iff.mpr hmine) r ?_ rfl
    exact List.mem_append_left _ (List.mem_flatMap.mpr ⟨e, he, List.reduceOption_mem_iff.mpr hr⟩)

theorem lua_rawgeti_unrefs {registry : LuaRegistry V} {r : LuaRef}
    (h : ∀ k, r = some k → some k ∉ refs desc) :
    (unrefs registry desc).lua_rawgeti r = registry.lua_rawgeti r := by
  cases r with
  | none => rfl
  | some k => exact LuaRegistry.lua_rawgeti_unrefs registry (h k rfl)

theorem unrefs_perm {registry : LuaRegistry V} {rest : List Nat} (hnodup : registry.keys.Nodup)
    (hkeys : registry.keys.Perm (descRefs desc ++ rest)) :
    (unrefs registry desc).keys.Perm rest := LuaRegistry.unrefs_perm hnodup hkeys

theorem keys_unrefs_nodup {registry : LuaRegistry V} (h : registry.keys.Nodup)
    (desc : LuaTimerEventDesc) : (unrefs registry desc).keys.Nodup := by
  rw [unrefs, LuaRegistry.keys_unrefs]
  exact h.filter _

theorem Sound.luaStopEvent (h : w.Sound) (eventIndex : Nat) :
    (w.luaStopEvent eventIndex).Sound := by
  unfold LuaTimers.luaStopEvent
  split
  next => exact h
  next desc hfind =>
    obtain ⟨hperm, hkeys, hothers, heventIds⟩ := h.found hfind
    obtain ⟨hdispatched, hlast, hcancel⟩ :=
      Scheduler.stopEvent_frame (s := w.scheduler) desc.eventId
    have hmine : (eventIndex, desc) ∈ w.timerEvents := hperm.mem_iff.mpr List.mem_cons_self
    have hids : w.ids.Perm ((w.erase eventIndex).timerEvents.map Prod.fst ++
        (w.called.map Prod.fst ++ (w.stopped ++ [eventIndex]))) := by
      have hmap := (hperm.map Prod.fst).append_right (w.called.map Prod.fst ++ w.stopped)
      refine hmap.trans ?_
      rw [← List.append_assoc (w.called.map Prod.fst),
        ← List.append_assoc ((w.erase eventIndex).timerEvents.map Prod.fst)]
      exact (List.perm_append_singleton eventIndex _).symm
    refine ⟨h.accounted.stopEvent _, fun i hi => ?_, ?_, heventIds, fun e he => ?_,
      hids.nodup_iff.mp h.nodup, fun i hi => h.below i (hids.mem_iff.mpr hi), h.askedIds,
      keys_unrefs_nodup h.keys desc, unrefs_perm h.keys hkeys, fun e he => ?_,
      h.called⟩
    · rw [hlast]
      obtain hold | rfl := hcancel i hi
      · exact h.cancels i hold
      · exact (h.underway _ hmine).added.2
    · rw [hdispatched]
      exact h.ran_le
    · obtain ⟨hold, hne, -⟩ := hothers e he
      exact (h.underway e hold).stopEvent (Ne.symm hne)
    · obtain ⟨hold, -, hrefs⟩ := hothers e he
      refine (h.asks e hold).congr (List.Subset.refl _) fun r hr => ?_
      exact lua_rawgeti_unrefs fun k hk => hrefs k (hk ▸ hr)

theorem not_mem_of_find_eq_none (h : w.find eventIndex = none) {e : Nat × LuaTimerEventDesc}
    (he : e ∈ w.timerEvents) : e.1 ≠ eventIndex := by
  simp only [find, Option.map_eq_none_iff, List.find?_eq_none] at h
  simpa using h e he

theorem Sound.runTask (h : w.Sound) (hidle : w.executing = none) {task : SchedulerTask TimerFunc}
    (hnext : w.scheduler.dispatched[w.ran]? = some task) (reserveScriptEnv : Bool) :
    (w.runTask task reserveScriptEnv).Sound := by
  have hran : w.ran + 1 ≤ w.scheduler.dispatched.length :=
    (List.getElem?_eq_some_iff.mp hnext).1
  have hskip (hne : ∀ e ∈ w.timerEvents, task.func ≠ .executeTimerEvent e.1) :
      Sound { w with ran := w.ran + 1 } :=
    ⟨h.accounted, h.cancels, hran, h.eventIds,
      fun e he => (h.underway e he).next_task hnext (hne e he), h.nodup, h.below, h.askedIds,
      h.keys, h.owned, h.asks, h.called⟩
  unfold LuaTimers.runTask
  split
  next eventIndex hfunc =>
    have hsame : LuaTimers.find { w with ran := w.ran + 1 } eventIndex = w.find eventIndex := rfl
    rw [LuaTimers.executeTimerEvent, hsame]
    cases hfind : w.find eventIndex with
    | none =>
      refine hskip fun e he heq => not_mem_of_find_eq_none hfind he ?_
      rw [hfunc] at heq
      exact (TimerFunc.executeTimerEvent.inj heq).symm
    | some desc =>
      obtain ⟨hperm, hkeys, hothers, heventIds⟩ := h.found hfind
      have hmine : (eventIndex, desc) ∈ w.timerEvents := hperm.mem_iff.mpr List.mem_cons_self
      have hids : w.ids.Perm (eventIndex :: (w.erase eventIndex).ids) :=
        (hperm.map Prod.fst).append_right (w.called.map Prod.fst ++ w.stopped)
      have hrest {e : Nat × LuaTimerEventDesc} (he : e ∈ (w.erase eventIndex).timerEvents) :
          task.func ≠ .executeTimerEvent e.1 := by
        rw [hfunc]
        intro heq
        have hne : e.1 ≠ eventIndex := by simpa using List.of_mem_filter he
        exact hne (TimerFunc.executeTimerEvent.inj heq).symm
      have hnodup := List.nodup_cons.mp (hids.nodup_iff.mp h.nodup)
      have hcalled : (eventIndex :: (w.erase eventIndex).ids).Perm
          ((w.erase eventIndex).timerEvents.map Prod.fst ++
            (w.called.map Prod.fst ++ [eventIndex] ++ w.stopped)) := by
        rw [List.perm_iff_count]
        intro i
        simp only [ids, LuaTimers.erase, List.count_append, List.count_cons, List.count_nil]
        omega
      refine ⟨h.accounted, h.cancels, hran, heventIds, fun e he =>
        (h.underway e (hothers e he).1).next_task hnext (hrest he), ?_, fun i hi => ?_, h.askedIds,
        h.keys, ?_, fun e he => h.asks e (hothers e he).1, fun e he => ?_⟩
      · cases reserveScriptEnv with
        | true =>
          have hmore := hcalled.nodup_iff.mp (hids.nodup_iff.mp h.nodup)
          simpa [ids, LuaTimers.erase] using hmore
        | false => exact hnodup.2
      · refine h.below i (hids.mem_iff.mpr ?_)
        cases reserveScriptEnv with
        | true => exact hcalled.mem_iff.mpr (by simpa [ids, LuaTimers.erase] using hi)
        | false => exact List.mem_cons_of_mem _ hi
      · rw [liveRefs, LuaTimers.erase, hidle, Option.elim_none, List.append_nil] at hkeys
        exact hkeys.trans List.perm_append_comm
      · cases reserveScriptEnv with
        | true =>
          obtain hold | hnew := List.mem_append.mp he
          · exact h.called e hold
          · obtain ⟨a, ha, hid, hfunction, hparameters⟩ := h.asks _ hmine
            rw [List.mem_singleton.mp hnew]
            exact ⟨a, ha, hid, Prod.ext hfunction hparameters⟩
        | false => exact h.called e he
  next hfunc =>
    refine hskip fun e _ heq => ?_
    rw [hfunc] at heq
    cases heq

theorem Sound.freeResources (h : w.Sound) (hexecuting : w.executing = some desc) :
    (w.freeResources desc).Sound := by
  have hkeys : w.registry.keys.Perm
      (descRefs desc ++ w.timerEvents.flatMap fun e => descRefs e.2) := by
    have howned := h.owned
    rw [liveRefs, hexecuting] at howned
    exact howned.trans List.perm_append_comm
  have hdisjoint := (List.nodup_append.mp (hkeys.nodup_iff.mp h.keys)).2.2
  refine ⟨h.accounted, h.cancels, h.ran_le, h.eventIds, h.underway, h.nodup, h.below, h.askedIds,
    keys_unrefs_nodup h.keys desc, ?_, fun e he => ?_, h.called⟩
  · rw [liveRefs]
    simpa [LuaTimers.freeResources] using unrefs_perm h.keys hkeys
  · refine (h.asks e he).congr (List.Subset.refl _) fun r hr => ?_
    refine lua_rawgeti_unrefs fun k hk hmine => ?_
    refine hdisjoint k (List.reduceOption_mem_iff.mpr hmine) k ?_ rfl
    exact List.mem_flatMap.mpr ⟨e, he, List.reduceOption_mem_iff.mpr (hk ▸ hr)⟩

theorem Sound.closeState (h : w.Sound) (hidle : w.executing = none) : w.closeState.Sound := by
  have hkeys : w.registry.keys.Perm
      ((w.timerEvents.flatMap fun e => refs e.2).reduceOption ++ []) := by
    have howned := h.owned
    rw [liveRefs, hidle, Option.elim_none] at howned
    rw [List.reduceOption, List.filterMap_flatMap]
    exact howned
  have hfold : w.closeState.registry =
      (w.timerEvents.flatMap fun e => refs e.2).foldl LuaRegistry.luaL_unref w.registry := by
    rw [List.foldl_flatMap]
    rfl
  have hgone : w.closeState.registry.keys.Perm [] := by
    rw [hfold]
    exact LuaRegistry.unrefs_perm h.keys hkeys
  have hids : w.closeState.ids.Sublist w.ids := List.sublist_append_right _ _
  refine ⟨h.accounted, h.cancels, h.ran_le, .nil, nofun, h.nodup.sublist hids,
    fun i hi => h.below i (hids.subset hi), h.askedIds, ?_, ?_, nofun, h.called⟩
  · rw [List.perm_nil.mp hgone]
    exact .nil
  · rw [liveRefs]
    simpa [LuaTimers.closeState, hidle] using hgone

theorem Sound.step (h : w.Sound) (hstep : Step picker w op w') : w'.Sound := by
  cases hstep with
  | addEvent => exact h.luaAddEvent _ _ _
  | stopEvent => exact h.luaStopEvent _
  | @scheduler e scheduler hinternal hstep =>
    obtain ⟨hposted, hlast, hlength⟩ := hstep.internal_frame hinternal
    refine ⟨h.accounted.step hstep, fun i hi => ?_, Nat.le_trans h.ran_le hlength, h.eventIds,
      fun e he => ?_, h.nodup, h.below, h.askedIds, h.keys, h.owned, h.asks, h.called⟩
    · rw [hlast]
      exact h.cancels i (hposted _ hi)
    · refine (h.underway e he).step h.accounted h.ran_le hstep ?_
      rintro rfl
      exact hinternal
  | @addOther delay =>
    have hnew : (⟨.other, delay, 0⟩ : SchedulerTask TimerFunc).eventId = 0 := rfl
    obtain ⟨hdispatched, hlast, hcancel⟩ := Scheduler.addEvent_frame (s := w.scheduler) hnew
    refine ⟨h.accounted.addEvent hnew, fun i hi => ?_, ?_, h.eventIds,
      fun e he => (h.underway e he).addEvent hnew, h.nodup, h.below, h.askedIds, h.keys, h.owned,
      h.asks, h.called⟩
    · rw [hlast]
      exact Nat.le_succ_of_le (h.cancels i (hcancel i hi))
    · rw [hdispatched]
      exact h.ran_le
  | @stopOther eventId hadded hother =>
    obtain ⟨hdispatched, hlast, hcancel⟩ := Scheduler.stopEvent_frame (s := w.scheduler) eventId
    refine ⟨h.accounted.stopEvent _, fun i hi => ?_, ?_, h.eventIds,
      fun e he => (h.underway e he).stopEvent (Ne.symm (hother e he)), h.nodup, h.below,
      h.askedIds, h.keys, h.owned, h.asks, h.called⟩
    · rw [hlast]
      obtain hold | rfl := hcancel i hi
      · exact h.cancels i hold
      · exact hadded.2
    · rw [hdispatched]
      exact h.ran_le
  | runTask hidle hnext => exact h.runTask hidle hnext _
  | freeResources hexecuting => exact h.freeResources hexecuting
  | closeState hidle => exact h.closeState hidle

theorem sound_of_reachable (h : Run.Reachable (system picker V) w) : w.Sound := by
  refine h.invariant (fun w hw => ?_) fun w op w' hw hstep => hw.step hstep
  have hinit : w = {} := hw
  rw [hinit]
  exact ⟨Scheduler.accounted_of_reachable (.init rfl), nofun, Nat.le_refl _, .nil, nofun, .nil,
    nofun, ⟨.nil, nofun⟩, .nil, .nil, nofun, nofun⟩

/-- The steps that are left when no script runs. -/
def Internal : TimerOp V → Prop
  | .scheduler _ => True
  | .runTask _ => True
  | .freeResources => True
  | _ => False

/-- The task of a pending event is in one place, and will be run. -/
theorem Sound.once (h : w.Sound) {e : Nat × LuaTimerEventDesc} (he : e ∈ w.timerEvents) :
    w.scheduler.insertions e.2.eventId + (w.scheduler.waits e.2.eventId).length +
      w.scheduler.completed e.2.eventId +
      (w.scheduler.dispatched.drop w.ran).countP (fun task => task.eventId = e.2.eventId) = 1 := by
  have hunderway := h.underway e he
  have honce := h.accounted.once e.2.eventId
  rw [if_pos hunderway.added] at honce
  have hdeletions : w.scheduler.deletions e.2.eventId = 0 := by
    rw [Scheduler.deletions, List.countP_eq_zero]
    simpa using hunderway.undeleted
  have hran : (w.scheduler.dispatched.take w.ran).countP
      (fun task => task.eventId = e.2.eventId) = 0 := by
    rw [List.countP_eq_zero]
    simpa using hunderway.next
  have hhanded : w.scheduler.handed e.2.eventId =
      (w.scheduler.dispatched.take w.ran).countP (fun task => task.eventId = e.2.eventId) +
      (w.scheduler.dispatched.drop w.ran).countP (fun task => task.eventId = e.2.eventId) := by
    rw [Scheduler.handed, ← List.countP_append, List.take_append_drop]
  omega

theorem Sound.exists_step (h : w.Sound) {e : Nat × LuaTimerEventDesc} (he : e ∈ w.timerEvents) :
    ∃ op w', Internal op ∧ Step picker w op w' := by
  cases hexecuting : w.executing with
  | some desc => exact ⟨.freeResources, _, trivial, .freeResources hexecuting⟩
  | none =>
    have honce := h.once he
    by_cases hmore : w.ran < w.scheduler.dispatched.length
    · exact ⟨.runTask true, _, trivial, .runTask hexecuting (List.getElem?_eq_getElem hmore)⟩
    · have hnone : w.scheduler.dispatched.drop w.ran = [] :=
        List.drop_eq_nil_of_le (Nat.le_of_not_lt hmore)
      have hunderway := h.underway e he
      have hhanded : w.scheduler.handed e.2.eventId = 0 := by
        rw [Scheduler.handed, List.countP_eq_zero]
        have htake : w.scheduler.dispatched.take w.ran = w.scheduler.dispatched :=
          List.take_of_length_le (Nat.le_of_not_lt hmore)
        simpa [htake] using hunderway.next
      have hdeletions : w.scheduler.deletions e.2.eventId = 0 := by
        rw [Scheduler.deletions, List.countP_eq_zero]
        simpa using hunderway.undeleted
      obtain ⟨event, scheduler, hinternal, hstep⟩ :=
        h.accounted.exists_step hunderway.added (by omega)
      exact ⟨.scheduler event, _, trivial, .scheduler hinternal hstep⟩

def oneEvent : LuaTimers Nat := ({} : LuaTimers Nat).luaAddEvent .next 7 50 [none, some 3]

theorem reachable_oneEvent : Run.Reachable (system LuaRefPicker.next Nat) oneEvent := by
  have h₀ : Run.Reachable (system LuaRefPicker.next Nat) {} := .init rfl
  exact h₀.step' (.addEvent rfl)

end LuaTimers

end Eloth
