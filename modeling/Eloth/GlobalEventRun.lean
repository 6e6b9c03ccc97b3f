import Mathlib.Tactic.Ring
import Eloth.GlobalEvents

/-!
# Runs of the global events
-/

namespace Eloth.GlobalEvents

variable {s : GlobalEvents} {task task' : GlobalEventTask} {event : GlobalEvent} {now : Int}
  {success : String → Bool}

/-! ## What the events leave behind -/

/-- An event after the task has run. -/
def advance (task : GlobalEventTask) (now : Int) (event : GlobalEvent) : GlobalEvent :=
  if event.nextExecution - now > 0 then event
  else { event with nextExecution := event.nextExecution + period task event }

theorem nextExecution_advance :
    (advance task now event).nextExecution = now + timeLeft task now event := by
  rw [advance, timeLeft]
  split_ifs
  · ring
  · change event.nextExecution + _ = _
    ring

theorem remain_cons_of_pos {events : List GlobalEvent}
    (h : event.nextExecution - now > 0 ∨ dropped task success event = false) :
    remain task now success (event :: events) = event :: remain task now success events :=
  List.filter_cons_of_pos (decide_eq_true h)

theorem remain_cons_of_neg {events : List GlobalEvent}
    (h : ¬(event.nextExecution - now > 0 ∨ dropped task success event = false)) :
    remain task now success (event :: events) = remain task now success events :=
  List.filter_cons_of_neg fun hp => h (of_decide_eq_true hp)

theorem executeEvents_eq (events : List GlobalEvent) (next : Option Int) :
    executeEvents now (period task) (dropped task success) events next =
      ((remain task now success events).map (advance task now),
        (remain task now success events).foldl (fun n e => earlier n (wait task now e)) next) := by
  induction events generalizing next with
  | nil => rfl
  | cons e events ih =>
    rw [executeEvents]
    by_cases hlater : e.nextExecution - now > 0
    · rw [if_pos hlater, ih, remain_cons_of_pos (.inl hlater), List.map_cons, List.foldl_cons,
        advance, wait, if_pos hlater, if_pos hlater]
    · rw [if_neg hlater, ih, ih]
      cases hdropped : dropped task success e with
      | true => rw [if_pos rfl, remain_cons_of_neg (by simpa [hdropped] using hlater)]
      | false =>
        rw [remain_cons_of_pos (.inr hdropped), List.map_cons, List.foldl_cons, advance, wait,
          if_neg hlater, if_neg hlater]
        rfl

theorem foldl_earlier_le {events : List GlobalEvent} {next : Option Int} {m : Int}
    (h : events.foldl (fun n e => earlier n (wait task now e)) next = some m) :
    (∀ n, next = some n → m ≤ n) ∧ ∀ e ∈ events, m ≤ wait task now e := by
  induction events generalizing next with
  | nil => exact ⟨fun n hn => (Option.some.inj (h.symm.trans hn)).le, fun e he => nomatch he⟩
  | cons e events ih =>
    obtain ⟨hnext, hevents⟩ := ih h
    cases next with
    | none =>
      have hfirst := hnext _ rfl
      exact ⟨fun _ hn => (nomatch hn), List.forall_mem_cons.mpr ⟨hfirst, hevents⟩⟩
    | some n =>
      have hfirst := hnext _ rfl
      have hmin : m ≤ n ∧ m ≤ wait task now e := by
        split_ifs at hfirst <;> omega
      refine ⟨fun n' hn => ?_, List.forall_mem_cons.mpr ⟨hmin.2, hevents⟩⟩
      exact Option.some.inj hn ▸ hmin.1

theorem foldl_earlier_isSome {events : List GlobalEvent} {n : Int} :
    (events.foldl (fun n e => earlier n (wait task now e)) (some n)).isSome := by
  induction events generalizing n with
  | nil => rfl
  | cons e events ih => exact ih

theorem foldl_earlier_none {events : List GlobalEvent}
    (h : events.foldl (fun n e => earlier n (wait task now e)) none = none) : events = [] := by
  cases events with
  | nil => rfl
  | cons e events =>
    have hsome := @foldl_earlier_isSome task now events (wait task now e)
    rw [List.foldl_cons] at h
    rw [earlier, h] at *
    simp at hsome

/-- The next task comes in time for an event that it may sleep until. -/
theorem prompt_delay {now : Nat} {m : Int}
    (h : m ≤ max (timeLeft task (clock task now) event) (clock task (minTicks task))) :
    Prompt task (now + delay task m) now (advance task (clock task now) event) := by
  rw [Prompt, nextExecution_advance]
  cases task with
  | timer =>
    have hdelay : delay .timer m ≤ (max 1000 (m * 1000)).toNat := Nat.mod_le _ _
    simp only [clock, minTicks] at h ⊢
    omega
  | think =>
    have hdelay : delay .think m ≤ m.toNat := Nat.mod_le _ _
    simp only [clock, minTicks, SCHEDULER_MINTICKS] at h ⊢
    omega

theorem Prompt.mono {due now now' : Nat} (h : Prompt task due now event) (hle : now ≤ now') :
    Prompt task due now' event :=
  h.imp_right fun h => by omega

/-! ## What holds at every step -/

/-- A map with events is served, one without events has no task, and a task that is scheduled is
known by its id. -/
structure Kept (s : GlobalEvents) (task : GlobalEventTask) : Prop extends Served s task where
  empty : (s.chain task).map = [] → s.pending task = []
  known : (s.chain task).eventId = 0 → (s.chain task).map = []
  id : ∀ t ∈ s.tasks.timers, t.task = task → t.id = (s.chain task).eventId ∧ t.id ≠ 0

theorem mem_pending_of_timer {t : TaskTimer GlobalEventTask} (ht : t ∈ s.tasks.timers)
    (htask : t.task = task) : task ∈ s.pending task :=
  List.mem_filter.mpr ⟨List.mem_append_left _ (htask ▸ List.mem_map_of_mem ht), by simp⟩

theorem mem_pending_of_queue (h : task ∈ s.tasks.queue) : task ∈ s.pending task :=
  List.mem_filter.mpr ⟨List.mem_append_right _ h, by simp⟩

/-- Nothing is scheduled for a map without events. -/
theorem kept_of_nil (hmap : (s.chain task).map = []) (hpending : s.pending task = []) :
    Kept s task := by
  have hnone : ∀ t ∈ s.tasks.timers, t.task ≠ task := fun t ht htask => by
    simpa [hpending] using mem_pending_of_timer ht htask
  exact ⟨⟨fun h => absurd hmap h, fun t ht htask => absurd htask (hnone t ht)⟩, fun _ => hpending,
    fun _ => hmap, fun t ht htask => absurd htask (hnone t ht)⟩

/-- Time passes and timers run out. -/
theorem Kept.of_tasks (h : Kept s task) {tasks : TaskQueue GlobalEventTask}
    (hpending : (tasks.pending fun t => t = task).Perm (s.pending task))
    (htimers : ∀ t ∈ tasks.timers, t.task = task → t ∈ s.tasks.timers)
    (hnow : s.tasks.now ≤ tasks.now) : Kept { s with tasks := tasks } task := by
  refine ⟨⟨fun hmap => ?_, fun t ht htask e he => ?_⟩, fun hmap => ?_, h.known,
    fun t ht htask => h.id t (htimers t ht htask) htask⟩
  · have hone := h.once hmap
    rw [hone] at hpending
    exact List.perm_singleton.mp hpending
  · exact (h.prompt t (htimers t ht htask) htask e he).mono hnow
  · have hnone := h.empty hmap
    rw [hnone] at hpending
    exact List.perm_nil.mp hpending

/-- The chain of the other task is left alone. -/
theorem Kept.of_other (h : Kept s task) {chain : GlobalEventTask → EventChain}
    (hchain : chain task = s.chain task) : Kept { s with chain := chain } task := by
  refine ⟨⟨fun hmap => h.once (hchain ▸ hmap), fun t ht htask e he => ?_⟩,
    fun hmap => h.empty (hchain ▸ hmap), fun hid => ?_, fun t ht htask => ?_⟩
  · exact h.prompt t ht htask e (hchain ▸ he)
  · simp only [hchain] at hid ⊢
    exact h.known hid
  · simpa only [hchain] using h.id t ht htask

theorem Kept.schedule_other (h : Kept s task) (hne : task ≠ task') (delay : Nat) :
    Kept (s.schedule task' delay) task := by
  have htasks : Kept { s with tasks := s.tasks.addEvent delay task' } task := by
    have hsame : (s.tasks.addEvent delay task').pending (fun t => t = task) = s.pending task :=
      TaskQueue.pending_addEvent_of_neg (by simpa using hne.symm)
    refine h.of_tasks (.of_eq hsame) (fun t ht htask => ?_) le_rfl
    rcases List.mem_append.mp ht with ht | ht
    · exact ht
    · obtain rfl := List.mem_singleton.mp ht
      exact absurd htask.symm hne
  exact htasks.of_other (Function.update_of_ne hne _ _)

theorem Kept.setMap_other (h : Kept s task) (hne : task ≠ task') (map : List GlobalEvent) :
    Kept (s.setMap task' map) task :=
  h.of_other (Function.update_of_ne hne _ _)

/-- The map gets its only task, which comes in time for each event. -/
theorem kept_schedule (hpending : s.pending task = []) {delay : Nat}
    (hmap : (s.chain task).map ≠ [])
    (hprompt : ∀ e ∈ (s.chain task).map, Prompt task (s.tasks.now + delay) s.tasks.now e) :
    Kept (s.schedule task delay) task := by
  have hsame : ((s.schedule task delay).chain task).map = (s.chain task).map := by
    simp only [schedule, Function.update_self]
  have hone : (s.schedule task delay).pending task = [task] := by
    have hperm : ((s.tasks.addEvent delay task).pending fun t => t = task).Perm
        (task :: s.pending task) :=
      TaskQueue.pending_addEvent_of_pos (by simp)
    rw [hpending] at hperm
    exact List.perm_singleton.mp hperm
  have hnew : ∀ t ∈ (s.schedule task delay).tasks.timers, t.task = task →
      t = ⟨s.tasks.lastEventId + 1, s.tasks.now + delay, task⟩ := by
    intro t ht htask
    rcases List.mem_append.mp ht with ht | ht
    · exact absurd (mem_pending_of_timer ht htask) (by simp [hpending])
    · exact List.mem_singleton.mp ht
  refine ⟨⟨fun _ => hone, fun t ht htask e he => ?_⟩, fun h => absurd (hsame ▸ h) hmap,
    fun hid => ?_, fun t ht htask => ?_⟩
  · rw [hnew t ht htask]
    exact hprompt e (hsame ▸ he)
  · simp [schedule] at hid
  · rw [hnew t ht htask]
    simp [schedule]

/-! ## The operations -/

theorem emplace_cases (map : List GlobalEvent) (event : GlobalEvent) :
    emplace map event = (false, map) ∨ (∀ e ∈ map, e.name ≠ event.name) ∧
      ∃ map', emplace map event = (true, map') ∧ map'.Perm (event :: map) := by
  rw [emplace]
  split_ifs with hname
  · exact .inl rfl
  · refine .inr ⟨fun e he hsame => hname ?_, _, rfl, List.perm_orderedInsert _ _ _⟩
    exact List.any_eq_true.mpr ⟨e, he, by simpa using hsame⟩

theorem Kept.register (h : Kept s task) (hwelcome : s.Welcome task event) :
    Kept (s.register task event).2 task := by
  rw [GlobalEvents.register]
  rcases emplace_cases (s.chain task).map event with hold | ⟨hname, map, hnew, hperm⟩
  · rw [hold]
    exact h
  · rw [hnew]
    have hmap : ((s.setMap task map).chain task).map = map := by
      simp only [setMap, Function.update_self]
    have hid : ((s.setMap task map).chain task).eventId = (s.chain task).eventId := by
      simp only [setMap, Function.update_self]
    have hne : map ≠ [] := fun hnil => by simp [hnil] at hperm
    dsimp only
    rw [hid]
    split_ifs with hzero
    · have hpending : (s.setMap task map).pending task = [] := h.empty (h.known hzero)
      refine kept_schedule hpending (hmap.symm ▸ hne) fun e _ => .inr ?_
      cases task <;> simp [setMap, minTicks, SCHEDULER_MINTICKS]
    · obtain ⟨hpending, hprompt⟩ := hwelcome hname hzero
      refine ⟨⟨fun _ => ?_, fun t ht htask e he => ?_⟩, fun hnil => absurd (hmap ▸ hnil) hne,
        fun hid' => absurd (hid ▸ hid') hzero, fun t ht htask => ?_⟩
      · exact h.once fun hnil => hpending (h.empty hnil)
      · rw [hmap] at he
        rcases List.mem_cons.mp (hperm.mem_iff.mp he) with rfl | he
        · exact hprompt t ht htask
        · exact h.prompt t ht htask e he
      · rw [hid]
        exact h.id t ht htask

theorem Kept.register_other (h : Kept s task) (hne : task ≠ task') (event : GlobalEvent) :
    Kept (s.register task' event).2 task := by
  rw [GlobalEvents.register]
  rcases emplace_cases (s.chain task').map event with hold | ⟨-, map, hnew, -⟩
  · rw [hold]
    exact h
  · rw [hnew]
    dsimp only
    split_ifs
    · exact (h.setMap_other hne map).schedule_other hne _
    · exact h.setMap_other hne map

/-- The ids of both tasks are stopped, and no map has an event left. -/
theorem Kept.clear (h : ∀ task, Kept s task) {fromLua : Bool}
    (hclears : ∀ task, s.Clears fromLua task) (task : GlobalEventTask) :
    Kept (s.clear fromLua) task := by
  have hmap : ((s.clear fromLua).chain task).map = [] := by
    refine List.filter_eq_nil_iff.mpr fun e he => ?_
    simpa using (hclears task).1 e he
  refine kept_of_nil hmap (List.filter_eq_nil_iff.mpr fun task' htask' hsame => ?_)
  obtain rfl : task' = task := of_decide_eq_true hsame
  rcases List.mem_append.mp htask' with htimer | hqueue
  · obtain ⟨t, ht, htask⟩ := List.mem_map.mp htimer
    obtain ⟨hmem, hnotTimer⟩ := TaskQueue.mem_timers_stopEvent ht
    obtain ⟨hmem, hnotThink⟩ := TaskQueue.mem_timers_stopEvent hmem
    have hold := (h task').id t hmem htask
    cases task' with
    | timer => exact hnotTimer (hold.1 ▸ hold.2) hold.1
    | think => exact hnotThink (hold.1 ▸ hold.2) hold.1
  · refine (hclears task').2 ?_
    rwa [GlobalEvents.clear, TaskQueue.queue_stopEvent, TaskQueue.queue_stopEvent] at hqueue

theorem runEvents_eq (now : Int) (delay : Int → Nat) :
    s.runEvents task now (period task) (dropped task success) delay =
      let events := remain task now success (s.chain task).map
      let s := s.setMap task (events.map (advance task now))
      match events.foldl (fun n e => earlier n (wait task now e)) none with
      | some next => s.schedule task (delay next)
      | none => s := by
  rw [runEvents, executeEvents_eq]
  all_goals rfl

theorem Kept.runEvents (hpending : s.pending task = [])
    (hsteady : Steady task (clock task s.tasks.now)
      (remain task (clock task s.tasks.now) success (s.chain task).map)) :
    Kept (s.runEvents task (clock task s.tasks.now) (period task) (dropped task success)
      (delay task)) task := by
  rw [runEvents_eq]
  have hmap (map : List GlobalEvent) : ((s.setMap task map).chain task).map = map := by
    simp only [setMap, Function.update_self]
  generalize remain task (clock task s.tasks.now) success (s.chain task).map = events at hsteady
  dsimp only
  cases hnext : events.foldl (fun n e => earlier n (wait task (clock task s.tasks.now) e)) none with
  | none =>
    refine kept_of_nil ?_ hpending
    rw [hmap, foldl_earlier_none hnext]
    rfl
  | some next =>
    have hle := (foldl_earlier_le hnext).2
    refine @kept_schedule (s.setMap task (events.map (advance task (clock task s.tasks.now)))) task
      hpending (delay task next) (fun hnil => ?_) fun e he => ?_
    · rw [hmap, List.map_eq_nil_iff] at hnil
      rw [hnil] at hnext
      cases hnext
    · rw [hmap] at he
      obtain ⟨old, hold, rfl⟩ := List.mem_map.mp he
      obtain ⟨e', he', hwait⟩ := hsteady old hold
      exact prompt_delay ((hle e' he').trans hwait)

theorem Kept.runEvents_other (h : Kept s task) (hne : task ≠ task') (now : Int)
    (delay : Int → Nat) :
    Kept (s.runEvents task' now (period task') (dropped task' success) delay) task := by
  rw [runEvents_eq]
  dsimp only
  split
  · exact (h.setMap_other hne _).schedule_other hne _
  · exact h.setMap_other hne _

theorem runTask_eq (hhead : s.tasks.queue.head? = some task) :
    s.runTask success = { s with tasks := s.tasks.next }.runEvents task (clock task s.tasks.now)
      (period task) (dropped task success) (delay task) := by
  rw [runTask, hhead]
  cases task <;> rfl

theorem Kept.runTask (h : ∀ task, Kept s task) {success : String → Bool}
    (hsteady : ∀ task, s.tasks.queue.head? = some task → Steady task (clock task s.tasks.now)
      (remain task (clock task s.tasks.now) success (s.chain task).map))
    (task : GlobalEventTask) : Kept (s.runTask success) task := by
  cases hhead : s.tasks.queue.head? with
  | none =>
    rw [GlobalEvents.runTask, hhead]
    exact h task
  | some first =>
    rw [runTask_eq hhead]
    have htaken := TaskQueue.pending_next (p := fun t => decide (t = task)) hhead
    by_cases hsame : task = first
    · subst hsame
      refine Kept.runEvents ?_ (hsteady task hhead)
      have hqueue : task ∈ s.tasks.queue := List.mem_of_mem_head? hhead
      have hmem := mem_pending_of_queue hqueue
      have hone := (h task).once fun hnil => by simp [(h task).empty hnil] at hmem
      rw [List.filter_cons_of_pos (by simp), List.filter_nil] at htaken
      have hlength := htaken.length_eq
      change (s.pending task).length = _ at hlength
      rw [hone, List.length_append] at hlength
      exact List.length_eq_zero_iff.mp (Nat.left_eq_add.mp hlength)
    · rw [List.filter_cons_of_neg (by simpa using Ne.symm hsame), List.filter_nil,
        List.nil_append] at htaken
      refine Kept.runEvents_other ?_ hsame _ _
      exact (h task).of_tasks htaken.symm (fun t ht _ => ht) le_rfl

theorem Kept.next (h : ∀ task, Kept s task) {op : Op} (hsound : s.Sound op)
    (task : GlobalEventTask) : Kept (s.next op) task := by
  have hregister (kind : GlobalEventTask) (event : GlobalEvent) (hwelcome : s.Welcome kind event) :
      Kept (s.register kind event).2 task := by
    by_cases hsame : task = kind
    · subst hsame
      exact (h task).register hwelcome
    · exact (h task).register_other hsame event
  have hserver (map : List GlobalEvent) : Kept { s with serverMap := map } task :=
    { h task with empty := (h task).empty }
  cases op with
  | pass time =>
    exact (h task).of_tasks (.refl _) (fun t ht _ => ht) (Nat.le_add_right _ _)
  | expire i =>
    refine (h task).of_tasks TaskQueue.pending_expire
      (fun t ht _ => TaskQueue.timers_expire.subset ht) (le_of_eq ?_)
    rw [TaskQueue.now_expire]
  | runTask success => exact Kept.runTask h hsound task
  | registerEvent type event =>
    cases type with
    | none => exact hregister .think event hsound
    | timer => exact hregister .timer event hsound
    | startup | shutdown | record => exact hserver _
  | registerLuaEvent type event =>
    cases type with
    | none => exact hregister .think { event with fromLua := true } hsound
    | timer => exact hregister .timer { event with fromLua := true } hsound
    | startup | shutdown | record => exact hserver _
  | clear fromLua => exact Kept.clear h hsound task

theorem kept_of_reachableBy (h : Run.ReachableBy system Sound s) (task : GlobalEventTask) :
    Kept s task := by
  refine h.invariant (I := fun s => ∀ task, Kept s task) ?_ ?_ task
  · rintro s ⟨now, rfl⟩ task
    exact kept_of_nil rfl rfl
  · rintro s op s' hkept hsound rfl
    exact Kept.next hkept hsound

/-- The maps are served as long as every event that is executed is executed on time or another one
wakes the task early enough, no event is registered that is due before a task that sleeps longer,
none after the task has died with the last event, and nothing is left when the maps are cleared. -/
theorem served_of_reachableBy (h : Run.ReachableBy system Sound s) (task : GlobalEventTask) :
    Served s task :=
  (kept_of_reachableBy h task).toServed

/-! An event every 100 milliseconds, executed on time and then 10 milliseconds late. -/

def heartbeat : GlobalEvent := ⟨"heartbeat", false, 100, 50⟩

def executed : GlobalEvents :=
  (((({} : GlobalEvents).next (.registerEvent .none heartbeat)).next (.pass 50)).next
    (.expire 0)).next (.runTask fun _ => true)

theorem reachableBy_next (h : Run.ReachableBy system Sound s) (op : Op) (hsound : s.Sound op) :
    Run.ReachableBy system Sound (s.next op) :=
  h.step hsound rfl

theorem reachableBy_executed : Run.ReachableBy system Sound executed := by
  have hinit : Run.ReachableBy system Sound {} := .init ⟨0, rfl⟩
  have hregistered := reachableBy_next hinit (.registerEvent .none heartbeat)
    fun _ hid => absurd rfl hid
  have hpassed := reachableBy_next hregistered (.pass 50) trivial
  have hexpected := reachableBy_next hpassed (.expire 0) trivial
  refine reachableBy_next hexpected (.runTask fun _ => true) fun task hhead => ?_
  obtain rfl : GlobalEventTask.think = task := Option.some.inj hhead
  exact fun e he => ⟨e, he, by obtain rfl := List.mem_singleton.mp he; decide⟩

theorem served_of_reachableBy_executed :
    executed.pending .think = [.think] ∧ Served executed .timer := by
  have hthink := served_of_reachableBy reachableBy_executed .think
  have htimer := served_of_reachableBy reachableBy_executed .timer
  exact ⟨hthink.once (by decide), htimer⟩

/-- The next task sleeps for the period, although the event is due 10 milliseconds earlier. -/
theorem exists_unserved : ∃ s, Run.Reachable system s ∧ ¬ Served s .think := by
  have hlate : Run.Reachable system (executed.next (.pass 110)) :=
    reachableBy_executed.reachable.step' (i := .pass 110) rfl
  have hexpired : Run.Reachable system ((executed.next (.pass 110)).next (.expire 0)) :=
    hlate.step' (i := .expire 0) rfl
  refine ⟨_, hexpired.step' (i := .runTask fun _ => true) rfl, fun h => ?_⟩
  have hprompt := h.prompt ⟨3, 260, .think⟩ (List.mem_singleton.mpr rfl) rfl
    ⟨"heartbeat", false, 100, 250⟩ (List.mem_singleton.mpr rfl)
  exact absurd hprompt (by decide)

end Eloth.GlobalEvents
