import Eloth.Raids

/-!
# Runs of the raids
-/

namespace Eloth.Raids

/-- What holds of the raids and their runs, with the next event of the running raid in its own
counter. -/
structure Frame (s : Raids) : Prop where
  next_lt : ∀ r, s.running = some r → (s.raid r).nextEvent < (s.raid r).raidEvents.length
  idle : ∀ r ∈ s.raidList, s.running ≠ some r → (s.raid r).nextEvent = 0
  sorted : ∀ r, (s.raid r).raidEvents.Pairwise (· ≤ ·)
  runs : ∀ run ∈ s.runs, run.2 = List.range run.2.length ∧
    run.2.length ≤ (s.raid run.1).raidEvents.length
  current : ∀ r, s.running = some r →
    ∃ runs, s.runs = (r, List.range (s.raid r).nextEvent) :: runs
  listed : ∀ r ∈ s.raidList, r < s.allocated
  recorded : ∀ run ∈ s.runs, run.1 < s.allocated

/-- The next event of the running raid is all that is scheduled. -/
structure Kept (s : Raids) : Prop extends Frame s where
  chain : s.tasks.pending RaidTask.isRaidEvent =
    (s.running.map fun r => RaidTask.executeRaidEvent r (s.raid r).nextEvent).toList
  timer : ∀ t ∈ s.tasks.timers, ∀ r event, t.task = .executeRaidEvent r event →
    t.id = (s.raid r).nextEventEvent ∧ t.id ≠ 0

variable {s : Raids} {r event : Nat} {success : Bool}

theorem Kept.lawful (h : Kept s) : Lawful s := by
  refine ⟨fun r hr => ?_, fun hnone => ?_, h.runs, h.sorted⟩
  · obtain ⟨runs, hruns⟩ := h.current r hr
    refine ⟨_, runs, hruns, ?_, ?_⟩
    · rw [h.chain, hr, List.length_range]
      rfl
    · rw [List.length_range]
      exact h.next_lt r hr
  · rw [h.chain, hnone]
    rfl

theorem Kept.init : Kept {} where
  chain := rfl
  next_lt _ hr := nomatch hr
  timer _ ht := nomatch ht
  idle _ hr := nomatch hr
  sorted _ := List.Pairwise.nil
  runs _ hrun := nomatch hrun
  current _ hr := nomatch hr
  listed _ hr := nomatch hr
  recorded _ hrun := nomatch hrun

theorem Kept.running_of_pending (h : Kept s)
    (hmem : .executeRaidEvent r event ∈ s.tasks.pending RaidTask.isRaidEvent) :
    s.running = some r ∧ event = (s.raid r).nextEvent := by
  rw [h.chain, Option.mem_toList, Option.map_eq_some_iff] at hmem
  obtain ⟨r', hr', heq⟩ := hmem
  cases heq
  exact ⟨hr', rfl⟩

theorem mem_pending_of_timer {t : TaskTimer RaidTask} (ht : t ∈ s.tasks.timers)
    (htask : t.task = .executeRaidEvent r event) :
    .executeRaidEvent r event ∈ s.tasks.pending RaidTask.isRaidEvent :=
  List.mem_filter.mpr ⟨List.mem_append_left _ (htask ▸ List.mem_map_of_mem ht), rfl⟩

theorem Kept.running_lt (h : Kept s) (hr : s.running = some r) : r < s.allocated := by
  obtain ⟨runs, hruns⟩ := h.current r hr
  exact h.recorded _ (hruns ▸ List.mem_cons_self)

/-- The tasks change, but for those of raids. -/
theorem Kept.of_tasks (h : Kept s) {tasks : TaskQueue RaidTask}
    (hpending : (tasks.pending RaidTask.isRaidEvent).Perm (s.tasks.pending RaidTask.isRaidEvent))
    (htimers : ∀ t ∈ tasks.timers, t.task.isRaidEvent = true → t ∈ s.tasks.timers) :
    Kept { s with tasks := tasks } := by
  refine { h with chain := ?_, timer := fun t ht r event htask => ?_ }
  · rw [h.chain] at hpending
    cases hrunning : s.running with
    | none =>
      rw [hrunning] at hpending
      exact List.perm_nil.mp hpending
    | some r =>
      rw [hrunning] at hpending
      exact List.perm_singleton.mp hpending
  · exact h.timer t (htimers t ht (htask ▸ rfl)) r event htask

theorem Kept.addCheck (h : Kept s) (delay : Nat) :
    Kept { s with tasks := s.tasks.addEvent delay .checkRaids } := by
  refine h.of_tasks (.of_eq (TaskQueue.pending_addEvent_of_neg rfl)) fun t ht hevent => ?_
  rcases List.mem_append.mp ht with ht | ht
  · exact ht
  · obtain rfl := List.mem_singleton.mp ht
    cases hevent

/-! ## Raids that are loaded -/

theorem Kept.loadRaid (h : Kept s) (node : RaidNode) : Kept (s.loadRaid node) := by
  rw [Raids.loadRaid]
  split_ifs with hinterval
  · exact h
  · have hother {r : Nat} (hr : r < s.allocated) (raid : Raid) :
        Function.update s.raid s.allocated raid r = s.raid r :=
      Function.update_of_ne hr.ne _ _
    refine ⟨⟨fun r hr => ?_, fun r hr hidle => ?_, fun r => ?_, fun run hrun => ?_, fun r hr => ?_,
      fun r hr => ?_, fun run hrun => ?_⟩, ?_, fun t ht r event htask => ?_⟩
    · simpa only [hother (h.running_lt hr)] using h.next_lt r hr
    · rcases List.mem_append.mp hr with hr | hr
      · simpa only [hother (h.listed r hr)] using h.idle r hr hidle
      · obtain rfl := List.mem_singleton.mp hr
        simp only [Function.update_self]
    · by_cases hr : r = s.allocated
      · subst hr
        simpa only [Function.update_self] using List.pairwise_insertionSort _ _
      · simpa only [Function.update_of_ne hr] using h.sorted r
    · simpa only [hother (h.recorded run hrun)] using h.runs run hrun
    · simpa only [hother (h.running_lt hr)] using h.current r hr
    · rcases List.mem_append.mp hr with hr | hr
      · exact Nat.lt_succ_of_lt (h.listed r hr)
      · rw [List.mem_singleton.mp hr]
        exact Nat.lt_succ_self _
    · exact Nat.lt_succ_of_lt (h.recorded run hrun)
    · rw [h.chain]
      cases hr : s.running with
      | none => rfl
      | some r => simp only [Option.map_some, hother (h.running_lt hr)]
    · have hr := (h.running_of_pending (mem_pending_of_timer ht htask)).1
      simpa only [hother (h.running_lt hr)] using h.timer t ht r event htask

theorem Kept.loadFromXml (h : Kept s) (nodes : List RaidNode) : Kept (s.loadFromXml nodes) := by
  rw [Raids.loadFromXml]
  split_ifs with hdone
  · exact h
  · clear hdone
    have hloaded : Kept (nodes.foldl Raids.loadRaid s) := by
      induction nodes generalizing s with
      | nil => exact h
      | cons node nodes ih => exact ih (h.loadRaid node)
    exact { hloaded with chain := hloaded.chain }

theorem Kept.startup (h : Kept s) : Kept s.startup := by
  rw [Raids.startup]
  split_ifs
  · exact h
  · exact { h.addCheck (CHECK_RAIDS_INTERVAL * 1000) with }

/-! ## Raids that are cleared -/

theorem timers_stopEvents (s : Raids) (r : Nat) {t : TaskTimer RaidTask}
    (ht : t ∈ (s.stopEvents r).tasks.timers) : t ∈ s.tasks.timers ∧
      ((s.raid r).nextEventEvent ≠ 0 → t.id ≠ (s.raid r).nextEventEvent) := by
  rw [Raids.stopEvents] at ht
  split_ifs at ht with hevent
  · exact TaskQueue.mem_timers_stopEvent ht
  · exact ⟨ht, fun h => absurd h hevent⟩

/-- The events of the raids in the list are stopped. -/
theorem timers_foldl_stopEvents (raids : List Nat) {s : Raids} {t : TaskTimer RaidTask}
    (ht : t ∈ (raids.foldl Raids.stopEvents s).tasks.timers) : t ∈ s.tasks.timers ∧
      ∀ r ∈ raids, (s.raid r).nextEventEvent ≠ 0 → t.id ≠ (s.raid r).nextEventEvent := by
  induction raids generalizing s with
  | nil => exact ⟨ht, fun r hr => nomatch hr⟩
  | cons r raids ih =>
    obtain ⟨hstopped, hrest⟩ := ih ht
    obtain ⟨hold, hid⟩ := timers_stopEvents s r hstopped
    refine ⟨hold, fun r' hr' hevent => ?_⟩
    by_cases hsame : r' = r
    · exact hsame ▸ hid (hsame ▸ hevent)
    · have hraid : (s.stopEvents r).raid r' = s.raid r' := by
        rw [Raids.stopEvents]
        split_ifs
        · exact Function.update_of_ne hsame _ _
        · rfl
      have hmem := (List.mem_cons.mp hr').resolve_left hsame
      exact hraid ▸ hrest r' hmem (hraid.symm ▸ hevent)

/-- Only timers are stopped, and the raids keep their events. -/
theorem foldl_stopEvents (raids : List Nat) (s : Raids) :
    let s' := raids.foldl Raids.stopEvents s
    s'.tasks.queue = s.tasks.queue ∧ s'.runs = s.runs ∧ s'.allocated = s.allocated ∧
      ∀ r, (s'.raid r).raidEvents = (s.raid r).raidEvents := by
  induction raids generalizing s with
  | nil => exact ⟨rfl, rfl, rfl, fun _ => rfl⟩
  | cons r raids ih =>
    obtain ⟨hqueue, hruns, hallocated, hevents⟩ := ih (s.stopEvents r)
    have hone : (s.stopEvents r).tasks.queue = s.tasks.queue ∧ (s.stopEvents r).runs = s.runs ∧
        (s.stopEvents r).allocated = s.allocated ∧
        ∀ r', ((s.stopEvents r).raid r').raidEvents = (s.raid r').raidEvents := by
      rw [Raids.stopEvents]
      split_ifs
      · refine ⟨TaskQueue.queue_stopEvent, rfl, rfl, fun r' => ?_⟩
        · by_cases hsame : r' = r
          · subst hsame
            simp only [Function.update_self]
          · simp only [Function.update_of_ne hsame]
      · exact ⟨rfl, rfl, rfl, fun _ => rfl⟩
    exact ⟨hqueue.trans hone.1, hruns.trans hone.2.1, hallocated.trans hone.2.2.1,
      fun r' => (hevents r').trans (hone.2.2.2 r')⟩

theorem Kept.clear (h : Kept s) (hstop : s.Stoppable) : Kept s.clear := by
  obtain ⟨hqueue, hruns, hallocated, hevents⟩ := foldl_stopEvents s.raidList
    { s with tasks := s.tasks.stopEvent s.checkRaidsEvent, checkRaidsEvent := 0 }
  have hqueue : s.clear.tasks.queue = s.tasks.queue := hqueue.trans TaskQueue.queue_stopEvent
  have hgone : ∀ t ∈ s.clear.tasks.timers, ∀ r event, t.task ≠ .executeRaidEvent r event := by
    intro t ht r event htask
    obtain ⟨hmem, hstopped⟩ := timers_foldl_stopEvents s.raidList ht
    have hold : t ∈ s.tasks.timers := (TaskQueue.mem_timers_stopEvent hmem).1
    obtain ⟨hid, hzero⟩ := h.timer t hold r event htask
    have hrunning := (h.running_of_pending (mem_pending_of_timer hold htask)).1
    exact hstopped r (hstop r hrunning).1 (hid ▸ hzero) hid
  refine ⟨⟨fun _ hr => (nomatch hr), fun _ hr => (nomatch hr), fun r => ?_, fun run hrun => ?_,
    fun _ hr => (nomatch hr), fun _ hr => (nomatch hr), fun run hrun => ?_⟩, ?_,
    fun t ht r event htask => absurd htask (hgone t ht r event)⟩
  · exact (hevents r).symm ▸ h.sorted r
  · have hrun : run ∈ s.runs := hruns ▸ hrun
    exact (hevents run.1).symm ▸ h.runs run hrun
  · have hrun : run ∈ s.runs := hruns ▸ hrun
    exact hallocated.symm ▸ h.recorded run hrun
  · refine List.filter_eq_nil_iff.mpr fun task htask hevent => ?_
    cases task with
    | checkRaids => cases hevent
    | executeRaidEvent r event =>
      rcases List.mem_append.mp htask with htask | htask
      · obtain ⟨t, ht, heq⟩ := List.mem_map.mp htask
        exact hgone t ht r event heq
      · rw [hqueue] at htask
        have hpending : .executeRaidEvent r event ∈ s.tasks.pending RaidTask.isRaidEvent :=
          List.mem_filter.mpr ⟨List.mem_append_right _ htask, rfl⟩
        exact (hstop r (h.running_of_pending hpending).1).2 event htask

/-! ## Raids that run -/

theorem Frame.scheduleNext (h : Frame s) {r : Nat} (hrunning : s.running = some r)
    (hpending : s.tasks.pending RaidTask.isRaidEvent = []) (delay : Nat) :
    Kept (s.scheduleNext r delay) := by
  have hsame : ∀ r', ((s.scheduleNext r delay).raid r').raidEvents = (s.raid r').raidEvents ∧
      ((s.scheduleNext r delay).raid r').nextEvent = (s.raid r').nextEvent := by
    intro r'
    by_cases hr : r' = r
    · subst hr
      simp only [Raids.scheduleNext, Function.update_self, and_self]
    · simp only [Raids.scheduleNext, Function.update_of_ne hr, and_self]
  refine ⟨⟨fun r' hr => ?_, fun r' hr hidle => ?_, fun r' => ?_, fun run hrun => ?_,
    fun r' hr => ?_, h.listed, h.recorded⟩, ?_, fun t ht r' event htask => ?_⟩
  · rw [(hsame r').1, (hsame r').2]
    exact h.next_lt r' hr
  · rw [(hsame r').2]
    exact h.idle r' hr hidle
  · rw [(hsame r').1]
    exact h.sorted r'
  · rw [(hsame run.1).1]
    exact h.runs run hrun
  · rw [(hsame r').2]
    exact h.current r' hr
  · have hperm : ((s.scheduleNext r delay).tasks.pending RaidTask.isRaidEvent).Perm
        (.executeRaidEvent r (s.raid r).nextEvent :: s.tasks.pending RaidTask.isRaidEvent) :=
      TaskQueue.pending_addEvent_of_pos rfl
    rw [hpending] at hperm
    rw [List.perm_singleton.mp hperm]
    change _ = (s.running.map _).toList
    rw [hrunning, Option.map_some, (hsame r).2]
    rfl
  · rcases List.mem_append.mp ht with ht | ht
    · exact absurd (mem_pending_of_timer ht htask) (by simp [hpending])
    · obtain rfl := List.mem_singleton.mp ht
      cases htask
      simp [Raids.scheduleNext]

/-- A raid with an event starts, while no other runs. -/
theorem Kept.start (h : Kept s) {r : Nat} (hmem : r ∈ s.raidList) (hnone : s.running = none)
    (hevents : (s.raid r).raidEvents ≠ []) : Kept (s.start r) := by
  have hnext : (s.raid r).nextEvent = 0 := h.idle r hmem (by simp [hnone])
  have hlength : 0 < (s.raid r).raidEvents.length := List.length_pos_of_ne_nil hevents
  have hpending : s.tasks.pending RaidTask.isRaidEvent = [] := by
    rw [h.chain, hnone]
    rfl
  have hframe : Frame { s with running := some r, runs := (r, []) :: s.runs } := by
    refine ⟨fun r' hr => ?_, fun r' hr _ => ?_, h.sorted, fun run hrun => ?_, fun r' hr => ?_,
      h.listed, fun run hrun => ?_⟩
    · obtain rfl := Option.some.inj hr
      exact hnext ▸ hlength
    · exact h.idle r' hr (by simp [hnone])
    · rcases List.mem_cons.mp hrun with rfl | hrun
      · exact ⟨rfl, Nat.zero_le _⟩
      · exact h.runs run hrun
    · obtain rfl := Option.some.inj hr
      exact ⟨s.runs, by rw [hnext]; rfl⟩
    · rcases List.mem_cons.mp hrun with rfl | hrun
      · exact h.listed r hmem
      · exact h.recorded run hrun
  rw [Raids.start, Raids.startRaid]
  simp only [hnext, List.getElem?_eq_getElem hlength]
  exact hframe.scheduleNext rfl hpending _

/-- The run goes on with its next event, or it is over. -/
theorem Kept.executeRaidEvent (h : Kept s) {r : Nat} (hrunning : s.running = some r)
    {tasks : TaskQueue RaidTask} (hpending : tasks.pending RaidTask.isRaidEvent = [])
    (success : Bool) :
    Kept ({ s with tasks := tasks }.executeRaidEvent r (s.raid r).nextEvent success) := by
  obtain ⟨runs, hruns⟩ := h.current r hrunning
  have hlt := h.next_lt r hrunning
  have hrecord : record r (s.raid r).nextEvent s.runs =
      (r, List.range ((s.raid r).nextEvent + 1)) :: runs := by
    rw [hruns, record, if_pos rfl, List.range_succ]
  have hrunsKept : ∀ run ∈ (r, List.range ((s.raid r).nextEvent + 1)) :: runs,
      run.2 = List.range run.2.length ∧ run.2.length ≤ (s.raid run.1).raidEvents.length := by
    intro run hrun
    rcases List.mem_cons.mp hrun with rfl | hrun
    · exact ⟨by rw [List.length_range], by rw [List.length_range]; exact hlt⟩
    · exact h.runs run (hruns ▸ List.mem_cons_of_mem _ hrun)
  have hrecorded : ∀ run ∈ (r, List.range ((s.raid r).nextEvent + 1)) :: runs,
      run.1 < s.allocated := by
    intro run hrun
    rcases List.mem_cons.mp hrun with rfl | hrun
    · exact h.recorded (r, List.range (s.raid r).nextEvent) (hruns ▸ List.mem_cons_self)
    · exact h.recorded run (hruns ▸ List.mem_cons_of_mem _ hrun)
  have hother : ∀ r' ∈ s.raidList, r' ≠ r → (s.raid r').nextEvent = 0 := fun r' hr' hne =>
    h.idle r' hr' (by rw [hrunning]; exact fun heq => hne (Option.some.inj heq).symm)
  have hreset (raid : Nat → Raid) (hraid : ∀ r' ≠ r, raid r' = s.raid r')
      (hevents : (raid r).raidEvents = (s.raid r).raidEvents) :
      Kept ({ s with
        tasks := tasks, raid := raid
        runs := (r, List.range ((s.raid r).nextEvent + 1)) :: runs }.resetRaid r) := by
    have hsame : ∀ r', (Function.update raid r { raid r with nextEvent := 0, executing := false }
        r').raidEvents = (s.raid r').raidEvents := by
      intro r'
      by_cases hr : r' = r
      · subst hr
        simpa only [Function.update_self] using hevents
      · rw [Function.update_of_ne hr, hraid r' hr]
    refine ⟨⟨fun _ hr => (nomatch hr), fun r' hr' _ => ?_, fun r' => ?_, fun run hrun => ?_,
      fun _ hr => (nomatch hr), h.listed, hrecorded⟩, hpending, fun t ht r' event htask => ?_⟩
    · by_cases hr : r' = r
      · subst hr
        simp only [Raids.resetRaid, Function.update_self]
      · simpa only [Raids.resetRaid, Function.update_of_ne hr, hraid r' hr] using hother r' hr' hr
    · exact (hsame r').symm ▸ h.sorted r'
    · exact (hsame run.1).symm ▸ hrunsKept run hrun
    · have hmem : .executeRaidEvent r' event ∈ tasks.pending RaidTask.isRaidEvent :=
        @mem_pending_of_timer { s with tasks := tasks } r' event t ht htask
      exact absurd hmem (by simp [hpending])
  rw [Raids.executeRaidEvent]
  simp only [hrecord]
  cases success with
  | false => exact hreset s.raid (fun _ _ => rfl) rfl
  | true =>
    simp only [if_true]
    cases hnext : (s.raid r).raidEvents[(s.raid r).nextEvent + 1]? with
    | none =>
      refine hreset _ (fun r' hr => Function.update_of_ne hr _ _) ?_
      rw [Function.update_self]
    | some newDelay =>
      have hsame : ∀ r', (Function.update s.raid r
          { s.raid r with nextEvent := (s.raid r).nextEvent + 1 } r').raidEvents =
            (s.raid r').raidEvents := by
        intro r'
        by_cases hr : r' = r
        · subst hr
          simp only [Function.update_self]
        · rw [Function.update_of_ne hr]
      have hframe : Frame { s with
          tasks := tasks
          runs := (r, List.range ((s.raid r).nextEvent + 1)) :: runs
          raid := Function.update s.raid r
            { s.raid r with nextEvent := (s.raid r).nextEvent + 1 } } := by
        refine ⟨fun r' hr => ?_, fun r' hr' hidle => ?_, fun r' => ?_, fun run hrun => ?_,
          fun r' hr => ?_, h.listed, hrecorded⟩
        · obtain rfl := Option.some.inj (hrunning.symm.trans hr)
          simpa only [Function.update_self] using (List.getElem?_eq_some_iff.mp hnext).1
        · have hr : r' ≠ r := fun heq => hidle (heq ▸ hrunning)
          simpa only [Function.update_of_ne hr] using hother r' hr' hr
        · exact (hsame r').symm ▸ h.sorted r'
        · exact (hsame run.1).symm ▸ hrunsKept run hrun
        · obtain rfl := Option.some.inj (hrunning.symm.trans hr)
          exact ⟨runs, by simp only [Function.update_self]⟩
      exact hframe.scheduleNext hrunning hpending _

/-! ## Runs -/

theorem Kept.checkRaids (h : Kept s) (roll : Nat → Nat)
    (hevents : ∀ r, s.chosen roll = some r → (s.raid r).raidEvents ≠ []) :
    Kept (s.checkRaids roll) := by
  rw [Raids.checkRaids]
  cases hchosen : s.chosen roll with
  | none => exact { h.addCheck (CHECK_RAIDS_INTERVAL * 1000) with chain := (h.addCheck _).chain }
  | some r =>
    have hfound := hchosen
    rw [chosen] at hfound
    split_ifs at hfound with hnone
    have hmem : r ∈ s.raidList := List.mem_of_find?_eq_some hfound
    have hstarted : Kept (s.start r) :=
      h.start hmem (Option.isNone_iff_eq_none.mp hnone) (hevents r hchosen)
    dsimp only
    split_ifs
    · have herased : Kept { s.start r with raidList := (s.start r).raidList.erase r } :=
        { hstarted with
          chain := hstarted.chain
          idle := fun r' hr' => hstarted.idle r' (List.mem_of_mem_erase hr')
          listed := fun r' hr' => hstarted.listed r' (List.mem_of_mem_erase hr') }
      exact { herased.addCheck (CHECK_RAIDS_INTERVAL * 1000) with chain := (herased.addCheck _).chain }
    · exact { hstarted.addCheck (CHECK_RAIDS_INTERVAL * 1000) with
        chain := (hstarted.addCheck _).chain }

theorem pending_next_of_check (hhead : s.tasks.queue.head? = some .checkRaids) :
    (s.tasks.next.pending RaidTask.isRaidEvent).Perm
      (s.tasks.pending RaidTask.isRaidEvent) :=
  (TaskQueue.pending_next (p := RaidTask.isRaidEvent) hhead).symm

/-- The event that runs is the one that was scheduled. -/
theorem Kept.of_event (h : Kept s) (hhead : s.tasks.queue.head? = some (.executeRaidEvent r event)) :
    s.running = some r ∧ event = (s.raid r).nextEvent ∧
      s.tasks.next.pending RaidTask.isRaidEvent = [] := by
  have hmem : .executeRaidEvent r event ∈ s.tasks.pending RaidTask.isRaidEvent :=
    List.mem_filter.mpr ⟨List.mem_append_right _ (List.mem_of_mem_head? hhead), rfl⟩
  obtain ⟨hrunning, hevent⟩ := h.running_of_pending hmem
  refine ⟨hrunning, hevent, ?_⟩
  have hperm := TaskQueue.pending_next (p := RaidTask.isRaidEvent) hhead
  rw [h.chain, hrunning] at hperm
  have hfilter : [RaidTask.executeRaidEvent r event].filter RaidTask.isRaidEvent =
      [.executeRaidEvent r event] := rfl
  rw [hfilter] at hperm
  have hlength := hperm.length_eq
  rw [List.length_append] at hlength
  exact List.length_eq_zero_iff.mp (Nat.left_eq_add.mp hlength)

theorem Kept.next (h : Kept s) {op : Op} (hsound : s.Sound op) : Kept (s.next op) := by
  cases op with
  | pass time => exact { h with chain := h.chain }
  | expire i =>
    exact h.of_tasks TaskQueue.pending_expire fun t ht _ => TaskQueue.timers_expire.subset ht
  | runTask roll success =>
    change Kept (s.runTask roll success)
    rw [Raids.runTask]
    cases hhead : s.tasks.queue.head? with
    | none => exact h
    | some task =>
      cases task with
      | checkRaids =>
        have htaken : Kept { s with tasks := s.tasks.next } :=
          h.of_tasks (pending_next_of_check hhead) fun t ht _ => ht
        exact htaken.checkRaids roll (hsound hhead)
      | executeRaidEvent r event =>
        obtain ⟨hrunning, rfl, hpending⟩ := h.of_event hhead
        exact h.executeRaidEvent hrunning hpending success
  | luaGameStartRaid r =>
    change Kept (s.luaGameStartRaid r)
    rw [Raids.luaGameStartRaid]
    by_cases hlisted : r ∈ s.raidList
    · rw [if_neg (not_not.mpr hlisted)]
      split_ifs with hrunning
      · exact h
      · rw [Option.not_isSome_iff_eq_none] at hrunning
        exact h.start hlisted hrunning (hsound hlisted hrunning)
    · rw [if_pos hlisted]
      exact h
  | startup => exact h.startup
  | clear => exact h.clear hsound
  | reload nodes => exact (h.clear hsound).loadFromXml nodes

theorem kept_of_reachableBy (h : Run.ReachableBy system Sound s) : Kept s := by
  refine h.invariant ?_ ?_
  · rintro s rfl
    exact .init
  · rintro s op s' hkept hsound rfl
    exact hkept.next hsound

/-- Each event that runs brings the run of its raid closer to its end. -/
theorem Kept.progress (h : Kept s)
    (hhead : s.tasks.queue.head? = some (.executeRaidEvent r event)) (roll : Nat → Nat)
    (success : Bool) : (s.next (.runTask roll success)).running = none ∨
      (s.next (.runTask roll success)).remaining < s.remaining := by
  obtain ⟨hrunning, rfl, -⟩ := h.of_event hhead
  obtain ⟨runs, hruns⟩ := h.current r hrunning
  have hlt := h.next_lt r hrunning
  simp only [Raids.next, runTask, hhead, Raids.executeRaidEvent]
  cases success with
  | false => exact .inl rfl
  | true =>
    simp only [if_true]
    cases hnext : (s.raid r).raidEvents[(s.raid r).nextEvent + 1]? with
    | none => exact .inl rfl
    | some newDelay =>
      right
      simp only [remaining, Raids.scheduleNext, hrunning, hruns, record, if_true,
        Function.update_self, List.length_append, List.length_range, List.length_singleton]
      omega

/-- Raids run one at a time and to their end as long as each raid that starts has an event and the
list is cleared only while the running raid can be stopped. -/
theorem raids_lawful (h : Run.ReachableBy system Sound s) :
    Lawful s ∧ ∀ r event, s.tasks.queue.head? = some (.executeRaidEvent r event) →
      ∀ roll success, (s.next (.runTask roll success)).running = none ∨
        (s.next (.runTask roll success)).remaining < s.remaining :=
  ⟨(kept_of_reachableBy h).lawful,
    fun _ _ hhead roll success => (kept_of_reachableBy h).progress hhead roll success⟩

/-! A raid of two events, given in the wrong order, whose first event is due, and a raid of none. -/

def twoEvents : Raids :=
  ((((({} : Raids).next (.reload [⟨[5000, 2000], 3600, 0, true⟩])).next .startup).next
    (.luaGameStartRaid 0)).next (.pass 2000)).next (.expire 1)

theorem reachableBy_next (h : Run.ReachableBy system Sound s) (op : Op) (hsound : s.Sound op) :
    Run.ReachableBy system Sound (s.next op) :=
  h.step hsound rfl

theorem reachableBy_twoEvents : Run.ReachableBy system Sound twoEvents := by
  have hinit : Run.ReachableBy system Sound {} := .init rfl
  have hloaded := reachableBy_next hinit (.reload [⟨[5000, 2000], 3600, 0, true⟩])
    fun r hr => nomatch hr
  have hstartup := reachableBy_next hloaded .startup trivial
  have hstarted := reachableBy_next hstartup (.luaGameStartRaid 0)
    fun _ _ => by decide
  exact reachableBy_next (reachableBy_next hstarted (.pass 2000) trivial) (.expire 1) trivial

theorem raids_lawful_twoEvents :
    twoEvents.running = some 0 ∧ Lawful twoEvents ∧
      (twoEvents.next (.runTask (fun _ => 0) true)).remaining < 2 := by
  obtain ⟨hlawful, hprogress⟩ := raids_lawful reachableBy_twoEvents
  refine ⟨rfl, hlawful, ?_⟩
  exact (hprogress 0 0 rfl (fun _ => 0) true).resolve_left (by decide)

/-- The mark of a raid without events stays, and no event of it is scheduled. -/
theorem exists_stuck_raid : ∃ s, Run.Reachable system s ∧ ¬ Lawful s := by
  have hinit : Run.Reachable system {} := .init rfl
  have hloaded : Run.Reachable system (({} : Raids).next (.reload [⟨[], 3600, 0, true⟩])) :=
    hinit.step' (i := .reload [⟨[], 3600, 0, true⟩]) rfl
  refine ⟨_, hloaded.step' (i := .luaGameStartRaid 0) rfl, fun h => ?_⟩
  obtain ⟨events, runs, -, -, hlt⟩ := h.running 0 rfl
  exact absurd hlt (Nat.not_lt_zero _)

end Eloth.Raids
