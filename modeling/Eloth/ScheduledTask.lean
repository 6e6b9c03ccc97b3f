import Eloth.Scheduler

/-!
# Tasks under way

A task of the scheduler whose event nobody stops stays in one of its places until the dispatcher
runs it, whatever else is scheduled and stopped.
-/

namespace Eloth

namespace Scheduler

variable {F : Type} {s s' : Scheduler F} {e : Event F} {task : SchedulerTask F}
  {eventId i n : Nat} {f : F}

/-! ## A task that is under way -/

/-- The task has been added and not been deleted. -/
def Has (s : Scheduler F) (task : SchedulerTask F) : Prop :=
  .insert task ∈ s.posted ∨ (∃ i, task ∈ s.waits i) ∨ (∃ handler ∈ s.handlers,
    handler.task = task) ∨ task ∈ s.dispatched

/-- Nobody has stopped the event, its task calls the function, and it is not among the first tasks
that were handed over. -/
structure Underway (s : Scheduler F) (n eventId : Nat) (f : F) : Prop where
  added : s.Added eventId
  kept : ∀ i, .cancel i ∈ s.posted → i ≠ eventId
  expires : ∀ handler ∈ s.handlers, handler.task.eventId = eventId → handler.aborted = false
  undeleted : ∀ task ∈ s.deleted, task.eventId ≠ eventId
  next : ∀ task ∈ s.dispatched.take n, task.eventId ≠ eventId
  func : ∀ task, s.Has task → task.eventId = eventId → task.func = f

theorem Underway.complete (h : s.Underway n eventId f)
    (hown : ∀ i, ∀ task ∈ s.waits i, task.eventId = i) (i : Nat) {aborted : Bool}
    (hne : aborted = true → i ≠ eventId) : (s.complete i aborted).Underway n eventId f := by
  obtain ⟨map, handlers, hframe⟩ := complete_frame s i aborted
  have hposted : (s.complete i aborted).posted = s.posted := by rw [hframe]
  have hdispatched : (s.complete i aborted).dispatched = s.dispatched := by rw [hframe]
  refine ⟨?_, ?_, fun handler hhandler heq => ?_, ?_, ?_, fun task htask => ?_⟩
  · rw [hframe]
    exact h.added
  · rw [hposted]
    exact h.kept
  · rw [handlers_complete, List.mem_append] at hhandler
    obtain hold | hnew := hhandler
    · exact h.expires handler hold heq
    · obtain ⟨task, htask, rfl⟩ := List.mem_map.mp hnew
      cases aborted with
      | false => rfl
      | true => exact absurd ((hown i task htask).symm.trans heq) (hne rfl)
  · rw [hframe]
    exact h.undeleted
  · rw [hdispatched]
    exact h.next
  · refine h.func task ?_
    obtain hinsert | ⟨j, hj⟩ | ⟨handler, hhandler, rfl⟩ | hdone := htask
    · exact .inl (hposted ▸ hinsert)
    · rw [waits_complete] at hj
      split_ifs at hj with hji
      · cases hj
      · exact .inr (.inl ⟨j, hj⟩)
    · rw [handlers_complete, List.mem_append] at hhandler
      obtain hold | hnew := hhandler
      · exact .inr (.inr (.inl ⟨handler, hold, rfl⟩))
      · obtain ⟨task, htask, rfl⟩ := List.mem_map.mp hnew
        exact .inr (.inl ⟨i, htask⟩)
    · exact .inr (.inr (.inr (hdispatched ▸ hdone)))

theorem Underway.addEvent (h : s.Underway n eventId f) (hnew : task.eventId = 0) :
    (s.addEvent task).Underway n eventId f := by
  have hadded := h.added
  rw [Scheduler.addEvent, if_pos hnew]
  refine ⟨⟨hadded.1, Nat.le_succ_of_le hadded.2⟩, fun i hi => ?_, h.expires, h.undeleted, h.next,
    fun task' htask heq => ?_⟩
  · refine h.kept i ?_
    simpa using hi
  · obtain hinsert | hrest := htask
    · obtain hold | hlast := List.mem_append.mp hinsert
      · exact h.func task' (.inl hold) heq
      · obtain rfl := Posted.insert.inj (List.mem_singleton.mp hlast)
        have hle := hadded.2
        dsimp only at heq
        omega
    · exact h.func task' (.inr hrest) heq

theorem Underway.stopEvent (h : s.Underway n eventId f) (hne : i ≠ eventId) :
    (s.stopEvent i).Underway n eventId f := by
  unfold Scheduler.stopEvent
  split_ifs
  · exact h
  · refine ⟨h.added, fun j hj => ?_, h.expires, h.undeleted, h.next, fun task htask => ?_⟩
    · obtain hold | hlast := List.mem_append.mp hj
      · exact h.kept j hold
      · obtain rfl := Posted.cancel.inj (List.mem_singleton.mp hlast)
        exact hne
    · refine h.func task (htask.imp_left fun hinsert => ?_)
      simpa using hinsert

theorem Underway.runPosted (h : s.Underway n eventId f) (haccounted : s.Accounted)
    {first : Posted F} {rest : List (Posted F)} (hposted : s.posted = first :: rest) :
    ({ s with posted := rest }.runPosted first).Underway n eventId f := by
  have hless : Underway { s with posted := rest } n eventId f := by
    refine ⟨h.added, fun i hi => h.kept i ?_, h.expires, h.undeleted, h.next,
      fun task htask => h.func task (htask.imp_left fun hinsert => ?_)⟩
    · rw [hposted]
      exact List.mem_cons_of_mem first hi
    · rw [hposted]
      exact List.mem_cons_of_mem first hinsert
  cases first with
  | insert task =>
    obtain ⟨heq, -, -⟩ := haccounted.insertEvent_spec hposted
    rw [Scheduler.runPosted, heq]
    refine ⟨hless.added, hless.kept, hless.expires, hless.undeleted, hless.next,
      fun task' htask => ?_⟩
    obtain hinsert | ⟨j, hj⟩ | hrest := htask
    · exact hless.func task' (.inl hinsert)
    · rw [waits_setTimer] at hj
      split_ifs at hj with hji
      · obtain rfl : task' = task := by simpa using hj
        refine h.func task' (.inl ?_)
        rw [hposted]
        exact List.mem_cons_self
      · exact hless.func task' (.inr (.inl ⟨j, hj⟩))
    · exact hless.func task' (.inr (.inr hrest))
  | cancel i =>
    refine hless.complete haccounted.own i fun _ => h.kept i ?_
    rw [hposted]
    exact List.mem_cons_self

/-- A wait that completed was the only one of its timer. -/
theorem Accounted.eraseTimer_eq (h : s.Accounted) {handler : WaitHandler F}
    {l r : List (WaitHandler F)} (hhandlers : s.handlers = l ++ handler :: r) :
    { s with handlers := l ++ r }.eraseTimer handler.task.eventId =
      { s with handlers := l ++ r }.setTimer handler.task.eventId none := by
  have honce := h.once handler.task.eventId
  have hone : (if s.Added handler.task.eventId then 1 else 0) ≤ 1 := by split_ifs <;> omega
  have hcompleted : 0 < s.completed handler.task.eventId := by
    rw [completed, hhandlers, List.countP_pos_iff]
    exact ⟨handler, by simp, by simp⟩
  have hwaits : s.waits handler.task.eventId = [] := by
    rw [← List.length_eq_zero_iff]
    omega
  rw [eraseTimer, complete_of_waits (w := { s with handlers := l ++ r }) hwaits]

theorem Underway.handleWait (h : s.Underway n eventId f) (haccounted : s.Accounted)
    (hn : n ≤ s.dispatched.length) {handler : WaitHandler F} {l r : List (WaitHandler F)}
    (hhandlers : s.handlers = l ++ handler :: r) :
    ({ s with handlers := l ++ r }.handleWait handler).Underway n eventId f := by
  have hsub {handler' : WaitHandler F} (hmem : handler' ∈ l ++ r) : handler' ∈ s.handlers := by
    rw [hhandlers]
    simp only [List.mem_append, List.mem_cons] at hmem ⊢
    tauto
  have hmine : handler ∈ s.handlers := by
    rw [hhandlers]
    exact List.mem_append_right _ List.mem_cons_self
  have hwaits {task : SchedulerTask F} {j : Nat}
      (hj : task ∈ (s.setTimer handler.task.eventId none).waits j) : task ∈ s.waits j := by
    rw [waits_setTimer] at hj
    split_ifs at hj
    · cases hj
    · exact hj
  have hstate : ¬ s.state = .terminated := by simp [haccounted.running.1]
  rw [Scheduler.handleWait, haccounted.eraseTimer_eq hhandlers]
  simp only [setTimer]
  cases haborted : handler.aborted with
  | true =>
    simp only [true_or, if_true]
    refine ⟨h.added, h.kept, fun handler' hmem => h.expires handler' (hsub hmem),
      fun task htask heq => ?_, h.next, fun task htask => h.func task ?_⟩
    · obtain hold | hlast := List.mem_append.mp htask
      · exact h.undeleted task hold heq
      · rw [List.mem_singleton.mp hlast] at heq
        exact absurd haborted (by simp [h.expires handler hmine heq])
    · obtain hinsert | ⟨j, hj⟩ | ⟨handler', hmem, rfl⟩ | hdone := htask
      · exact .inl hinsert
      · exact .inr (.inl ⟨j, hwaits hj⟩)
      · exact .inr (.inr (.inl ⟨handler', hsub hmem, rfl⟩))
      · exact .inr (.inr (.inr hdone))
  | false =>
    simp only [Bool.false_eq_true, false_or, if_neg hstate, addTask, haccounted.running.2, if_true]
    refine ⟨h.added, h.kept, fun handler' hmem => h.expires handler' (hsub hmem), h.undeleted, ?_,
      fun task htask => h.func task ?_⟩
    · rw [List.take_append_of_le_length hn]
      exact h.next
    · obtain hinsert | ⟨j, hj⟩ | ⟨handler', hmem, rfl⟩ | hdone := htask
      · exact .inl hinsert
      · exact .inr (.inl ⟨j, hwaits hj⟩)
      · exact .inr (.inr (.inl ⟨handler', hsub hmem, rfl⟩))
      · obtain hold | hlast := List.mem_append.mp hdone
        · exact .inr (.inr (.inr hold))
        · rw [List.mem_singleton.mp hlast]
          exact .inr (.inr (.inl ⟨handler, hmine, rfl⟩))

/-- Ids that were not given to an event yet are nowhere. -/
theorem Accounted.eq_nil_of_not_added (h : s.Accounted) (hnew : ¬s.Added eventId) :
    (∀ task, s.Has task → task.eventId ≠ eventId) ∧
      ∀ task ∈ s.deleted, task.eventId ≠ eventId := by
  have honce := h.once eventId
  rw [if_neg hnew] at honce
  refine ⟨fun task htask heq => ?_, fun task htask heq => ?_⟩
  · obtain hinsert | ⟨j, hj⟩ | ⟨handler, hmem, rfl⟩ | hdone := htask
    · have hpos : 0 < s.insertions eventId :=
        List.countP_pos_iff.mpr ⟨_, hinsert, by simpa [Posted.inserts] using heq⟩
      omega
    · obtain rfl : task.eventId = j := h.own j task hj
      rw [heq] at hj
      have hpos : 0 < (s.waits eventId).length := List.length_pos_of_mem hj
      omega
    · have hpos : 0 < s.completed eventId :=
        List.countP_pos_iff.mpr ⟨handler, hmem, by simpa using heq⟩
      omega
    · have hpos : 0 < s.handed eventId :=
        List.countP_pos_iff.mpr ⟨task, hdone, by simpa using heq⟩
      omega
  · have hpos : 0 < s.deletions eventId :=
      List.countP_pos_iff.mpr ⟨task, htask, by simpa using heq⟩
    omega

theorem underway_addEvent (h : s.Accounted) (hcancels : ∀ i, .cancel i ∈ s.posted →
    i ≤ s.lastEventId) (hnew : task.eventId = 0) (n : Nat) :
    (s.addEvent task).Underway n (s.lastEventId + 1) task.func := by
  have hnotAdded : ¬s.Added (s.lastEventId + 1) := fun hadded => by
    have hle := hadded.2
    omega
  obtain ⟨hhas, hdeleted⟩ := h.eq_nil_of_not_added hnotAdded
  rw [Scheduler.addEvent, if_pos hnew]
  refine ⟨⟨Nat.succ_pos _, Nat.le_refl _⟩, fun i hi => ?_, fun handler hmem heq => ?_, hdeleted,
    fun task' htask heq => ?_, fun task' htask heq => ?_⟩
  · have hle := hcancels i (by simpa using hi)
    omega
  · exact absurd heq (hhas _ (.inr (.inr (.inl ⟨handler, hmem, rfl⟩))))
  · exact hhas task' (.inr (.inr (.inr (List.mem_of_mem_take htask)))) heq
  · obtain hinsert | hrest := htask
    · obtain hold | hlast := List.mem_append.mp hinsert
      · exact absurd heq (hhas task' (.inl hold))
      · obtain rfl := Posted.insert.inj (List.mem_singleton.mp hlast)
        rfl
    · exact absurd heq (hhas task' (.inr hrest))

theorem addEvent_frame (hnew : task.eventId = 0) :
    (s.addEvent task).dispatched = s.dispatched ∧
    (s.addEvent task).lastEventId = s.lastEventId + 1 ∧
    ∀ i, .cancel i ∈ (s.addEvent task).posted → .cancel i ∈ s.posted := by
  rw [Scheduler.addEvent, if_pos hnew]
  exact ⟨rfl, rfl, fun i hi => by simpa using hi⟩

theorem stopEvent_frame (i : Nat) :
    (s.stopEvent i).dispatched = s.dispatched ∧ (s.stopEvent i).lastEventId = s.lastEventId ∧
    ∀ j, .cancel j ∈ (s.stopEvent i).posted → .cancel j ∈ s.posted ∨ j = i := by
  unfold Scheduler.stopEvent
  split_ifs
  · exact ⟨rfl, rfl, fun j => .inl⟩
  · refine ⟨rfl, rfl, fun j hj => ?_⟩
    obtain hold | hlast := List.mem_append.mp hj
    · exact .inl hold
    · exact .inr (Posted.cancel.inj (List.mem_singleton.mp hlast))

/-- The next task to run is not that of the event. -/
theorem Underway.next_task (h : s.Underway n eventId f) (hnext : s.dispatched[n]? = some task)
    (hne : task.func ≠ f) : s.Underway (n + 1) eventId f := by
  refine ⟨h.added, h.kept, h.expires, h.undeleted, fun task' htask heq => ?_, h.func⟩
  rw [List.take_add_one, hnext, Option.toList_some] at htask
  obtain hold | hlast := List.mem_append.mp htask
  · exact h.next task' hold heq
  · rw [List.mem_singleton.mp hlast] at heq
    exact hne (h.func task (.inr (.inr (.inr (List.mem_of_getElem? hnext)))) heq)

/-- The scheduler's own steps post nothing, and what was handed over stays so. -/
theorem Step.internal_frame (hstep : Step s e s') (hinternal : e.Internal) :
    (∀ p ∈ s'.posted, p ∈ s.posted) ∧ s'.lastEventId = s.lastEventId ∧
      s.dispatched.length ≤ s'.dispatched.length := by
  have hcomplete (s : Scheduler F) (i : Nat) (aborted : Bool) :
      (s.complete i aborted).posted = s.posted ∧
      (s.complete i aborted).lastEventId = s.lastEventId ∧
      (s.complete i aborted).dispatched = s.dispatched := by
    obtain ⟨map, handlers, hframe⟩ := complete_frame s i aborted
    rw [hframe]
    exact ⟨rfl, rfl, rfl⟩
  cases hstep with
  | addEvent => exact absurd hinternal id
  | stopEvent => exact absurd hinternal id
  | @runPosted first rest hposted =>
    have hrest : ∀ p ∈ rest, p ∈ s.posted := fun p hp => by
      rw [hposted]
      exact List.mem_cons_of_mem first hp
    cases first with
    | insert task =>
      obtain ⟨hp, hl, hd⟩ := hcomplete { s with posted := rest } task.eventId true
      simp only [Scheduler.runPosted, insertEvent, setTimer, hp, hl, hd]
      exact ⟨hrest, trivial, Nat.le_refl _⟩
    | cancel i =>
      obtain ⟨hp, hl, hd⟩ := hcomplete { s with posted := rest } i true
      simp only [Scheduler.runPosted, hp, hl, hd]
      exact ⟨hrest, trivial, Nat.le_refl _⟩
  | @expire i =>
    obtain ⟨hp, hl, hd⟩ := hcomplete s i false
    rw [hp, hl, hd]
    exact ⟨fun _ => id, rfl, Nat.le_refl _⟩
  | @handleWait handler l r =>
    obtain ⟨hp, hl, hd⟩ := hcomplete { s with handlers := l ++ r } handler.task.eventId true
    have hposted : ∀ p ∈ ({ s with handlers := l ++ r }.eraseTimer handler.task.eventId).posted,
        p ∈ s.posted := fun p hmem => hp ▸ hmem
    have hlength := Nat.le_of_eq (congrArg List.length hd).symm
    rw [Scheduler.handleWait]
    dsimp only [addTask]
    split_ifs
    · exact ⟨hposted, hl, hlength⟩
    · refine ⟨hposted, hl, Nat.le_trans hlength ?_⟩
      rw [List.length_append]
      exact Nat.le_add_right _ _
    · exact ⟨hposted, hl, hlength⟩

/-- Whatever the scheduler and its callers do, except stopping the event. -/
theorem Underway.step (h : s.Underway n eventId f) (haccounted : s.Accounted)
    (hn : n ≤ s.dispatched.length) (hstep : Step s e s') (hstop : e ≠ .stopEvent eventId) :
    s'.Underway n eventId f := by
  cases hstep with
  | addEvent hnew => exact h.addEvent hnew
  | stopEvent => exact h.stopEvent fun hi => hstop (hi ▸ rfl)
  | runPosted hposted => exact h.runPosted haccounted hposted
  | expire => exact h.complete haccounted.own _ nofun
  | handleWait hhandlers => exact h.handleWait haccounted hn hhandlers

end Scheduler

end Eloth
