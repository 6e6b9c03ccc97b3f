import Mathlib.Data.List.Nodup
import Mathlib.Order.Nat
import Eloth.Lib.Run

/-!
# The wait list

Players who find the server full are put on one of two lists and try again later. The premium
players of the priority list come before the players of the other list.
-/

namespace Eloth

abbrev ACCOUNT_TYPE_GAMEMASTER : Nat := 4

/-- An expiry time in milliseconds and the guid of the waiting player. -/
abbrev WaitEntry := Nat × UInt32

structure WaitLists where
  priorityWaitList : List WaitEntry
  waitList : List WaitEntry
  deriving DecidableEq

/-- What one login attempt reads: the player, the number of places, and the clock at the clean-up
of either list and when a new timeout is set. -/
structure LoginAttempt where
  guid : UInt32
  canAlwaysLogin : Bool
  accountType : Nat
  premium : Bool
  playersOnline : Nat
  maxPlayers : Nat
  priorityTime : Nat
  waitTime : Nat
  now : Nat

inductive WaitLists.Which where
  | priorityWaitList
  | waitList

namespace WaitLists

def get (w : WaitLists) : Which → List WaitEntry
  | .priorityWaitList => w.priorityWaitList
  | .waitList => w.waitList

def set (w : WaitLists) (list : Which) (entries : List WaitEntry) : WaitLists :=
  match list with
  | .priorityWaitList => { w with priorityWaitList := entries }
  | .waitList => { w with waitList := entries }

/-- The list with the player's entry, the place of the entry in it, and the slot. -/
def findClient (w : WaitLists) (guid : UInt32) : Which × Nat × Nat :=
  let it := w.priorityWaitList.findIdx (·.2 == guid)
  if it ≠ w.priorityWaitList.length then
    (.priorityWaitList, it, w.priorityWaitList.length - it + 1)
  else
    let it := w.waitList.findIdx (·.2 == guid)
    if it ≠ w.waitList.length then
      (.waitList, it, w.priorityWaitList.length + (w.waitList.length - it) + 1)
    else (.waitList, w.waitList.length, w.priorityWaitList.length + w.waitList.length)

def getWaitTime (slot : Nat) : Nat :=
  if slot < 5 then 5
  else if slot < 10 then 10
  else if slot < 20 then 20
  else if slot < 50 then 60
  else 120

def getTimeout (slot : Nat) : Nat := getWaitTime slot + 15

def cleanupList (time : Nat) : List WaitEntry → List WaitEntry
  | [] => []
  | entry :: list => if entry.1 ≤ time then cleanupList time list else entry :: cleanupList time list

/-- The part of `clientLogin` after the test for direct access. -/
def enter (w : WaitLists) (a : LoginAttempt) : Nat × WaitLists :=
  let (list, it, currentSlot) := w.findClient a.guid
  if it ≠ (w.get list).length then
    if a.playersOnline + currentSlot ≤ a.maxPlayers then
      (0, w.set list ((w.get list).eraseIdx it))
    else
      -- The assignment is to the second component of the pair.
      (currentSlot, w.set list ((w.get list).modify it fun entry =>
        (entry.1, UInt32.ofNat (a.now + getTimeout currentSlot * 1000))))
  else if a.premium then
    let currentSlot := w.priorityWaitList.length + 1
    (currentSlot, w.set .priorityWaitList
      (w.priorityWaitList ++ [(a.now + getTimeout currentSlot * 1000, a.guid)]))
  else
    let currentSlot := w.priorityWaitList.length + w.waitList.length + 1
    (currentSlot, w.set .waitList
      (w.waitList ++ [(a.now + getTimeout currentSlot * 1000, a.guid)]))

def cleanup (w : WaitLists) (a : LoginAttempt) : WaitLists where
  priorityWaitList := cleanupList a.priorityTime w.priorityWaitList
  waitList := cleanupList a.waitTime w.waitList

/-- The player does not have to wait on either list. -/
def Exempt (a : LoginAttempt) : Prop :=
  a.canAlwaysLogin = true ∨ a.accountType ≥ ACCOUNT_TYPE_GAMEMASTER

/-- There is no limit, or nobody waits and there is a free place. -/
def Direct (w : WaitLists) (a : LoginAttempt) : Prop :=
  a.maxPlayers = 0 ∨ w.priorityWaitList.isEmpty = true ∧ w.waitList.isEmpty = true ∧
    a.playersOnline < a.maxPlayers

instance (a : LoginAttempt) : Decidable (Exempt a) := inferInstanceAs (Decidable (_ ∨ _))

instance (w : WaitLists) (a : LoginAttempt) : Decidable (w.Direct a) :=
  inferInstanceAs (Decidable (_ ∨ _ ∧ _ ∧ _))

/-- The slot of the player, zero for direct access, and the lists after the attempt. -/
def clientLogin (w : WaitLists) (a : LoginAttempt) : Nat × WaitLists :=
  if Exempt a then (0, w)
  else if (w.cleanup a).Direct a then (0, w.cleanup a)
  else (w.cleanup a).enter a

/-! ## What the lists are for -/

/-- All entries in the order in which the players are to be let in. -/
def queue (w : WaitLists) : List WaitEntry := w.priorityWaitList ++ w.waitList

def guids (w : WaitLists) : List UInt32 := w.queue.map Prod.snd

/-- The entries that have not expired at the attempt. -/
def unexpired (w : WaitLists) (a : LoginAttempt) : WaitLists where
  priorityWaitList := w.priorityWaitList.filter (a.priorityTime < ·.1)
  waitList := w.waitList.filter (a.waitTime < ·.1)

/-- The number of unexpired entries before the player's own or, for a player without one, before
the place where it goes. -/
def ahead (w : WaitLists) (a : LoginAttempt) : Nat :=
  if a.guid ∉ (w.unexpired a).guids ∧ a.premium then (w.unexpired a).priorityWaitList.length
  else (w.unexpired a).guids.idxOf a.guid

def extend (w : WaitLists) (guid : UInt32) (timeout : Nat) : WaitLists where
  priorityWaitList := w.priorityWaitList.map fun e => if e.2 = guid then (timeout, guid) else e
  waitList := w.waitList.map fun e => if e.2 = guid then (timeout, guid) else e

def join (w : WaitLists) (premium : Bool) (entry : WaitEntry) : WaitLists :=
  if premium then { w with priorityWaitList := w.priorityWaitList ++ [entry] }
  else { w with waitList := w.waitList ++ [entry] }

def Fits (w : WaitLists) (a : LoginAttempt) : Prop :=
  a.maxPlayers = 0 ∨ a.playersOnline + (w.ahead a + 1) ≤ a.maxPlayers

/-- What an attempt owes the waiting players, with its slot and the lists after it. -/
structure Fair (w : WaitLists) (a : LoginAttempt) (slot : Nat) (w' : WaitLists) : Prop where
  place : slot ≠ 0 → slot = w.ahead a + 1
  retry : slot ≠ 0 → a.guid ∈ (w.unexpired a).guids →
    w' = (w.unexpired a).extend a.guid (a.now + getTimeout slot * 1000)
  first : slot ≠ 0 → a.guid ∉ (w.unexpired a).guids →
    w' = (w.unexpired a).join a.premium (a.now + getTimeout slot * 1000, a.guid)
  admitted : slot = 0 → Exempt a ∨ w.Fits a
  others : slot = 0 → (w'.unexpired a).queue.filter (·.2 ≠ a.guid) =
    (w.unexpired a).queue.filter (·.2 ≠ a.guid)

/-- The entries from the player's own to the end of its list, and the priority entries before
them if it is in the other list. -/
def behind (w : WaitLists) (a : LoginAttempt) : Nat :=
  let priority := (w.unexpired a).priorityWaitList.map Prod.snd
  let wait := (w.unexpired a).waitList.map Prod.snd
  if a.guid ∈ priority then priority.length - priority.idxOf a.guid
  else priority.length + (wait.length - wait.idxOf a.guid)

/-- The attempt is not that of a player with an entry, unless the player is let in and both the
entries ahead and the entries behind leave it a place. -/
def Undisturbed (w : WaitLists) (a : LoginAttempt) : Prop :=
  Exempt a ∨ a.maxPlayers = 0 ∨ a.guid ∉ (w.unexpired a).guids ∨
    a.playersOnline + (w.behind a + 1) ≤ a.maxPlayers ∧ w.Fits a

/-! ## One attempt -/

variable {w w' : WaitLists} {a : LoginAttempt} {guid : UInt32}

theorem cleanupList_eq_filter (time : Nat) (list : List WaitEntry) :
    cleanupList time list = list.filter (time < ·.1) := by
  induction list with
  | nil => rfl
  | cons entry list ih =>
    by_cases h : entry.1 ≤ time
    · simp [cleanupList, h, ih, not_lt.mpr h]
    · simp [cleanupList, h, ih, not_le.mp h]

theorem findIdx_eq_idxOf (list : List WaitEntry) (guid : UInt32) :
    list.findIdx (·.2 == guid) = (list.map Prod.snd).idxOf guid := by
  rw [List.idxOf, List.findIdx_map]
  rfl

theorem filter_eraseIdx_findIdx {α : Type*} (p : α → Bool) (list : List α) :
    (list.eraseIdx (list.findIdx p)).filter (!p ·) = list.filter (!p ·) := by
  induction list with
  | nil => rfl
  | cons entry list ih =>
    by_cases h : p entry = true
    · simp [List.findIdx_cons, h]
    · simp [List.findIdx_cons, h, ih]

theorem guids_eq : w.guids =
    w.priorityWaitList.map Prod.snd ++ w.waitList.map Prod.snd := by
  simp [guids, queue]

theorem findClient_of_notMem (h : guid ∉ w.guids) :
    w.findClient guid =
      (.waitList, w.waitList.length, w.priorityWaitList.length + w.waitList.length) := by
  rw [guids_eq, List.mem_append, not_or] at h
  have hpriority := List.idxOf_eq_length h.1
  have hwait := List.idxOf_eq_length h.2
  rw [List.length_map] at hpriority hwait
  simp [findClient, findIdx_eq_idxOf, hpriority, hwait]

theorem findClient_of_mem (h : guid ∈ w.guids) :
    ∃ list, w.findClient guid = (list, (w.get list).findIdx (·.2 == guid),
        (if guid ∈ w.priorityWaitList.map Prod.snd then
          w.priorityWaitList.length - (w.priorityWaitList.map Prod.snd).idxOf guid
        else w.priorityWaitList.length +
          (w.waitList.length - (w.waitList.map Prod.snd).idxOf guid)) + 1) ∧
      (w.get list).findIdx (·.2 == guid) < (w.get list).length := by
  by_cases hpriority : guid ∈ w.priorityWaitList.map Prod.snd
  · have hlt := List.idxOf_lt_length_of_mem hpriority
    rw [List.length_map] at hlt
    refine ⟨.priorityWaitList, ?_, ?_⟩
    · simp only [findClient, findIdx_eq_idxOf, if_pos hlt.ne, if_pos hpriority, get]
    · rwa [get, findIdx_eq_idxOf]
  · have hwait : guid ∈ w.waitList.map Prod.snd := by
      rw [guids_eq, List.mem_append] at h
      exact h.resolve_left hpriority
    have hend := List.idxOf_eq_length hpriority
    have hlt := List.idxOf_lt_length_of_mem hwait
    rw [List.length_map] at hend hlt
    refine ⟨.waitList, ?_, ?_⟩
    · simp only [findClient, findIdx_eq_idxOf, hend, ne_eq, not_true, if_false, hlt.ne,
        not_false_eq_true, if_true, if_neg hpriority, get]
    · rwa [get, findIdx_eq_idxOf]

theorem cleanup_eq_unexpired : w.cleanup a = w.unexpired a := by
  simp [cleanup, unexpired, cleanupList_eq_filter]

theorem enter_of_notMem (h : a.guid ∉ w.guids) :
    w.enter a =
      let slot := (if a.premium then w.priorityWaitList.length else w.guids.length) + 1
      (slot, w.join a.premium (a.now + getTimeout slot * 1000, a.guid)) := by
  unfold enter
  rw [findClient_of_notMem h]
  by_cases hpremium : a.premium = true
  · simp [get, hpremium, set, join]
  · simp [get, hpremium, set, join, guids, queue]

theorem enter_of_mem (h : a.guid ∈ w.guids)
    (hfits : a.playersOnline + (w.findClient a.guid).2.2 ≤ a.maxPlayers) :
    ∃ list, w.enter a = (0, w.set list
      ((w.get list).eraseIdx ((w.get list).findIdx (·.2 == a.guid)))) := by
  obtain ⟨list, hfind, hlt⟩ := findClient_of_mem h
  refine ⟨list, ?_⟩
  rw [hfind] at hfits
  unfold enter
  rw [hfind]
  dsimp only
  rw [if_pos hlt.ne, if_pos hfits]

theorem ahead_of_notMem (h : a.guid ∉ (w.unexpired a).guids) :
    w.ahead a = if a.premium then (w.unexpired a).priorityWaitList.length
      else (w.unexpired a).guids.length := by
  unfold ahead
  by_cases hpremium : a.premium = true
  · rw [if_pos ⟨h, hpremium⟩, if_pos hpremium]
  · rw [if_neg fun hp => hpremium hp.2, if_neg hpremium, List.idxOf_eq_length h]

theorem findClient_slot (h : a.guid ∈ (w.unexpired a).guids) :
    ((w.unexpired a).findClient a.guid).2.2 = w.behind a + 1 := by
  obtain ⟨list, hfind, -⟩ := findClient_of_mem h
  rw [hfind]
  simp [behind]

theorem ahead_of_empty (h : (w.unexpired a).guids = []) : w.ahead a = 0 := by
  have hnil := h
  rw [guids_eq, List.append_eq_nil_iff, List.map_eq_nil_iff] at hnil
  rw [ahead_of_notMem (by simp [h]), h, hnil.1]
  simp

theorem fits_of_direct (h : (w.unexpired a).Direct a) : w.Fits a := by
  rcases h with hzero | ⟨hpriority, hwait, hlt⟩
  · exact .inl hzero
  · have hempty : (w.unexpired a).guids = [] := by
      rw [guids_eq, List.isEmpty_iff.mp hpriority, List.isEmpty_iff.mp hwait]
      rfl
    right
    rw [ahead_of_empty hempty]
    exact hlt

theorem unexpired_unexpired : (w.unexpired a).unexpired a = w.unexpired a := by
  simp [unexpired]

def erased (w : WaitLists) (list : Which) (guid : UInt32) : WaitLists :=
  w.set list ((w.get list).eraseIdx ((w.get list).findIdx (·.2 == guid)))

theorem clientLogin_cases (h : w.Undisturbed a) :
    (Exempt a ∧ w.clientLogin a = (0, w)) ∨
      (w.Fits a ∧ w.clientLogin a = (0, w.unexpired a)) ∨
      (a.guid ∉ (w.unexpired a).guids ∧ w.clientLogin a =
        (w.ahead a + 1, (w.unexpired a).join a.premium
          (a.now + getTimeout (w.ahead a + 1) * 1000, a.guid))) ∨
      (w.Fits a ∧ ∃ list, w.clientLogin a = (0, (w.unexpired a).erased list a.guid)) := by
  unfold clientLogin
  rw [cleanup_eq_unexpired]
  by_cases hexempt : Exempt a
  · exact .inl ⟨hexempt, if_pos hexempt⟩
  rw [if_neg hexempt]
  by_cases hdirect : (w.unexpired a).Direct a
  · exact .inr (.inl ⟨fits_of_direct hdirect, if_pos hdirect⟩)
  rw [if_neg hdirect]
  by_cases hmem : a.guid ∈ (w.unexpired a).guids
  · obtain ⟨hplace, hfits⟩ :=
      ((h.resolve_left hexempt).resolve_left fun hzero => hdirect (.inl hzero)).resolve_left
        fun hnot => hnot hmem
    rw [← findClient_slot hmem] at hplace
    exact .inr (.inr (.inr ⟨hfits, enter_of_mem hmem hplace⟩))
  · refine .inr (.inr (.inl ⟨hmem, ?_⟩))
    rw [enter_of_notMem hmem, ← ahead_of_notMem hmem]

theorem erased_sublist (w : WaitLists) (list : Which) (guid : UInt32) :
    (w.erased list guid).priorityWaitList.Sublist w.priorityWaitList ∧
      (w.erased list guid).waitList.Sublist w.waitList := by
  cases list with
  | priorityWaitList => exact ⟨List.eraseIdx_sublist _ _, .refl _⟩
  | waitList => exact ⟨.refl _, List.eraseIdx_sublist _ _⟩

theorem filter_erased (w : WaitLists) (list : Which) (guid : UInt32) :
    (w.erased list guid).queue.filter (·.2 ≠ guid) = w.queue.filter (·.2 ≠ guid) := by
  have hne : (fun e : WaitEntry => decide (e.2 ≠ guid)) = fun e => !(e.2 == guid) := by
    funext e
    by_cases h : e.2 = guid <;> simp [h]
  have hfilter := filter_eraseIdx_findIdx fun e : WaitEntry => e.2 == guid
  rw [hne]
  cases list with
  | priorityWaitList => simp [queue, erased, set, get, hfilter]
  | waitList => simp [queue, erased, set, get, hfilter]

theorem unexpired_of_sublist
    (hpriority : w'.priorityWaitList.Sublist (w.unexpired a).priorityWaitList)
    (hwait : w'.waitList.Sublist (w.unexpired a).waitList) : w'.unexpired a = w' := by
  have hp : w'.priorityWaitList.filter (a.priorityTime < ·.1) = w'.priorityWaitList :=
    List.filter_eq_self.mpr fun e he => (List.mem_filter.mp (hpriority.subset he)).2
  have hw : w'.waitList.filter (a.waitTime < ·.1) = w'.waitList :=
    List.filter_eq_self.mpr fun e he => (List.mem_filter.mp (hwait.subset he)).2
  unfold unexpired
  rw [hp, hw]

theorem fair_clientLogin (h : w.Undisturbed a) :
    w.Fair a (w.clientLogin a).1 (w.clientLogin a).2 := by
  rcases clientLogin_cases h with
    ⟨hexempt, heq⟩ | ⟨hfits, heq⟩ | ⟨hfirst, heq⟩ | ⟨hfits, list, heq⟩
  · rw [heq]
    exact ⟨fun h => absurd rfl h, fun h => absurd rfl h, fun h => absurd rfl h,
      fun _ => .inl hexempt, fun _ => rfl⟩
  · rw [heq]
    exact ⟨fun h => absurd rfl h, fun h => absurd rfl h, fun h => absurd rfl h,
      fun _ => .inr hfits, fun _ => by rw [unexpired_unexpired]⟩
  · rw [heq]
    exact ⟨fun _ => rfl, fun _ hmem => absurd hmem hfirst, fun _ _ => rfl,
      fun h => absurd h (Nat.succ_ne_zero _), fun h => absurd h (Nat.succ_ne_zero _)⟩
  · rw [heq]
    obtain ⟨hpriority, hwait⟩ := erased_sublist (w.unexpired a) list a.guid
    exact ⟨fun h => absurd rfl h, fun h => absurd rfl h, fun h => absurd rfl h,
      fun _ => .inr hfits,
      fun _ => by rw [unexpired_of_sublist hpriority hwait, filter_erased]⟩

/-! ## Runs -/

theorem guids_sublist (hpriority : w'.priorityWaitList.Sublist w.priorityWaitList)
    (hwait : w'.waitList.Sublist w.waitList) : w'.guids.Sublist w.guids :=
  (hpriority.append hwait).map _

theorem guids_unexpired_sublist (w : WaitLists) (a : LoginAttempt) :
    (w.unexpired a).guids.Sublist w.guids :=
  guids_sublist List.filter_sublist List.filter_sublist

theorem guids_join_perm (w : WaitLists) (premium : Bool) (entry : WaitEntry) :
    (w.join premium entry).guids.Perm (entry.2 :: w.guids) := by
  cases premium with
  | true => simp [join, guids_eq]
  | false =>
    simpa [join, guids_eq] using List.perm_append_singleton entry.2
      (w.priorityWaitList.map Prod.snd ++ w.waitList.map Prod.snd)

theorem nodup_clientLogin (h : w.Undisturbed a) (hw : w.guids.Nodup) :
    (w.clientLogin a).2.guids.Nodup := by
  have hclean : (w.unexpired a).guids.Nodup := (guids_unexpired_sublist w a).nodup hw
  rcases clientLogin_cases h with
    ⟨-, heq⟩ | ⟨-, heq⟩ | ⟨hfirst, heq⟩ | ⟨-, list, heq⟩
  · rwa [heq]
  · rwa [heq]
  · rw [heq, (guids_join_perm _ _ _).nodup_iff]
    exact hclean.cons hfirst
  · rw [heq]
    obtain ⟨hpriority, hwait⟩ := erased_sublist (w.unexpired a) list a.guid
    exact (guids_sublist hpriority hwait).nodup hclean

def logins : Run.System WaitLists LoginAttempt where
  init w := w = ⟨[], []⟩
  step w a w' := w' = (w.clientLogin a).2

/-- While no player with an entry is made to wait again, no guid has two entries and every such
attempt is served in its turn. -/
theorem fair_of_reachable (h : Run.ReachableBy logins Undisturbed w) :
    w.guids.Nodup ∧ ∀ a, w.Undisturbed a → w.Fair a (w.clientLogin a).1 (w.clientLogin a).2 := by
  refine ⟨?_, fun a ha => fair_clientLogin ha⟩
  refine h.invariant (I := fun w => w.guids.Nodup) ?_ ?_
  · rintro w rfl
    exact List.nodup_nil
  · rintro w a w' hw ha rfl
    exact nodup_clientLogin ha hw

def freeAttempt (guid : UInt32) (time : Nat) : LoginAttempt where
  guid := guid
  canAlwaysLogin := false
  accountType := 1
  premium := false
  playersOnline := 1
  maxPlayers := 1
  priorityTime := time
  waitTime := time
  now := time

def oneWaiting : WaitLists := ⟨[], [(20000, 7)]⟩

theorem oneWaiting_eq : oneWaiting = (clientLogin ⟨[], []⟩ (freeAttempt 7 0)).2 := by decide

theorem fair_of_oneWaiting :
    oneWaiting.guids.Nodup ∧ ∀ a, oneWaiting.Undisturbed a →
      oneWaiting.Fair a (oneWaiting.clientLogin a).1 (oneWaiting.clientLogin a).2 :=
  fair_of_reachable (.step (i := freeAttempt 7 0) (.init rfl)
    (.inr (.inr (.inl (by decide)))) oneWaiting_eq)

/-- The second attempt of the only waiting player gets slot 2, and the guid in its entry becomes a
clock reading. -/
theorem unfair_retry :
    ¬ ∀ w, Run.Reachable logins w →
      w.guids.Nodup ∧ ∀ a, w.Fair a (w.clientLogin a).1 (w.clientLogin a).2 := by
  intro h
  have hreach : Run.Reachable logins oneWaiting :=
    .step (i := freeAttempt 7 0) (.init rfl) trivial oneWaiting_eq
  have hfair := (h _ hreach).2 (freeAttempt 7 5000)
  have hplace := hfair.place (by decide)
  revert hplace
  decide

end WaitLists

end Eloth
