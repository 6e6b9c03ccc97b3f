import Mathlib.Data.List.Infix
import Eloth.Lib.Run

/-!
# The write queue of a connection

Messages are sent one asynchronous write at a time. The sender starts a write when the queue was
empty, and the handler of a finished write starts the next one. Every handler holds the
connection's lock, so a run is any order of these handlers.
-/

namespace Eloth

variable {M : Type*}

/-- What one call of `internalSend` meets: the bytes that the protocol makes of a message, and
whether the timer or the socket throws before the write is started. -/
structure WriteAttempt (M : Type*) where
  onSendMessage : M → List UInt8
  throws : Bool

/-- The queue, with the writes in flight, the messages that were handed to the socket with their
bytes, and the messages that `send` took, the first one first. -/
structure Connection (M : Type*) where
  messageQueue : List M
  closed : Bool
  socketOpen : Bool
  inFlight : List M
  handed : List (M × List UInt8)
  accepted : List M
  deriving DecidableEq

abbrev FORCE_CLOSE : Bool := true

namespace Connection

def handedMessages (c : Connection M) : List M := c.handed.map Prod.fst

def closeSocket (c : Connection M) : Connection M := { c with socketOpen := false }

def close (c : Connection M) (force : Bool) : Connection M :=
  if c.closed then c
  else
    let c := { c with closed := true }
    if c.messageQueue.isEmpty || force then c.closeSocket else c

def internalSend (c : Connection M) (msg : M) (write : WriteAttempt M) : Connection M :=
  if write.throws then c.close FORCE_CLOSE
  else { c with
    inFlight := c.inFlight ++ [msg]
    handed := c.handed ++ [(msg, write.onSendMessage msg)] }

def send (c : Connection M) (msg : M) (write : WriteAttempt M) : Connection M :=
  if c.closed then c
  else
    let noPendingWrite := c.messageQueue.isEmpty
    let c := { c with
      messageQueue := c.messageQueue ++ [msg]
      accepted := c.accepted ++ [msg] }
    if noPendingWrite then c.internalSend msg write else c

/-- The handler of the `i`-th write in flight. -/
def onWriteOperation (c : Connection M) (i : Nat) (error : Bool) (write : WriteAttempt M) :
    Connection M :=
  let c := { c with inFlight := c.inFlight.eraseIdx i, messageQueue := c.messageQueue.tail }
  if error then { c with messageQueue := [] }.close FORCE_CLOSE
  else
    match c.messageQueue with
    | msg :: _ => c.internalSend msg write
    | [] => if c.closed then c.closeSocket else c

def handleTimeout (c : Connection M) (aborted : Bool) : Connection M :=
  if aborted then c else c.close FORCE_CLOSE

inductive Event (M : Type*) where
  | send (msg : M) (write : WriteAttempt M)
  | onWriteOperation (i : Nat) (error : Bool) (write : WriteAttempt M)
  | close (force : Bool)
  | handleTimeout (aborted : Bool)

def apply (c : Connection M) : Event M → Connection M
  | .send msg write => c.send msg write
  | .onWriteOperation i error write => c.onWriteOperation i error write
  | .close force => c.close force
  | .handleTimeout aborted => c.handleTimeout aborted

/-- Only a write in flight can finish. -/
def Enabled (c : Connection M) : Event M → Prop
  | .onWriteOperation i _ _ => i < c.inFlight.length
  | _ => True

def handlers (M : Type*) : Run.System (Connection M) (Event M) where
  init c := ∃ socketOpen, c = ⟨[], false, socketOpen, [], [], []⟩
  step c e c' := c.Enabled e ∧ c' = c.apply e

/-! ## The invariant -/

/-- The front of the queue is being written, and the rest of the queue waits for it. -/
@[mk_iff live_iff]
structure Live (c : Connection M) : Prop where
  front : c.inFlight = c.messageQueue.head?.toList
  account : c.accepted = c.handedMessages ++ c.messageQueue.tail

/-- A write could not be started or failed, and none is started any more. -/
structure Broken (c : Connection M) : Prop where
  closed : c.closed = true
  idle : c.inFlight = []
  handed : c.handedMessages <+: c.accepted

def Invariant (c : Connection M) : Prop := c.Live ∨ c.Broken

variable {c c' : Connection M} {e : Event M} {msg : M} {write : WriteAttempt M}

theorem close_frame (c : Connection M) (force : Bool) :
    ∃ socketOpen, c.close force = { c with closed := true, socketOpen := socketOpen } := by
  by_cases hclosed : c.closed
  · exact ⟨c.socketOpen, by simp [Connection.close, ← hclosed]⟩
  · simp only [Connection.close, if_neg hclosed, closeSocket]
    by_cases hsocket : c.messageQueue.isEmpty || force
    · exact ⟨false, by simp only [if_pos hsocket]⟩
    · exact ⟨c.socketOpen, by simp only [if_neg hsocket]⟩

theorem Broken.of_close (hidle : c.inFlight = []) (hhanded : c.handedMessages <+: c.accepted)
    (force : Bool) : (c.close force).Broken := by
  obtain ⟨socketOpen, hframe⟩ := close_frame c force
  rw [hframe]
  exact ⟨rfl, hidle, hhanded⟩

theorem Invariant.close (h : c.Invariant) (force : Bool) : (c.close force).Invariant := by
  rcases h with hlive | hbroken
  · obtain ⟨socketOpen, hframe⟩ := close_frame c force
    rw [hframe]
    exact .inl ⟨hlive.front, hlive.account⟩
  · exact .inr (Broken.of_close hbroken.idle hbroken.handed force)

/-- The front of the queue is handed over while nothing is in flight and the messages before it
have all been handed over. -/
theorem invariant_internalSend {rest : List M} (hqueue : c.messageQueue = msg :: rest)
    (hidle : c.inFlight = []) (haccount : c.accepted = c.handedMessages ++ c.messageQueue) :
    (c.internalSend msg write).Invariant := by
  unfold internalSend
  split_ifs with hthrows
  · exact .inr (Broken.of_close hidle ⟨c.messageQueue, haccount.symm⟩ _)
  · refine .inl ⟨by simp [hidle, hqueue], ?_⟩
    simp [handedMessages] at haccount ⊢
    simp [haccount, hqueue]

theorem Invariant.send (h : c.Invariant) (msg : M) (write : WriteAttempt M) :
    (c.send msg write).Invariant := by
  simp only [Connection.send]
  by_cases hclosed : c.closed
  · rwa [if_pos hclosed]
  rcases h with hlive | hbroken
  · rw [if_neg hclosed]
    cases hqueue : c.messageQueue with
    | nil =>
      -- the sender starts the write itself
      have haccount : c.accepted = c.handedMessages := by simpa [hqueue] using hlive.account
      refine invariant_internalSend (@rfl _ [msg]) ?_ ?_
      · simpa [hqueue] using hlive.front
      · simpa [handedMessages] using haccount
    | cons front rest =>
      -- the message waits behind the write in flight
      have haccount : c.accepted = c.handedMessages ++ rest := by
        simpa [hqueue] using hlive.account
      refine .inl ⟨by simpa [hqueue] using hlive.front, ?_⟩
      simp [haccount, handedMessages]
  · exact absurd hbroken.closed hclosed

/-- The write in flight is the front of the queue. -/
theorem Live.uncons (h : c.Live) {i : Nat} (hi : i < c.inFlight.length) : i = 0 ∧
    ∃ front rest, c.messageQueue = front :: rest ∧ c.inFlight = [front] ∧
      c.accepted = c.handedMessages ++ rest := by
  cases hqueue : c.messageQueue with
  | nil => simp [h.front, hqueue] at hi
  | cons front rest =>
    have hinFlight : c.inFlight = [front] := by simpa [hqueue] using h.front
    have haccount : c.accepted = c.handedMessages ++ rest := by simpa [hqueue] using h.account
    exact ⟨by simpa [hinFlight] using hi, front, rest, rfl, hinFlight, haccount⟩

theorem Invariant.onWriteOperation (h : c.Invariant) {i : Nat} (hi : i < c.inFlight.length)
    (error : Bool) (write : WriteAttempt M) : (c.onWriteOperation i error write).Invariant := by
  rcases h with hlive | hbroken
  · obtain ⟨rfl, front, rest, hqueue, hinFlight, haccount⟩ := hlive.uncons hi
    simp only [Connection.onWriteOperation, hqueue, hinFlight, List.tail_cons,
      List.eraseIdx_cons_zero]
    cases error with
    | true =>
      rw [if_pos rfl]
      refine .inr (Broken.of_close ?_ ?_ _)
      · rfl
      · exact ⟨rest, haccount.symm⟩
    | false =>
      cases rest with
      | nil =>
        by_cases hclosed : c.closed
        · exact .inl ⟨by simp [hclosed, closeSocket],
            by simpa [hclosed, closeSocket, handedMessages] using haccount⟩
        · exact .inl ⟨by simp [hclosed], by simpa [hclosed, handedMessages] using haccount⟩
      | cons next rest => exact invariant_internalSend rfl rfl haccount
  · simp [hbroken.idle] at hi

theorem Invariant.step (h : c.Invariant) (hs : (handlers M).step c e c') : c'.Invariant := by
  obtain ⟨henabled, rfl⟩ := hs
  cases e with
  | send msg write => exact h.send msg write
  | onWriteOperation i error write => exact h.onWriteOperation henabled error write
  | close force => exact h.close force
  | handleTimeout aborted =>
    cases aborted with
    | true => exact h
    | false => exact h.close _

theorem invariant_of_reachable (h : Run.Reachable (handlers M) c) : c.Invariant := by
  refine h.invariant ?_ fun c e c' hc hs => hc.step hs
  rintro c ⟨socketOpen, rfl⟩
  exact .inl ⟨rfl, rfl⟩

/-! ## Delivery -/

/-- Successful completions of the writes in flight, one after the other. -/
def drain (write : WriteAttempt M) : Nat → Connection M → Connection M
  | 0, c => c
  | n + 1, c => drain write n (c.onWriteOperation 0 false write)

/-- A successful completion hands over the next message. -/
theorem Live.onWriteOperation (h : c.Live) (hwrite : write.throws = false) {front : M}
    {rest : List M} (hqueue : c.messageQueue = front :: rest) :
    (c.onWriteOperation 0 false write).Live ∧
      (c.onWriteOperation 0 false write).messageQueue = rest ∧
      (c.onWriteOperation 0 false write).accepted = c.accepted := by
  have hinFlight : c.inFlight = [front] := by simpa [hqueue] using h.front
  have haccount : c.accepted = c.handedMessages ++ rest := by simpa [hqueue] using h.account
  cases rest with
  | nil =>
    by_cases hclosed : c.closed
    · simpa [Connection.onWriteOperation, hqueue, hinFlight, hclosed, closeSocket, live_iff,
        handedMessages] using haccount
    · simpa [Connection.onWriteOperation, hqueue, hinFlight, hclosed, live_iff,
        handedMessages] using haccount
  | cons next rest =>
    simpa [Connection.onWriteOperation, hqueue, hinFlight, internalSend, hwrite, live_iff,
      handedMessages] using haccount

theorem Live.drain (h : c.Live) (hwrite : write.throws = false) {queue : List M}
    (hqueue : c.messageQueue = queue) :
    (drain write queue.length c).handedMessages = c.accepted := by
  induction queue generalizing c with
  | nil => simp [Connection.drain, h.account, hqueue]
  | cons front rest ih =>
    obtain ⟨hlive, hrest, haccepted⟩ := h.onWriteOperation hwrite hqueue
    rw [← haccepted]
    exact ih hlive hrest

/-- What holds of a connection in every order of its handlers. -/
structure Delivers (c : Connection M) : Prop where
  in_order : c.handedMessages <+: c.accepted
  once : c.closed = false ∨ c.inFlight ≠ [] →
    c.accepted = c.handedMessages ++ c.messageQueue.tail
  one_in_flight : c.inFlight.length ≤ 1
  front_in_flight : ∀ msg ∈ c.inFlight, c.messageQueue.head? = some msg
  written : c.closed = false → c.messageQueue ≠ [] → c.inFlight ≠ []
  all_handed : c.closed = false ∨ c.inFlight ≠ [] → ∀ write : WriteAttempt M,
    write.throws = false → (drain write c.messageQueue.length c).handedMessages = c.accepted

theorem delivers_of_reachable : ∀ c, Run.Reachable (handlers M) c → c.Delivers := by
  intro c h
  rcases invariant_of_reachable h with hlive | hbroken
  · have hfront := hlive.front
    refine ⟨⟨_, hlive.account.symm⟩, fun _ => hlive.account, ?_, ?_, ?_, ?_⟩
    · rw [hfront]
      cases c.messageQueue.head? <;> simp
    · intro msg hmsg
      rw [hfront] at hmsg
      simpa using hmsg
    · intro _ hqueue
      obtain ⟨front, rest, hcons⟩ := List.exists_cons_of_ne_nil hqueue
      simp [hfront, hcons]
    · intro _ write hwrite
      exact hlive.drain hwrite rfl
  · have hstopped : ¬ (c.closed = false ∨ c.inFlight ≠ []) := by
      simp [hbroken.closed, hbroken.idle]
    refine ⟨hbroken.handed, fun hopen => absurd hopen hstopped, by simp [hbroken.idle],
      by simp [hbroken.idle], ?_, fun hopen => absurd hopen hstopped⟩
    intro hopen
    simp [hbroken.closed] at hopen

/-! Two messages are sent before the first write finishes. -/

def plainWrite : WriteAttempt UInt8 := ⟨fun msg => [msg], false⟩

theorem delivers_of_twoSends :
    let c : Connection UInt8 := ⟨[7], false, true, [7], [(5, [5]), (7, [7])], [5, 7]⟩
    c.Delivers ∧ c.handedMessages = [5, 7] :=
  ⟨delivers_of_reachable _ (.step (i := .onWriteOperation 0 false plainWrite)
    (.step (i := .send 7 plainWrite) (.step (i := .send 5 plainWrite) (.init ⟨true, rfl⟩) trivial
      ⟨trivial, rfl⟩) trivial ⟨trivial, rfl⟩) trivial ⟨Nat.zero_lt_one, rfl⟩), rfl⟩

end Connection

end Eloth
