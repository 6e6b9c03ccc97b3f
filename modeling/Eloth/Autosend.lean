import Mathlib.Logic.Function.Basic
import Mathlib.Data.List.Basic
import Eloth.Lib.Run
import Eloth.NetworkMessage

/-!
# The pool of protocols that send automatically

Each protocol collects its output in a buffer. A task of the scheduler sends the buffers of the
protocols in the pool and schedules itself again while the pool is not empty.
-/

namespace Eloth

abbrev NetworkMessage.MAX_PROTOCOL_BODY_LENGTH : Nat := MAX_BODY_LENGTH - 10

/-- `bufferedProtocols`, the `sendAll` tasks between their scheduling and their execution, and the
buffer of each protocol with the buffers it has sent. -/
structure OutputMessagePool (P : Type) where
  bufferedProtocols : List P := []
  pending : Nat := 0
  outputBuffer : P → Option (List UInt8) := fun _ => none
  sent : P → List (List UInt8) := fun _ => []

namespace OutputMessagePool

set_option linter.unusedSectionVars false

variable {P : Type} [DecidableEq P] (pool : OutputMessagePool P)

def scheduleSendAll : OutputMessagePool P := { pool with pending := pool.pending + 1 }

def send (p : P) (msg : List UInt8) : OutputMessagePool P :=
  { pool with sent := Function.update pool.sent p (pool.sent p ++ [msg]) }

def setBuffer (p : P) (buffer : Option (List UInt8)) : OutputMessagePool P :=
  { pool with outputBuffer := Function.update pool.outputBuffer p buffer }

/-- The send of one protocol in `sendAll`, which takes the buffer from the protocol. -/
def flush (p : P) : OutputMessagePool P :=
  match pool.outputBuffer p with
  | some msg => (pool.send p msg).setBuffer p none
  | none => pool

def sendAll : OutputMessagePool P :=
  let flushed := pool.bufferedProtocols.foldl flush { pool with pending := pool.pending - 1 }
  if pool.bufferedProtocols.isEmpty then flushed else flushed.scheduleSendAll

def addProtocolToAutosend (p : P) : OutputMessagePool P :=
  let scheduled := if pool.bufferedProtocols.isEmpty then pool.scheduleSendAll else pool
  { scheduled with bufferedProtocols := pool.bufferedProtocols ++ [p] }

/-- The found protocol changes places with the last one, which is then taken off. -/
def removeProtocolFromAutosend (p : P) : OutputMessagePool P :=
  match pool.bufferedProtocols.idxOf? p, pool.bufferedProtocols.getLast? with
  | some i, some last =>
    { pool with bufferedProtocols := (pool.bufferedProtocols.set i last).dropLast }
  | _, _ => pool

/-- `writeToOutputBuffer`: a buffer that the message does not fit in is sent before. -/
def writeToOutputBuffer (p : P) (msg : List UInt8) : OutputMessagePool P :=
  match pool.outputBuffer p with
  | none => pool.setBuffer p (some msg)
  | some buffer =>
    if buffer.length + msg.length > NetworkMessage.MAX_PROTOCOL_BODY_LENGTH then
      (pool.send p buffer).setBuffer p (some msg)
    else pool.setBuffer p (some (buffer ++ msg))

/-! ## Runs -/

inductive Call (P : Type) where
  | add (p : P)
  | remove (p : P)
  | write (p : P) (msg : List UInt8)
  | sendAll

/-- A task can fire when one is pending; everything else can happen at any time. -/
inductive Step : OutputMessagePool P → Call P → OutputMessagePool P → Prop
  | add {pool : OutputMessagePool P} {p : P} : Step pool (.add p) (pool.addProtocolToAutosend p)
  | remove {pool : OutputMessagePool P} {p : P} :
      Step pool (.remove p) (pool.removeProtocolFromAutosend p)
  | write {pool : OutputMessagePool P} {p : P} {msg : List UInt8} :
      Step pool (.write p msg) (pool.writeToOutputBuffer p msg)
  | sendAll {pool : OutputMessagePool P} (hpending : 0 < pool.pending) :
      Step pool .sendAll pool.sendAll

def system (P : Type) [DecidableEq P] : Run.System (OutputMessagePool P) (Call P) where
  init pool := pool = {}
  step := Step

/-- A protocol comes into the empty pool only after the last task of the former chain has fired. -/
def Rested : OutputMessagePool P → Call P → Prop
  | pool, .add _ => pool.bufferedProtocols = [] → pool.pending = 0
  | _, _ => True

/-- One task is pending for a pool that is not empty, and at most one for an empty pool. -/
def Chained : Prop := pool.pending ≤ 1 ∧ (pool.bufferedProtocols ≠ [] → pool.pending = 1)

variable {pool} {p q : P}

/-! ## What a firing sends -/

@[simp] theorem bufferedProtocols_setBuffer (buffer : Option (List UInt8)) :
    (pool.setBuffer p buffer).bufferedProtocols = pool.bufferedProtocols := rfl

@[simp] theorem pending_setBuffer (buffer : Option (List UInt8)) :
    (pool.setBuffer p buffer).pending = pool.pending := rfl

@[simp] theorem bufferedProtocols_send (msg : List UInt8) :
    (pool.send p msg).bufferedProtocols = pool.bufferedProtocols := rfl

@[simp] theorem pending_send (msg : List UInt8) : (pool.send p msg).pending = pool.pending := rfl

theorem flush_spec : (pool.flush p).bufferedProtocols = pool.bufferedProtocols ∧
    (pool.flush p).pending = pool.pending ∧ (pool.flush p).outputBuffer p = none ∧
    (pool.flush p).sent p = pool.sent p ++ (pool.outputBuffer p).toList := by
  unfold flush
  cases hbuffer : pool.outputBuffer p with
  | none => exact ⟨rfl, rfl, hbuffer, by simp⟩
  | some msg => exact ⟨rfl, rfl, by simp [setBuffer], by simp [setBuffer, send]⟩

theorem flush_other (hq : q ≠ p) : (pool.flush p).outputBuffer q = pool.outputBuffer q ∧
    (pool.flush p).sent q = pool.sent q := by
  unfold flush
  cases pool.outputBuffer p with
  | none => exact ⟨rfl, rfl⟩
  | some msg => exact ⟨by simp [setBuffer, send, hq], by simp [setBuffer, send, hq]⟩

/-- Each protocol of the list has sent its buffer once, also if it is in the list twice. -/
theorem foldl_flush (l : List P) (pool : OutputMessagePool P) :
    (l.foldl flush pool).bufferedProtocols = pool.bufferedProtocols ∧
    (l.foldl flush pool).pending = pool.pending ∧
    ∀ p, (p ∈ l → (l.foldl flush pool).outputBuffer p = none ∧
      (l.foldl flush pool).sent p = pool.sent p ++ (pool.outputBuffer p).toList) ∧
      (p ∉ l → (l.foldl flush pool).outputBuffer p = pool.outputBuffer p ∧
        (l.foldl flush pool).sent p = pool.sent p) := by
  induction l generalizing pool with
  | nil => exact ⟨rfl, rfl, fun p => ⟨fun h => by simp at h, fun _ => ⟨rfl, rfl⟩⟩⟩
  | cons first rest ih =>
    obtain ⟨hprotocols, hpending, hall⟩ := ih (pool.flush first)
    obtain ⟨hkeep, hkeep', hnone, hsent⟩ := @flush_spec P _ pool first
    refine ⟨hprotocols.trans hkeep, hpending.trans hkeep', fun p => ?_⟩
    rw [List.foldl_cons]
    by_cases hfirst : p = first
    · subst hfirst
      refine ⟨fun _ => ?_, fun h => absurd List.mem_cons_self h⟩
      by_cases hrest : p ∈ rest
      · obtain ⟨hbuffer, hmore⟩ := (hall p).1 hrest
        exact ⟨hbuffer, by rw [hmore, hsent, hnone]; simp⟩
      · obtain ⟨hbuffer, hmore⟩ := (hall p).2 hrest
        exact ⟨hbuffer.trans hnone, hmore.trans hsent⟩
    · obtain ⟨hbuffer, hmore⟩ := @flush_other P _ pool _ _ hfirst
      rw [List.mem_cons, or_iff_right hfirst, ← hbuffer, ← hmore]
      exact hall p

theorem sendAll_spec : pool.sendAll.bufferedProtocols = pool.bufferedProtocols ∧
    pool.sendAll.pending =
      pool.pending - 1 + (if pool.bufferedProtocols = [] then 0 else 1) ∧
    ∀ p ∈ pool.bufferedProtocols, pool.sendAll.outputBuffer p = none ∧
      pool.sendAll.sent p = pool.sent p ++ (pool.outputBuffer p).toList := by
  obtain ⟨hprotocols, hpending, hall⟩ :=
    foldl_flush pool.bufferedProtocols { pool with pending := pool.pending - 1 }
  unfold sendAll
  by_cases hempty : pool.bufferedProtocols = []
  · simp [hempty]
  · rw [if_neg (by simpa using hempty), if_neg hempty]
    exact ⟨hprotocols, congrArg (· + 1) hpending, fun p hp => (hall p).1 hp⟩

/-! ## The chain of tasks -/

theorem bufferedProtocols_remove (h : pool.bufferedProtocols = []) :
    (pool.removeProtocolFromAutosend p).bufferedProtocols = [] := by
  simp [removeProtocolFromAutosend, h]

theorem pending_remove : (pool.removeProtocolFromAutosend p).pending = pool.pending := by
  unfold removeProtocolFromAutosend
  split <;> rfl

theorem write_spec (msg : List UInt8) :
    (pool.writeToOutputBuffer p msg).bufferedProtocols = pool.bufferedProtocols ∧
    (pool.writeToOutputBuffer p msg).pending = pool.pending := by
  unfold writeToOutputBuffer
  split
  · exact ⟨rfl, rfl⟩
  · split <;> exact ⟨rfl, rfl⟩

theorem pending_add : (pool.addProtocolToAutosend p).pending =
    pool.pending + (if pool.bufferedProtocols = [] then 1 else 0) := by
  unfold addProtocolToAutosend scheduleSendAll
  by_cases hempty : pool.bufferedProtocols = []
  · simp [hempty]
  · simp [hempty]

theorem chained_add_iff (h : pool.Chained) :
    (pool.addProtocolToAutosend p).Chained ↔ Rested pool (.add p) := by
  have hne : (pool.addProtocolToAutosend p).bufferedProtocols ≠ [] := by
    simp [addProtocolToAutosend]
  rw [Chained, pending_add, Rested]
  obtain ⟨hle, heq⟩ := h
  by_cases hempty : pool.bufferedProtocols = []
  · simp [hempty]
    omega
  · simp [hempty, heq hempty]

theorem Chained.step {pool' : OutputMessagePool P} {call : Call P} (h : pool.Chained)
    (hrested : Rested pool call) (hstep : Step pool call pool') : pool'.Chained := by
  cases hstep with
  | add => exact (chained_add_iff h).mpr hrested
  | @remove p =>
    rw [Chained, pending_remove]
    exact ⟨h.1, fun hne => h.2 fun hempty => hne (bufferedProtocols_remove hempty)⟩
  | @write p msg =>
    obtain ⟨hprotocols, hpending⟩ := @write_spec P _ pool p msg
    rw [Chained, hprotocols, hpending]
    exact h
  | sendAll hpending =>
    obtain ⟨hprotocols, hpending', -⟩ := @sendAll_spec P _ pool
    obtain ⟨hle, -⟩ := h
    rw [Chained, hprotocols, hpending']
    by_cases hempty : pool.bufferedProtocols = []
    · simp [hempty]
      omega
    · simp [hempty]
      omega

/-- In a run whose adds all find the chain rested, one chain serves the pool, and its next task
sends the buffer of every protocol in the pool. -/
theorem one_chain (h : Run.ReachableBy (system P) Rested pool) :
    pool.pending ≤ 1 ∧ (pool.bufferedProtocols ≠ [] → pool.pending = 1) ∧
    ∀ p ∈ pool.bufferedProtocols, pool.sendAll.outputBuffer p = none ∧
      pool.sendAll.sent p = pool.sent p ++ (pool.outputBuffer p).toList := by
  have hchained : pool.Chained := by
    refine h.invariant (I := Chained) ?_ fun pool call pool' hw hc hs => hw.step hc hs
    rintro pool rfl
    exact ⟨by simp, fun hne => absurd rfl hne⟩
  exact ⟨hchained.1, hchained.2, sendAll_spec.2.2⟩

def oneProtocol : OutputMessagePool Nat :=
  (({} : OutputMessagePool Nat).addProtocolToAutosend 1).writeToOutputBuffer 1 [0x1E]

theorem reachable_oneProtocol : Run.ReachableBy (system Nat) Rested oneProtocol := by
  have hadded : Run.ReachableBy (system Nat) Rested
      (({} : OutputMessagePool Nat).addProtocolToAutosend 1) :=
    (Run.ReachableBy.init rfl).step (i := .add 1) (fun _ => rfl) Step.add
  exact hadded.step (i := .write 1 [0x1E]) trivial Step.write

theorem one_chain_oneProtocol : oneProtocol.pending ≤ 1 ∧
    (oneProtocol.bufferedProtocols ≠ [] → oneProtocol.pending = 1) ∧
    ∀ p ∈ oneProtocol.bufferedProtocols, oneProtocol.sendAll.outputBuffer p = none ∧
      oneProtocol.sendAll.sent p = oneProtocol.sent p ++ (oneProtocol.outputBuffer p).toList :=
  one_chain reachable_oneProtocol

/-- A protocol leaves the pool and the next one comes before the task has fired. -/
theorem two_chains : ¬ ∀ pool : OutputMessagePool Nat, Run.Reachable (system Nat) pool →
    pool.pending ≤ 1 ∧ (pool.bufferedProtocols ≠ [] → pool.pending = 1) := by
  intro hall
  have hleft : Run.Reachable (system Nat) (oneProtocol.removeProtocolFromAutosend 1) :=
    reachable_oneProtocol.reachable.step' (i := .remove 1) Step.remove
  have hback : Run.Reachable (system Nat)
      ((oneProtocol.removeProtocolFromAutosend 1).addProtocolToAutosend 2) :=
    hleft.step' (i := .add 2) Step.add
  have hpending := (hall _ hback).1
  revert hpending
  decide

end OutputMessagePool

end Eloth
