import Mathlib.Data.List.Basic

/-!
# A queue with a condition variable

Threads put items behind a queue, each under the lock of the queue, and who finds the queue empty
owes a signal that is given some time later. The consumer sleeps when it finds the queue empty.
Items are taken from the front, in batches, by the consumer or by another thread.
-/

namespace Eloth.SignalledQueue

/-- The queue with what was ever put into it and taken out of it. -/
structure State (α : Type*) where
  queue : List α
  asleep : Bool
  signals : Nat
  added : List α
  taken : List α

variable {α : Type*} {s s' : State α}

inductive Step : State α → State α → Prop
  | add (s : State α) (a : α) : Step s { s with
      queue := s.queue ++ [a]
      signals := s.signals + if s.queue.isEmpty then 1 else 0
      added := s.added ++ [a] }
  | addAndSignal (s : State α) (a : α) : Step s { s with
      queue := s.queue ++ [a]
      asleep := false
      added := s.added ++ [a] }
  | oweSignal (s : State α) : Step s { s with signals := s.signals + 1 }
  | signal (s : State α) (n : Nat) (h : s.signals = n + 1) : Step s { s with
      asleep := false
      signals := n }
  | sleep (s : State α) (h : s.queue = []) : Step s { s with asleep := true }
  | wake (s : State α) : Step s { s with asleep := false }
  | take (s : State α) (batch rest : List α) (h : s.queue = batch ++ rest) : Step s { s with
      queue := rest
      taken := s.taken ++ batch }

/-- Nothing is lost or taken out of order, and the consumer does not sleep through an item. -/
structure Sound (s : State α) : Prop where
  added_eq : s.added = s.taken ++ s.queue
  owed : s.asleep = true → s.queue ≠ [] → 0 < s.signals

theorem Sound.step (h : Sound s) (hstep : Step s s') : Sound s' := by
  obtain ⟨hadded, howed⟩ := h
  cases hstep with
  | add a =>
    refine ⟨by simp only [hadded, List.append_assoc], fun hasleep _ => ?_⟩
    cases hqueue : s.queue with
    | nil => simp
    | cons b rest =>
      have hpos := howed hasleep (by simp [hqueue])
      simpa using hpos
  | addAndSignal a => exact ⟨by simp only [hadded, List.append_assoc], nofun⟩
  | oweSignal => exact ⟨hadded, fun _ _ => Nat.succ_pos _⟩
  | signal n h => exact ⟨hadded, nofun⟩
  | sleep h => exact ⟨hadded, fun _ hne => absurd h hne⟩
  | wake => exact ⟨hadded, nofun⟩
  | take batch rest h =>
    refine ⟨by simp only [hadded, h, List.append_assoc], fun hasleep hrest => ?_⟩
    exact howed hasleep fun hqueue => hrest (List.append_eq_nil_iff.mp (h ▸ hqueue)).2

/-- Once no signal is owed, a consumer that sleeps has left nothing behind. -/
theorem Sound.taken_of_asleep (h : Sound s) (hasleep : s.asleep = true) (hnone : s.signals = 0) :
    s.added = s.taken := by
  have hqueue : s.queue = [] := by
    by_contra hne
    have hpos := h.owed hasleep hne
    omega
  rw [h.added_eq, hqueue, List.append_nil]

end Eloth.SignalledQueue
