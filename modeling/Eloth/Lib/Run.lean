import Mathlib.Tactic.TypeStar

/-!
# Runs of a labelled system

The states that a system reaches, by any steps or by steps that all meet a condition, and the
rule that an invariant of the steps holds in each of them.
-/

namespace Eloth.Run

/-- Initial states and labelled steps. -/
structure System (σ ι : Type*) where
  init : σ → Prop
  step : σ → ι → σ → Prop

variable {σ ι : Type*} {S : System σ ι} {cond cond' : σ → ι → Prop} {I : σ → Prop}

/-- The states reached by steps that all meet the condition at their source state. -/
inductive ReachableBy (S : System σ ι) (cond : σ → ι → Prop) : σ → Prop
  | init {s : σ} (h : S.init s) : ReachableBy S cond s
  | step {s s' : σ} {i : ι} (h : ReachableBy S cond s) (hc : cond s i) (hs : S.step s i s') :
      ReachableBy S cond s'

def Reachable (S : System σ ι) : σ → Prop := ReachableBy S fun _ _ => True

/-- The states reached by any steps, together with the labels of the steps. -/
inductive Execution (S : System σ ι) : List ι → σ → Prop
  | init {s : σ} (h : S.init s) : Execution S [] s
  | step {s s' : σ} {i : ι} {is : List ι} (h : Execution S is s) (hs : S.step s i s') :
      Execution S (is ++ [i]) s'

theorem ReachableBy.invariant (h0 : ∀ s, S.init s → I s)
    (hstep : ∀ s i s', I s → cond s i → S.step s i s' → I s') {s : σ}
    (h : ReachableBy S cond s) : I s := by
  induction h with
  | init h => exact h0 _ h
  | step _ hc hs ih => exact hstep _ _ _ ih hc hs

theorem Reachable.invariant (h0 : ∀ s, S.init s → I s)
    (hstep : ∀ s i s', I s → S.step s i s' → I s') {s : σ} (h : Reachable S s) : I s :=
  ReachableBy.invariant h0 (fun s i s' hs _ => hstep s i s' hs) h

theorem ReachableBy.mono (hle : ∀ s i, cond s i → cond' s i) {s : σ}
    (h : ReachableBy S cond s) : ReachableBy S cond' s := by
  induction h with
  | init h => exact .init h
  | step _ hc hs ih => exact .step ih (hle _ _ hc) hs

theorem ReachableBy.reachable {s : σ} (h : ReachableBy S cond s) : Reachable S s :=
  h.mono fun _ _ _ => trivial

theorem Reachable.step' {s s' : σ} {i : ι} (h : Reachable S s) (hs : S.step s i s') :
    Reachable S s' :=
  ReachableBy.step h trivial hs

theorem Execution.reachable {s : σ} {is : List ι} (h : Execution S is s) : Reachable S s := by
  induction h with
  | init h => exact .init h
  | step _ hs ih => exact ih.step' hs

/-- The same steps from one state. -/
def System.startedAt (S : System σ ι) (s : σ) : System σ ι where
  init := (· = s)
  step := S.step

/-- Steps that use up a measure are bounded in number by it. -/
theorem Execution.length_le {P : ι → Prop} {rank : σ → Nat}
    (hstep : ∀ s i s', P i → S.step s i s' → rank s' < rank s) {s₀ s : σ} {is : List ι}
    (h : Execution (S.startedAt s₀) is s) (hP : ∀ i ∈ is, P i) :
    is.length + rank s ≤ rank s₀ := by
  induction h with
  | init h =>
    cases h
    exact Nat.le_of_eq (Nat.zero_add _)
  | step _ hs ih =>
    have hshorter := ih fun i hi => hP i (List.mem_append_left _ hi)
    have hused := hstep _ _ _ (hP _ (List.mem_append_right _ (List.mem_singleton_self _))) hs
    rw [List.length_append, List.length_singleton]
    omega

theorem Execution.reachable_from {s₀ s : σ} {is : List ι} (h₀ : Reachable S s₀)
    (h : Execution (S.startedAt s₀) is s) : Reachable S s := by
  induction h with
  | init h =>
    cases h
    exact h₀
  | step _ hs ih => exact ih.step' hs

end Eloth.Run
