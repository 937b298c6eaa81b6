import Mathlib.Logic.Relation

/-!
# Runs of a state machine

A machine is a set of initial states and a partial step function: `step s a` is `none`
when the action `a` cannot happen in the state `s`. Every interleaving of a concurrent
program is a list of actions, so a fact about every interleaving is a fact about every
state that some list of actions reaches.
-/

namespace System

/-- Initial states and a partial step function. -/
structure Machine (σ α : Type*) where
  init : σ → Prop
  step : σ → α → Option σ

namespace Machine

variable {σ α : Type*} (M : Machine σ α)

/-- The state after a list of actions, `none` when one of them cannot happen. -/
def run : σ → List α → Option σ
  | s, [] => some s
  | s, a :: as => (M.step s a).bind fun s' => run s' as

/-- The states of the runs in which every step meets the condition `ok`. -/
inductive ReachableBy (ok : σ → α → Prop) : σ → Prop
  | init {s : σ} : M.init s → ReachableBy ok s
  | step {s s' : σ} {a : α} :
      ReachableBy ok s → ok s a → M.step s a = some s' → ReachableBy ok s'

/-- The states of all runs. -/
def Reachable (s : σ) : Prop := M.ReachableBy (fun _ _ => True) s

variable {M}

/-- A property of the initial states that every step meeting `ok` preserves holds in every
state of a run whose steps meet `ok`. -/
theorem ReachableBy.invariant {ok : σ → α → Prop} {I : σ → Prop}
    (hinit : ∀ s, M.init s → I s)
    (hstep : ∀ s a s', I s → ok s a → M.step s a = some s' → I s')
    {s : σ} (h : M.ReachableBy ok s) : I s := by
  induction h with
  | init h => exact hinit _ h
  | step _ hok hs ih => exact hstep _ _ _ ih hok hs

/-- The invariant rule over all runs. -/
theorem Reachable.invariant {I : σ → Prop}
    (hinit : ∀ s, M.init s → I s)
    (hstep : ∀ s a s', I s → M.step s a = some s' → I s')
    {s : σ} (h : M.Reachable s) : I s :=
  ReachableBy.invariant hinit (fun s a s' hI _ hs => hstep s a s' hI hs) h

/-- Weakening the condition on the steps only adds runs. -/
theorem ReachableBy.mono {ok ok' : σ → α → Prop} (hok : ∀ s a, ok s a → ok' s a)
    {s : σ} (h : M.ReachableBy ok s) : M.ReachableBy ok' s := by
  induction h with
  | init h => exact .init h
  | step _ ho hs ih => exact .step ih (hok _ _ ho) hs

/-- A run whose steps meet a condition is a run. -/
theorem ReachableBy.reachable {ok : σ → α → Prop} {s : σ} (h : M.ReachableBy ok s) :
    M.Reachable s :=
  h.mono fun _ _ _ => trivial

/-- One more step of a run. -/
theorem Reachable.next {s s' : σ} {a : α} (h : M.Reachable s) (hs : M.step s a = some s') :
    M.Reachable s' :=
  .step h trivial hs

/-- A list of actions that always meet the condition goes on with a run. -/
theorem ReachableBy.of_run {ok : σ → α → Prop} {s s' : σ} (as : List α)
    (hok : ∀ a ∈ as, ∀ t, ok t a) (h : M.ReachableBy ok s) (hr : M.run s as = some s') :
    M.ReachableBy ok s' := by
  induction as generalizing s with
  | nil =>
    have hs : s = s' := Option.some.inj hr
    exact hs ▸ h
  | cons a as ih =>
    obtain ⟨t, hst, hrt⟩ := Option.bind_eq_some_iff.mp hr
    have ⟨hfirst, hrest⟩ := List.forall_mem_cons.mp hok
    exact ih hrest (.step h (hfirst s) hst) hrt

/-- What a list of actions computes from a reachable state is reachable. -/
theorem Reachable.of_run {s s' : σ} (as : List α) (h : M.Reachable s)
    (hr : M.run s as = some s') : M.Reachable s' :=
  ReachableBy.of_run as (fun _ _ _ => trivial) h hr

/-- The state after a list of actions that each meet the condition. -/
def runBy (M : Machine σ α) (ok : σ → α → Prop) [∀ s a, Decidable (ok s a)] :
    σ → List α → Option σ
  | s, [] => some s
  | s, a :: as => if ok s a then (M.step s a).bind fun s' => M.runBy ok s' as else none

/-- A list of actions that meet the condition where they happen goes on with a run. -/
theorem ReachableBy.of_runBy {ok : σ → α → Prop} [∀ s a, Decidable (ok s a)] {s s' : σ}
    (as : List α) (h : M.ReachableBy ok s) (hr : M.runBy ok s as = some s') :
    M.ReachableBy ok s' := by
  induction as generalizing s with
  | nil =>
    have hs : s = s' := Option.some.inj hr
    exact hs ▸ h
  | cons a as ih =>
    rw [runBy] at hr
    split at hr
    · next hok =>
      have ⟨t, hst, hrt⟩ := Option.bind_eq_some_iff.mp hr
      exact ih (.step h hok hst) hrt
    · cases hr

end Machine
end System
