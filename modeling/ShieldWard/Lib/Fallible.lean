import Mathlib.Data.List.Forall2

/-!
# Computations that may fail

When a computation in `Except` succeeds, its parts succeed: the bind, the map over a list and
the fold over a list, each as a rule about the successful outcome.
-/

namespace Except

variable {ε α β : Type}

@[simp] theorem bind_eq_ok_iff {x : Except ε α} {f : α → Except ε β} {b : β} :
    (x >>= f) = .ok b ↔ ∃ a, x = .ok a ∧ f a = .ok b := by
  cases x with
  | error e => simp [bind, Except.bind]
  | ok a => simp [bind, Except.bind]

theorem mapError_eq_ok_iff {ε' : Type} {x : Except ε α} {g : ε → ε'} {a : α} :
    x.mapError g = .ok a ↔ x = .ok a := by
  cases x <;> simp [Except.mapError]

theorem map_eq_ok_iff {x : Except ε α} {g : α → β} {b : β} :
    x.map g = .ok b ↔ ∃ a, x = .ok a ∧ g a = b := by
  cases x <;> simp [Except.map]

/-- A map succeeds when it does on every item, and gives the results in order. -/
theorem mapM_eq_ok_iff {f : α → Except ε β} {xs : List α} {ys : List β} :
    xs.mapM f = .ok ys ↔ List.Forall₂ (fun x y => f x = .ok y) xs ys := by
  induction xs generalizing ys with
  | nil => simp [pure, Except.pure]
  | cons x xs ih =>
    rw [List.mapM_cons, bind_eq_ok_iff]
    refine ⟨fun h => ?_, fun h => ?_⟩
    · rcases h with ⟨y, hy, h⟩
      rcases bind_eq_ok_iff.mp h with ⟨rest, hrest, h⟩
      have hys : y :: rest = ys := Except.ok.inj h
      rw [← hys]
      exact .cons hy (ih.mp hrest)
    · cases ys with
      | nil => exact absurd h (by simp)
      | cons y ys =>
        have hforall := List.forall₂_cons.mp h
        exact ⟨y, hforall.1, bind_eq_ok_iff.mpr ⟨ys, ih.mpr hforall.2, rfl⟩⟩

/-- A check of every item succeeds when each of them does. -/
theorem forM_eq_ok_iff {f : α → Except ε Unit} {xs : List α} :
    xs.forM f = .ok () ↔ ∀ x ∈ xs, f x = .ok () := by
  induction xs with
  | nil => simp [List.forM, pure, Except.pure]
  | cons x xs ih =>
    have hcons : (x :: xs).forM f = (f x >>= fun _ => xs.forM f) := rfl
    rw [hcons, bind_eq_ok_iff, List.forall_mem_cons, ← ih]
    constructor
    · rintro ⟨_, hx, hxs⟩
      exact ⟨hx, hxs⟩
    · rintro ⟨hx, hxs⟩
      exact ⟨(), hx, hxs⟩

/-- A fold that succeeds keeps what each step keeps; `I` speaks of the items taken so far. -/
theorem foldlM_invariant {f : β → α → Except ε β} {I : List α → β → Prop} {xs : List α}
    {b b' : β} (h : xs.foldlM f b = .ok b') (hinit : I [] b)
    (hstep : ∀ before x after c c', xs = before ++ x :: after → I before c → f c x = .ok c' →
      I (before ++ [x]) c') : I xs b' := by
  suffices hgen : ∀ (before after : List α) (c : β), xs = before ++ after → I before c →
      after.foldlM f c = .ok b' → I xs b' from hgen [] xs b rfl hinit h
  intro before after
  induction after generalizing before with
  | nil =>
    intro c hxs hI hfold
    have hc : c = b' := Except.ok.inj hfold
    rw [hxs, List.append_nil, ← hc]
    exact hI
  | cons x after ih =>
    intro c hxs hI hfold
    rw [List.foldlM_cons] at hfold
    rcases bind_eq_ok_iff.mp hfold with ⟨c', hc', hfold⟩
    exact ih (before ++ [x]) c' (by simp [hxs]) (hstep before x after c c' hxs hI hc') hfold

end Except
