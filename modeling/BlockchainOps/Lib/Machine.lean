import Mathlib.Data.Nat.Notation
import Mathlib.Order.Defs.PartialOrder

/-!
# Machines and their runs

A machine takes a state and an action to the next state, or refuses the action. `Run ok` is a
run whose every step meets `ok`, a condition on the action and the state before it. An
invariant is proved for one step and holds along every run (`Run.invariant`); a quantity that
no step lowers is not lowered by a run (`Run.monotone`).
-/

/-- States, actions, and the step an action makes, if it is enabled. -/
structure Machine (S A : Type) where
  step : S → A → Option S

namespace Machine

variable {S A : Type} {m : Machine S A} {ok ok' : S → A → Prop} {s t u : S}

/-- `m.Run ok s t`: steps that meet `ok` lead from `s` to `t`. -/
inductive Run (m : Machine S A) (ok : S → A → Prop) : S → S → Prop
  | refl (s : S) : Run m ok s s
  | tail {s t u : S} {a : A} (h : Run m ok s t) (hok : ok t a) (hstep : m.step t a = some u) :
      Run m ok s u

/-- Perform the actions in order. -/
def exec (m : Machine S A) (as : List A) (s : S) : Option S := as.foldlM m.step s

/-- The last of some actions is performed after the others. -/
theorem exec_concat {as : List A} {a : A} (h : m.exec (as ++ [a]) s = some t) :
    ∃ r, m.exec as s = some r ∧ m.step r a = some t := by
  unfold exec at h
  rw [List.foldlM_append] at h
  obtain ⟨r, hrun, hstep⟩ := Option.bind_eq_some_iff.mp h
  exact ⟨r, hrun, by simpa using hstep⟩

namespace Run

theorem trans (h : m.Run ok s t) (h' : m.Run ok t u) : m.Run ok s u := by
  induction h' with
  | refl => exact h
  | tail _ hok hstep ih => exact ih.tail hok hstep

/-- A run under a condition is a run under any weaker one. -/
theorem weaken (himp : ∀ s a, ok s a → ok' s a) (h : m.Run ok s t) : m.Run ok' s t := by
  induction h with
  | refl => exact .refl _
  | tail _ hok hstep ih => exact ih.tail (himp _ _ hok) hstep

/-- What every step preserves holds along every run. -/
theorem invariant {I : S → Prop} (hI : ∀ s a t, I s → ok s a → m.step s a = some t → I t)
    (h : m.Run ok s t) (hs : I s) : I t := by
  induction h with
  | refl => exact hs
  | tail _ hok hstep ih => exact hI _ _ _ ih hok hstep

/-- A quantity that no step from an invariant state lowers is not lowered along any run. -/
theorem monotone {β : Type} [Preorder β] {I : S → Prop} {f : S → β}
    (hI : ∀ s a t, I s → ok s a → m.step s a = some t → I t)
    (hf : ∀ s a t, I s → ok s a → m.step s a = some t → f s ≤ f t)
    (h : m.Run ok s t) (hs : I s) : f s ≤ f t := by
  induction h with
  | refl => exact le_refl _
  | tail hrun hok hstep ih => exact le_trans ih (hf _ _ _ (hrun.invariant hI hs) hok hstep)

/-- Performing actions is a run without a condition. -/
theorem of_exec {as : List A} (h : m.exec as s = some t) : m.Run (fun _ _ => True) s t := by
  induction as generalizing s with
  | nil => exact Option.some.inj h ▸ .refl s
  | cons a as ih =>
    obtain ⟨r, hstep, hrest⟩ := Option.bind_eq_some_iff.mp h
    exact (Run.tail (.refl s) trivial hstep).trans (ih hrest)

end Run

end Machine
