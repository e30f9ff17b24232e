/-!
# Fallible computations that return

What it takes for a program in `Except` to return a value: one rule for each way to compose.
-/

namespace Fallible

variable {ε ε' α β : Type}

/-- The value of a fallible computation comes through each of its steps. -/
theorem bind_eq_ok {x : Except ε α} {f : α → Except ε β} {b : β} :
    (x >>= f) = .ok b ↔ ∃ a, x = .ok a ∧ f a = .ok b := by
  rcases x with e | a <;> simp [bind, Except.bind]

/-- It fails where one of its steps does. -/
theorem bind_eq_error {x : Except ε α} {f : α → Except ε β} {e : ε} :
    (x >>= f) = .error e ↔ x = .error e ∨ ∃ a, x = .ok a ∧ f a = .error e := by
  rcases x with e' | a <;> simp [bind, Except.bind]

@[simp] theorem mapError_ok (f : ε → ε') (a : α) : (Except.ok a).mapError f = .ok a := rfl
@[simp] theorem mapError_error (f : ε → ε') (e : ε) :
    (Except.error e : Except ε α).mapError f = .error (f e) := rfl

/-- Rewriting the error does not touch the value. -/
theorem mapError_eq_ok {x : Except ε α} {f : ε → ε'} {a : α} :
    x.mapError f = .ok a ↔ x = .ok a := by
  rcases x with e | a <;> simp

theorem mapError_eq_error {x : Except ε α} {f : ε → ε'} {e : ε'} :
    x.mapError f = .error e ↔ ∃ e', x = .error e' ∧ f e' = e := by
  rcases x with e' | a <;> simp

/-- A check that refuses leaves the rest to run only where it does not. -/
theorem refuse_eq_ok {c : Prop} [Decidable c] {e : ε} {f : PUnit → Except ε β} {b : β} :
    (if c then (Except.error e : Except ε PUnit) >>= f else f ⟨⟩) = .ok b
      ↔ ¬ c ∧ f ⟨⟩ = .ok b := by
  split
  · rename_i h
    simp [h, bind, Except.bind]
  · rename_i h
    simp [h]

/-- A traversal with a step that fails on the `bad` elements and maps the others by `g`: it fails if
one of them is bad, and maps them all otherwise. -/
theorem mapM_cases {f : α → Except ε β} {g : α → β} {bad : α → Prop}
    (h : ∀ a, (bad a ∧ ∃ e, f a = .error e) ∨ (¬ bad a ∧ f a = .ok (g a))) (l : List α) :
    ((∃ a ∈ l, bad a) ∧ ∃ e, l.mapM f = .error e) ∨
      ((∀ a ∈ l, ¬ bad a) ∧ l.mapM f = .ok (l.map g)) := by
  induction l with
  | nil => exact Or.inr ⟨by simp, rfl⟩
  | cons a l ih =>
    rw [List.mapM_cons]
    rcases h a with ⟨hbad, e, he⟩ | ⟨hgood, hok⟩
    · rw [he]
      exact Or.inl ⟨⟨a, List.mem_cons_self, hbad⟩, e, rfl⟩
    · rw [hok]
      rcases ih with ⟨⟨b, hb, hbad⟩, e, he⟩ | ⟨hrest, hmap⟩
      · rw [he]
        exact Or.inl ⟨⟨b, List.mem_cons_of_mem a hb, hbad⟩, e, rfl⟩
      · rw [hmap]
        refine Or.inr ⟨fun b hb => ?_, rfl⟩
        rcases List.mem_cons.mp hb with rfl | hb
        · exact hgood
        · exact hrest b hb

end Fallible
