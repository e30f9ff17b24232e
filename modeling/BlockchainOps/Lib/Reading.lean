import BlockchainOps.Lib.Fallible
import Mathlib.Data.List.Basic

/-!
# Readers and the forms they read

A reader `decode` may refuse what it is given. `Reads decode encode` says that it undoes `encode`
and takes nothing else; the rules below derive this for a reader of optional values and of lists
from the same fact about the reader of one value.

`faults` is the error of a computation, as a list of at most one. What a reader of several fields
reports is the first of the faults of its fields.
-/

namespace Reading

variable {ε α β γ : Type}

/-! ## Readers -/

/-- `decode` takes what `encode` writes, and takes it for what was written. -/
def Reads (decode : β → Except ε α) (encode : α → β) : Prop :=
  ∀ b a, decode b = .ok a ↔ encode a = b

namespace Reads

variable {decode : β → Except ε α} {encode : α → β}

theorem option (h : Reads decode encode) : Reads (Option.mapM decode) (Option.map encode) := by
  intro b a
  rcases b with _ | b
  · rcases a with _ | a
    · simp [pure, Except.pure]
    · simp [pure, Except.pure]
  · rw [Option.mapM_some, Option.map_eq_some_iff]
    constructor
    · intro hread
      obtain ⟨a', hdecode, hsome⟩ := Fallible.bind_eq_ok.mp hread
      exact ⟨a', (Except.ok.inj hsome).symm, (h b a').mp hdecode⟩
    · intro hwritten
      obtain ⟨a', ha, hencode⟩ := hwritten
      apply Fallible.bind_eq_ok.mpr
      exact ⟨a', (h b a').mpr hencode, by rw [ha]⟩

theorem list (h : Reads decode encode) : Reads (List.mapM decode) (List.map encode) := by
  intro b
  induction b with
  | nil =>
    intro a
    rcases a with _ | ⟨a, as⟩
    · simp [pure, Except.pure]
    · simp [pure, Except.pure]
  | cons b bs ih =>
    intro a
    rw [List.mapM_cons, List.map_eq_cons_iff]
    constructor
    · intro hread
      obtain ⟨a', hdecode, hrest⟩ := Fallible.bind_eq_ok.mp hread
      obtain ⟨as, hdecodes, hsame⟩ := Fallible.bind_eq_ok.mp hrest
      exact ⟨a', as, (Except.ok.inj hsame).symm, (h b a').mp hdecode, (ih as).mp hdecodes⟩
    · intro hwritten
      obtain ⟨a', as, ha, hencode, hencodes⟩ := hwritten
      apply Fallible.bind_eq_ok.mpr
      refine ⟨a', (h b a').mpr hencode, ?_⟩
      apply Fallible.bind_eq_ok.mpr
      exact ⟨as, (ih as).mpr hencodes, by rw [ha]; rfl⟩

end Reads

/-! ## Faults -/

/-- The error, if there is one. -/
def faults : Except ε α → List ε
  | .ok _ => []
  | .error e => [e]

@[simp] theorem faults_ok (a : α) : faults (.ok a : Except ε α) = [] := rfl
@[simp] theorem faults_error (e : ε) : faults (.error e : Except ε α) = [e] := rfl

theorem error_iff_head_faults {x : Except ε α} {e : ε} :
    x = .error e ↔ (faults x).head? = some e := by
  rcases x with e' | a <;> simp

/-- A computation that goes on the same way, whatever the value of a field, reports the fault of
that field or else what is reported after it. -/
theorem head_faults_bind {x : Except ε α} {f : α → Except ε β} {rest : Option ε}
    (h : ∀ a, (faults (f a)).head? = rest) :
    (faults (x >>= f)).head? = (faults x).head?.or rest := by
  rcases x with e | a
  · rfl
  · exact h a

/-- Putting the value to use adds no fault. -/
theorem faults_bind_ok (x : Except ε α) (g : α → β) :
    faults (x >>= fun a => .ok (g a)) = faults x := by
  rcases x with e | a <;> rfl

theorem faults_option (f : α → Except ε β) (o : Option α) :
    faults (o.mapM f) = o.toList.flatMap fun a => faults (f a) := by
  rcases o with _ | a
  · rfl
  · rw [Option.mapM_some]
    rcases hfa : f a with e | b <;> simp [Functor.map, Except.map, hfa]

/-- A list reports its first faulty element. -/
theorem head_faults_list (f : α → Except ε β) (l : List α) :
    (faults (l.mapM f)).head? = (l.flatMap fun a => faults (f a)).head? := by
  induction l with
  | nil => rfl
  | cons a l ih =>
    rw [List.mapM_cons, List.flatMap_cons, List.head?_append, ← ih]
    apply head_faults_bind
    intro b
    rcases l.mapM f with e | bs <;> rfl

end Reading
