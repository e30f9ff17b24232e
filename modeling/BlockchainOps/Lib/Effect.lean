import Mathlib.Data.Nat.Notation
import Mathlib.Order.Defs.Unbundled

/-!
# Procedures: programs with state, errors and abrupt ends

A `Proc σ ε α` reads and changes a state `σ` and ends in one of three ways: it returns a
value, it returns an error `ε`, or it does not return at all (`Stop`). The state reached so
far survives every ending, so what a failing program leaves behind can be stated.

* `attempt` turns an error into a value, as a `match` on a returned result does;
* `loop` is an unbounded loop, run for at most `fuel` rounds;
* `onSnd` runs a procedure on one half of the state and frames the other half;
* `withLock` runs a procedure under a mutex that a panic poisons;
* `Respects R` says that every run relates its first to its last state by `R`; the rules
  below derive it for a program from the same fact about its parts.
-/

namespace Effect

/-- Why a program does not return. -/
inductive Stop
  | panic
  | crash
  | fuel
deriving DecidableEq, Repr

/-- How a run ends: a value, an error, or no return. -/
inductive Outcome (ε α : Type)
  | ok (a : α)
  | err (e : ε)
  | stop (why : Stop)
deriving DecidableEq, Repr

namespace Outcome

variable {ε α β : Type}

/-- Apply `f` to a returned value. -/
def map (f : α → β) : Outcome ε α → Outcome ε β
  | ok a => ok (f a)
  | err e => err e
  | stop w => stop w

@[simp] theorem map_ok (f : α → β) (a : α) : map f (ok a : Outcome ε α) = ok (f a) := rfl
@[simp] theorem map_err (f : α → β) (e : ε) : map f (err e) = err e := rfl
@[simp] theorem map_stop (f : α → β) (w : Stop) : map f (stop w : Outcome ε α) = stop w := rfl

theorem map_eq_ok {f : α → β} {o : Outcome ε α} {b : β} :
    map f o = ok b ↔ ∃ a, o = ok a ∧ f a = b := by
  cases o <;> simp

end Outcome

/-- A program over the state `σ` with errors `ε` and result `α`. -/
def Proc (σ ε α : Type) : Type := σ → Outcome ε α × σ

namespace Proc

variable {σ κ ε ε' α β γ : Type}

instance : Monad (Proc σ ε) where
  pure a := fun s => (.ok a, s)
  bind x f := fun s =>
    match x s with
    | (.ok a, s') => f a s'
    | (.err e, s') => (.err e, s')
    | (.stop w, s') => (.stop w, s')

@[simp] theorem pure_apply (a : α) (s : σ) : (pure a : Proc σ ε α) s = (.ok a, s) := rfl

theorem bind_apply (x : Proc σ ε α) (f : α → Proc σ ε β) (s : σ) :
    (x >>= f) s =
      match x s with
      | (.ok a, s') => f a s'
      | (.err e, s') => (.err e, s')
      | (.stop w, s') => (.stop w, s') := rfl

theorem bind_of_ok {x : Proc σ ε α} {f : α → Proc σ ε β} {s s' : σ} {a : α}
    (h : x s = (.ok a, s')) : (x >>= f) s = f a s' := by
  rw [bind_apply, h]

theorem bind_of_err {x : Proc σ ε α} {f : α → Proc σ ε β} {s s' : σ} {e : ε}
    (h : x s = (.err e, s')) : (x >>= f) s = (.err e, s') := by
  rw [bind_apply, h]

theorem bind_of_stop {x : Proc σ ε α} {f : α → Proc σ ε β} {s s' : σ} {w : Stop}
    (h : x s = (.stop w, s')) : (x >>= f) s = (.stop w, s') := by
  rw [bind_apply, h]

theorem bind_assoc (x : Proc σ ε α) (f : α → Proc σ ε β) (g : β → Proc σ ε γ) :
    x >>= f >>= g = x >>= fun a => f a >>= g := by
  funext s
  simp only [bind_apply]
  rcases x s with ⟨a | e | w, s'⟩ <;> rfl

/-- A program returns when each of its steps does. -/
theorem bind_ok_iff {x : Proc σ ε α} {f : α → Proc σ ε β} {s s'' : σ} {b : β} :
    (x >>= f) s = (.ok b, s'') ↔ ∃ a s', x s = (.ok a, s') ∧ f a s' = (.ok b, s'') := by
  rw [bind_apply]
  rcases x s with ⟨a | e | w, s'⟩
  · simp [and_assoc]
  · simp
  · simp

/-- A program fails where one of its steps does. -/
theorem bind_err_iff {x : Proc σ ε α} {f : α → Proc σ ε β} {s s'' : σ} {e : ε} :
    (x >>= f) s = (.err e, s'') ↔
      x s = (.err e, s'') ∨ ∃ a s', x s = (.ok a, s') ∧ f a s' = (.err e, s'') := by
  rw [bind_apply]
  rcases x s with ⟨a | e' | w, s'⟩
  · simp [and_assoc]
  · simp
  · simp

/-! ## Primitive procedures -/

/-- End with the error `e`. -/
def raise (e : ε) : Proc σ ε α := fun s => (.err e, s)

/-- Do not return. -/
def halt (w : Stop) : Proc σ ε α := fun s => (.stop w, s)

/-- Read the state. -/
def get : Proc σ ε σ := fun s => (.ok s, s)

/-- Change the state. -/
def modify (f : σ → σ) : Proc σ ε Unit := fun s => (.ok (), f s)

/-- A result computed without the state. -/
def ofOutcome (o : Outcome ε α) : Proc σ ε α := fun s => (o, s)

/-- A fallible computation without the state. -/
def ofExcept : Except ε α → Proc σ ε α
  | .ok a => pure a
  | .error e => raise e

/-- Run `x` and hand an error over as a value. -/
def attempt (x : Proc σ ε α) : Proc σ ε' (Except ε α) := fun s =>
  match x s with
  | (.ok a, s') => (.ok (.ok a), s')
  | (.err e, s') => (.ok (.error e), s')
  | (.stop w, s') => (.stop w, s')

/-- Run `x`, rewriting its error. -/
def mapErr (f : ε → ε') (x : Proc σ ε α) : Proc σ ε' α := do
  match ← attempt x with
  | .ok a => pure a
  | .error e => raise (f e)

/-- Run `x` on the second half of the state. -/
def onSnd (x : Proc σ ε α) : Proc (κ × σ) ε α := fun s => ((x s.2).1, s.1, (x s.2).2)

/-- Run `x` on the first half of the state. -/
def onFst (x : Proc κ ε α) : Proc (κ × σ) ε α := fun s => ((x s.1).1, (x s.1).2, s.2)

/-- Run `f` on the elements in order, stopping at the first that does not return a value. -/
def forEach (f : α → Proc σ ε β) : List α → Proc σ ε (List β)
  | [] => pure []
  | a :: as => do
    let b ← f a
    let bs ← forEach f as
    pure (b :: bs)

/-- `loop step fuel c` repeats `step` from `c` until it breaks with `.inr`; the loop has not
returned when the fuel is spent. -/
def loop (step : γ → Proc σ ε (γ ⊕ β)) : ℕ → γ → Proc σ ε β
  | 0, _ => halt .fuel
  | n + 1, c => do
    match ← step c with
    | .inl c' => loop step n c'
    | .inr b => pure b

@[simp] theorem raise_apply (e : ε) (s : σ) : (raise e : Proc σ ε α) s = (.err e, s) := rfl
@[simp] theorem halt_apply (w : Stop) (s : σ) : (halt w : Proc σ ε α) s = (.stop w, s) := rfl
@[simp] theorem get_apply (s : σ) : (get : Proc σ ε σ) s = (.ok s, s) := rfl
@[simp] theorem modify_apply (f : σ → σ) (s : σ) :
    (modify f : Proc σ ε Unit) s = (.ok (), f s) := rfl
@[simp] theorem ofOutcome_apply (o : Outcome ε α) (s : σ) :
    (ofOutcome o : Proc σ ε α) s = (o, s) := rfl
theorem ofExcept_ok_iff {x : Except ε α} {a : α} {s s' : σ} :
    (ofExcept x : Proc σ ε α) s = (.ok a, s') ↔ x = .ok a ∧ s' = s := by
  rcases x with e | a'
  · simp [ofExcept]
  · simp [ofExcept, eq_comm]

theorem mapErr_apply (f : ε → ε') (x : Proc σ ε α) (s : σ) :
    mapErr f x s = match x s with
      | (.ok a, s') => (.ok a, s')
      | (.err e, s') => (.err (f e), s')
      | (.stop w, s') => (.stop w, s') := by
  unfold mapErr
  rw [bind_apply]
  unfold attempt
  rcases x s with ⟨_ | _ | _, s'⟩ <;> rfl

theorem mapErr_ok_iff {f : ε → ε'} {x : Proc σ ε α} {a : α} {s s' : σ} :
    mapErr f x s = (.ok a, s') ↔ x s = (.ok a, s') := by
  rw [mapErr_apply]
  rcases x s with ⟨_ | _ | _, s''⟩ <;> simp

/-- Rewriting the error leaves the state reached alone. -/
theorem mapErr_snd (f : ε → ε') (x : Proc σ ε α) (s : σ) : (mapErr f x s).2 = (x s).2 := by
  rw [mapErr_apply]
  rcases x s with ⟨_ | _ | _, s'⟩ <;> rfl

/-- Computing with a result leaves the state reached alone. -/
theorem bind_pure_snd (x : Proc σ ε α) (f : α → β) (s : σ) :
    ((x >>= fun a => pure (f a)) s).2 = (x s).2 := by
  rw [bind_apply]
  rcases x s with ⟨a | e | w, t⟩ <;> rfl

@[simp] theorem onSnd_apply (x : Proc σ ε α) (k : κ) (s : σ) :
    onSnd x (k, s) = ((x s).1, k, (x s).2) := rfl
@[simp] theorem onFst_apply (x : Proc κ ε α) (k : κ) (s : σ) :
    onFst x (k, s) = ((x k).1, (x k).2, s) := rfl

/-! ## Mutexes -/

/-- A mutex: the guarded value, and whether a holder panicked. -/
structure Mutex (κ : Type) where
  value : κ
  poisoned : Bool
deriving DecidableEq, Repr

/-- A fresh mutex. -/
def Mutex.new (k : κ) : Mutex κ := ⟨k, false⟩

/-- Run `x` holding the mutex. A poisoned mutex is refused with `refused`; a panic of `x`
poisons it and keeps what `x` had written. -/
def withLock (refused : ε) (x : Proc (κ × σ) ε α) : Proc (Mutex κ × σ) ε α := fun s =>
  if s.1.poisoned then (.err refused, s)
  else
    let r := x (s.1.value, s.2)
    (r.1, ⟨r.2.1, decide (r.1 matches .stop .panic)⟩, r.2.2)

theorem withLock_poisoned {refused : ε} {x : Proc (κ × σ) ε α} {m : Mutex κ} {s : σ}
    (h : m.poisoned = true) : withLock refused x (m, s) = (.err refused, m, s) := by
  simp [withLock, h]

theorem withLock_fst {refused : ε} {x : Proc (κ × σ) ε α} {m : Mutex κ} {s : σ}
    (h : m.poisoned = false) : (withLock refused x (m, s)).1 = (x (m.value, s)).1 := by
  simp [withLock, h]

theorem withLock_value {refused : ε} {x : Proc (κ × σ) ε α} {m : Mutex κ} {s : σ}
    (h : m.poisoned = false) :
    (withLock refused x (m, s)).2.1.value = (x (m.value, s)).2.1 := by
  simp [withLock, h]

/-- A locked call that returns leaves the value that its body left. -/
theorem withLock_of_ok {refused : ε} {x : Proc (κ × σ) ε α} {k k' : κ} {s s' : σ} {a : α}
    (h : x (k, s) = (.ok a, k', s')) :
    withLock refused x (.new k, s) = (.ok a, .new k', s') := by
  simp [withLock, Mutex.new, h]

/-- A locked call that errs leaves the mutex as it was exactly when its body does. -/
theorem withLock_error_atomic_iff {refused : ε} {x : Proc (κ × σ) ε α} {m : Mutex κ} {s : σ} :
    (∀ e, (withLock refused x (m, s)).1 = .err e → (withLock refused x (m, s)).2.1 = m) ↔
      (m.poisoned = false → ∀ e, (x (m.value, s)).1 = .err e → (x (m.value, s)).2.1 = m.value) := by
  obtain ⟨k, p⟩ := m
  rcases p with _ | _
  · have hcall : withLock refused x (⟨k, false⟩, s)
        = ((x (k, s)).1, ⟨(x (k, s)).2.1, decide ((x (k, s)).1 matches .stop .panic)⟩,
          (x (k, s)).2.2) := rfl
    rw [hcall]
    constructor
    · intro h _ e he
      exact congrArg Mutex.value (h e he)
    · intro h e he
      have hk : (x (k, s)).2.1 = k := h rfl e he
      have he' : (x (k, s)).1 = .err e := he
      simp only [he', hk]
      rfl
  · -- a poisoned mutex is refused before the guarded value is touched
    rw [withLock_poisoned rfl]
    exact ⟨fun _ h => absurd h (by simp), fun _ _ _ => rfl⟩

/-! ## State relations respected by every run -/

/-- Every run of `x` takes a state to one related to it by `R`, however it ends. -/
def Respects (R : σ → σ → Prop) (x : Proc σ ε α) : Prop := ∀ s, R s (x s).2

namespace Respects

variable {R : σ → σ → Prop}

section Reflexive
variable [Std.Refl R]

theorem pure (a : α) : Respects R (pure a : Proc σ ε α) := fun s => refl_of R s
theorem raise (e : ε) : Respects R (raise e : Proc σ ε α) := fun s => refl_of R s
theorem halt (w : Stop) : Respects R (halt w : Proc σ ε α) := fun s => refl_of R s
theorem get : Respects R (get : Proc σ ε σ) := fun s => refl_of R s
theorem ofOutcome (o : Outcome ε α) : Respects R (ofOutcome o : Proc σ ε α) :=
  fun s => refl_of R s

theorem ofExcept (x : Except ε α) : Respects R (ofExcept x : Proc σ ε α) := by
  cases x with
  | ok a => exact pure a
  | error e => exact raise e

/-- What never changes the state respects every reflexive relation. -/
theorem of_eq {x : Proc σ ε α} (hx : Respects Eq x) : Respects R x := by
  intro s
  rw [← hx s]
  exact refl_of R s

end Reflexive

theorem attempt {x : Proc σ ε α} (hx : Respects R x) :
    Respects R (attempt x : Proc σ ε' (Except ε α)) := by
  intro s
  have h := hx s
  unfold Proc.attempt
  rcases hxs : x s with ⟨o, s'⟩
  rw [hxs] at h
  cases o <;> exact h

variable [IsTrans σ R]

theorem bind {x : Proc σ ε α} {f : α → Proc σ ε β} (hx : Respects R x)
    (hf : ∀ a, Respects R (f a)) : Respects R (x >>= f) := by
  intro s
  have h := hx s
  rw [bind_apply]
  rcases hxs : x s with ⟨o, s'⟩
  rw [hxs] at h
  cases o with
  | ok a => exact trans_of R h (hf a s')
  | err e => exact h
  | stop w => exact h

variable [Std.Refl R]

theorem mapErr {f : ε → ε'} {x : Proc σ ε α} (hx : Respects R x) :
    Respects R (mapErr f x) :=
  hx.attempt.bind fun r => by
    cases r with
    | ok a => exact pure a
    | error e => exact raise _

theorem forEach {f : α → Proc σ ε β} (hf : ∀ a, Respects R (f a)) :
    ∀ as, Respects R (forEach f as)
  | [] => pure _
  | a :: as => (hf a).bind fun _ => (forEach hf as).bind fun _ => pure _

theorem loop {step : γ → Proc σ ε (γ ⊕ β)} (hstep : ∀ c, Respects R (step c)) :
    ∀ fuel c, Respects R (loop step fuel c)
  | 0, _ => halt _
  | n + 1, c => (hstep c).bind fun r => by
    cases r with
    | inl c' => exact loop hstep n c'
    | inr b => exact pure b

end Respects

/-! ## A relation on one half of the state -/

instance {R : σ → σ → Prop} [Std.Refl R] : Std.Refl (InvImage R (Prod.snd : κ × σ → σ)) :=
  ⟨fun s => refl_of R s.2⟩

instance {R : σ → σ → Prop} [IsTrans σ R] : IsTrans (κ × σ) (InvImage R Prod.snd) :=
  ⟨fun _ _ _ h h' => trans_of R h h'⟩

namespace Respects

variable {R : σ → σ → Prop}

theorem onSnd {x : Proc σ ε α} (hx : Respects R x) :
    Respects (InvImage R Prod.snd) (onSnd x : Proc (κ × σ) ε α) := fun s => hx s.2

theorem modifyFst [Std.Refl R] (f : κ × σ → κ) :
    Respects (InvImage R Prod.snd) (modify fun s => (f s, s.2) : Proc (κ × σ) ε Unit) :=
  fun s => refl_of R s.2

theorem withLock [Std.Refl R] {refused : ε} {x : Proc (κ × σ) ε α}
    (hx : Respects (InvImage R Prod.snd) x) :
    Respects (InvImage R Prod.snd) (withLock refused x) := by
  intro s
  unfold Proc.withLock
  split
  · exact refl_of R s.2
  · exact hx (s.1.value, s.2)

end Respects

/-! ## Runs that return the same -/

/-- Where `x` returns, `y` returns the same and leaves the same. -/
def Below (x y : Proc σ ε α) : Prop := ∀ s a s', x s = (.ok a, s') → y s = (.ok a, s')

namespace Below

theorem refl (x : Proc σ ε α) : Below x x := fun _ _ _ h => h

theorem raise (e : ε) (y : Proc σ ε α) : Below (raise e) y := fun _ _ _ h => by simp at h

theorem halt (w : Stop) (y : Proc σ ε α) : Below (halt w) y := fun _ _ _ h => by simp at h

theorem bind {x y : Proc σ ε α} {f g : α → Proc σ ε β} (hx : Below x y)
    (hf : ∀ a, Below (f a) (g a)) : Below (x >>= f) (y >>= g) := by
  intro s b s'' h
  rw [bind_apply] at h
  rcases hxs : x s with ⟨o, s'⟩
  rw [hxs] at h
  cases o with
  | ok a =>
    rw [bind_of_ok (hx s a s' hxs)]
    exact hf a s' b s'' h
  | err e => exact absurd h (by simp)
  | stop w => exact absurd h (by simp)

theorem mapErr {f : ε → ε'} {x y : Proc σ ε α} (hx : Below x y) :
    Below (mapErr f x) (mapErr f y) := by
  intro s a s' h
  have hattempt : ∀ z : Proc σ ε α, ∀ a s', Proc.mapErr f z s = (.ok a, s') ↔ z s = (.ok a, s') := by
    intro z a s'
    unfold Proc.mapErr
    rw [bind_apply, attempt]
    rcases z s with ⟨o, t⟩
    cases o <;> simp
  rw [hattempt] at h ⊢
  exact hx s a s' h

theorem forEach {f g : α → Proc σ ε β} (hf : ∀ a, Below (f a) (g a)) :
    ∀ as, Below (forEach f as) (forEach g as)
  | [] => refl _
  | a :: as => (hf a).bind fun _ => (forEach hf as).bind fun _ => refl _

end Below

end Proc

end Effect
