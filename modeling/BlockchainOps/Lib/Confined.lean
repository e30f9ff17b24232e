import BlockchainOps.Lib.Effect

/-!
# Confined procedures

A `Confined R ε α` is a procedure that also reads a context `ι` and comes with the proof that
every run of it, in the context `c`, relates the first state to the last by `R c`, however it
ends. Where each relation is reflexive and transitive these programs are closed under
sequencing, so a program written in `do` notation from confined parts is confined: there is
nothing left to prove about it.

A procedure made by other means enters with its proof (`Confined.mk`).
-/

namespace Effect

open Proc

variable {ι σ κ ε ε' α β γ : Type}

/-- A procedure with a context whose every run in the context `c` respects `R c`. -/
structure Confined (R : ι → σ → σ → Prop) (ε α : Type) where
  run : ι → Proc σ ε α
  respects : ∀ c, Respects (R c) (run c)

namespace Confined

variable {R : ι → σ → σ → Prop} [∀ c, Std.Refl (R c)] [∀ c, IsTrans σ (R c)]

instance : Monad (Confined R ε) where
  pure a := ⟨fun _ => pure a, fun _ => Respects.pure a⟩
  bind x f := ⟨fun c => x.run c >>= fun a => (f a).run c,
    fun c => (x.respects c).bind fun a => (f a).respects c⟩

@[simp] theorem run_pure (a : α) (c : ι) : (pure a : Confined R ε α).run c = pure a := rfl

@[simp] theorem run_bind (x : Confined R ε α) (f : α → Confined R ε β) (c : ι) :
    (x >>= f).run c = x.run c >>= fun a => (f a).run c := rfl

theorem bind_assoc (x : Confined R ε α) (f : α → Confined R ε β) (g : β → Confined R ε γ) :
    x >>= f >>= g = x >>= fun a => f a >>= g := by
  have hrun : ∀ c, (x >>= f >>= g).run c = (x >>= fun a => f a >>= g).run c :=
    fun c => Proc.bind_assoc (x.run c) _ _
  cases hleft : x >>= f >>= g
  cases hright : x >>= fun a => f a >>= g
  congr 1
  funext c
  rw [hleft, hright] at hrun
  exact hrun c

/-- End with the error `e`. -/
def raise (e : ε) : Confined R ε α := ⟨fun _ => Proc.raise e, fun _ => Respects.raise e⟩

/-- A fallible computation on the context. -/
def lift (f : ι → Except ε α) : Confined R ε α :=
  ⟨fun c => ofExcept (f c), fun c => Respects.ofExcept (f c)⟩

/-- A result computed without the state. -/
def ofOutcome (o : Outcome ε α) : Confined R ε α :=
  ⟨fun _ => Proc.ofOutcome o, fun _ => Respects.ofOutcome o⟩

/-- A part of the state, as the context reads it. -/
def read (f : ι → σ → α) : Confined R ε α :=
  ⟨fun c => get >>= fun s => pure (f c s),
    fun _ => Respects.get.bind fun _ => Respects.pure _⟩

/-- Run `x` and hand an error over as a value. -/
def attempt (x : Confined R ε α) : Confined R ε' (Except ε α) :=
  ⟨fun c => Proc.attempt (x.run c), fun c => (x.respects c).attempt⟩

/-- Run `x`, rewriting its error. -/
def mapErr (f : ε → ε') (x : Confined R ε α) : Confined R ε' α :=
  ⟨fun c => Proc.mapErr f (x.run c), fun c => (x.respects c).mapErr⟩

/-- Run `f` on the elements in order, stopping at the first that does not return a value. -/
def forEach (f : α → Confined R ε β) (as : List α) : Confined R ε (List β) :=
  ⟨fun c => Proc.forEach (fun a => (f a).run c) as,
    fun c => Respects.forEach (fun a => (f a).respects c) as⟩

/-- Repeat `step` from `g` until it breaks, for as many rounds as the context allows. -/
def loop (step : γ → Confined R ε (γ ⊕ β)) (fuel : ι → ℕ) (g : γ) : Confined R ε β :=
  ⟨fun c => Proc.loop (fun g => (step g).run c) (fuel c) g,
    fun c => Respects.loop (fun g => (step g).respects c) (fuel c) g⟩

/-- Run a program on this state and a value the caller owns, and hand the value back. -/
def owning (k : κ) (x : ι → Proc (κ × σ) ε α)
    (hx : ∀ c, Respects (fun s t => R c s.2 t.2) (x c)) : Confined R ε (α × κ) :=
  ⟨fun c s => ((x c (k, s)).1.map fun a => (a, (x c (k, s)).2.1), (x c (k, s)).2.2),
    fun c s => hx c (k, s)⟩

end Confined

end Effect
