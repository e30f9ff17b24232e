import Mathlib.Data.List.Forall2
import BlockchainOps.Lib.Effect

/-!
# Triples for procedures

`Triple P x Q E` says what a run of `x` from a state with `P` leaves behind: if it returns `a`
the last state has `Q a`; if it ends with the error `e` the last state has `E (some e)`; if it
does not return at all the state reached has `E none`. So a triple also describes the states a
failing or a crashing program leaves.

There is one rule for each way to build a procedure, and `Triple.forEach` carries an invariant
indexed by the elements still to come through a traversal.
-/

namespace Effect

namespace Proc

variable {σ τ ε ε' α β γ : Type}

/-- What holds of the end of a run. -/
def Ends (Q : α → σ → Prop) (E : Option ε → σ → Prop) : Outcome ε α × σ → Prop
  | (.ok a, s) => Q a s
  | (.err e, s) => E (some e) s
  | (.stop _, s) => E none s

/-- Every run of `x` from a state with `P` ends with `Q` or `E`. -/
def Triple (P : σ → Prop) (x : Proc σ ε α) (Q : α → σ → Prop) (E : Option ε → σ → Prop) : Prop :=
  ∀ s, P s → Ends Q E (x s)

namespace Triple

variable {P P' : σ → Prop} {Q Q' : α → σ → Prop} {E E' : Option ε → σ → Prop} {x : Proc σ ε α}

/-! ## Reading a triple -/

theorem of_ok (h : Triple P x Q E) {s s' : σ} {a : α} (hs : P s) (hx : x s = (.ok a, s')) :
    Q a s' := by
  have hends := h s hs
  rw [hx] at hends
  exact hends

theorem of_err (h : Triple P x Q E) {s s' : σ} {e : ε} (hs : P s) (hx : x s = (.err e, s')) :
    E (some e) s' := by
  have hends := h s hs
  rw [hx] at hends
  exact hends

/-- A property that every ending has holds of the last state. -/
theorem last {I : σ → Prop} (h : Triple P x (fun _ => I) (fun _ => I)) {s : σ} (hs : P s) :
    I (x s).2 := by
  have hends := h s hs
  rcases hx : x s with ⟨o, s'⟩
  rw [hx] at hends
  cases o <;> exact hends

/-- A property of the last state is one of every ending. -/
theorem ends_of_last {I : σ → Prop} {s : σ} (h : I (x s).2) :
    Ends (fun _ => I) (fun _ => I) (x s) := by
  rcases hx : x s with ⟨o, s'⟩
  rw [hx] at h
  cases o <;> exact h

/-! ## Consequence -/

theorem weaken (h : Triple P x Q E) (hP : ∀ s, P' s → P s) (hQ : ∀ a s, Q a s → Q' a s)
    (hE : ∀ e s, E e s → E' e s) : Triple P' x Q' E' := by
  intro s hs
  have hends := h s (hP s hs)
  rcases hx : x s with ⟨o, s'⟩
  rw [hx] at hends
  cases o with
  | ok a => exact hQ a s' hends
  | err e => exact hE _ s' hends
  | stop w => exact hE _ s' hends

theorem pre (h : Triple P x Q E) (hP : ∀ s, P' s → P s) : Triple P' x Q E :=
  h.weaken hP (fun _ _ hq => hq) (fun _ _ he => he)

theorem post (h : Triple P x Q E) (hQ : ∀ a s, Q a s → Q' a s) (hE : ∀ e s, E e s → E' e s) :
    Triple P x Q' E' :=
  h.weaken (fun _ hp => hp) hQ hE

/-- A precondition that names the state leaves one run to consider. -/
theorem of_eq {s₀ : σ} (h : Ends Q E (x s₀)) : Triple (fun s => s = s₀) x Q E := by
  intro s hs
  rw [hs]
  exact h

/-- A run from a named state that returns is itself a fact about the state it leaves. -/
theorem with_run {s₀ : σ} (h : Triple (fun s => s = s₀) x Q E) :
    Triple (fun s => s = s₀) x (fun a s => x s₀ = (.ok a, s) ∧ Q a s) E := by
  refine of_eq ?_
  have hends := h s₀ rfl
  rcases hx : x s₀ with ⟨o, s'⟩
  rw [hx] at hends
  cases o with
  | ok a => exact ⟨rfl, hends⟩
  | err e => exact hends
  | stop w => exact hends

/-- A part of the precondition that does not mention the state. -/
theorem of_fact {p : Prop} (h : p → Triple P x Q E) : Triple (fun s => p ∧ P s) x Q E :=
  fun s hs => h hs.1 s hs.2

theorem exists_pre {ι : Type} {P : ι → σ → Prop} (h : ∀ i, Triple (P i) x Q E) :
    Triple (fun s => ∃ i, P i s) x Q E := by
  intro s hs
  obtain ⟨i, hi⟩ := hs
  exact h i s hi

/-! ## One rule for each construct -/

theorem pure {a : α} (h : ∀ s, P s → Q a s) : Triple P (pure a : Proc σ ε α) Q E := h

theorem raise {e : ε} (h : ∀ s, P s → E (some e) s) : Triple P (raise e : Proc σ ε α) Q E := h

theorem halt {w : Stop} (h : ∀ s, P s → E none s) : Triple P (halt w : Proc σ ε α) Q E := h

theorem get {Q : σ → σ → Prop} (h : ∀ s, P s → Q s s) : Triple P (get : Proc σ ε σ) Q E := h

theorem modify {f : σ → σ} {Q : Unit → σ → Prop} (h : ∀ s, P s → Q () (f s)) :
    Triple P (modify f : Proc σ ε Unit) Q E := h

theorem ofExcept {r : Except ε α} (hok : ∀ a, r = .ok a → ∀ s, P s → Q a s)
    (herr : ∀ e, r = .error e → ∀ s, P s → E (some e) s) :
    Triple P (ofExcept r : Proc σ ε α) Q E := by
  cases r with
  | ok a => exact pure (hok a rfl)
  | error e => exact raise (herr e rfl)

theorem bind {f : α → Proc σ ε β} {R : β → σ → Prop} (hx : Triple P x Q E)
    (hf : ∀ a, Triple (Q a) (f a) R E) : Triple P (x >>= f) R E := by
  intro s hs
  have hends := hx s hs
  rw [bind_apply]
  rcases hxs : x s with ⟨o, s'⟩
  rw [hxs] at hends
  cases o with
  | ok a => exact hf a s' hends
  | err e => exact hends
  | stop w => exact hends

/-- What follows a procedure that never returns a value is not run. -/
theorem bind_never {f : α → Proc σ ε β} {R : β → σ → Prop}
    (hx : Triple P x (fun _ _ => False) E) : Triple P (x >>= f) R E :=
  bind hx fun _ _ h => h.elim

/-- What an attempt hands over: a value, or the error. -/
theorem attempt {Q : Except ε α → σ → Prop} {E : Option ε' → σ → Prop}
    (h : Triple P x (fun a => Q (.ok a))
      (fun e s => match e with | some e => Q (.error e) s | none => E none s)) :
    Triple P (attempt x : Proc σ ε' (Except ε α)) Q E := by
  intro s hs
  have hends := h s hs
  unfold Proc.attempt
  rcases hx : x s with ⟨o, s'⟩
  rw [hx] at hends
  cases o <;> exact hends

theorem mapErr {f : ε → ε'} {E : Option ε' → σ → Prop}
    (h : Triple P x Q (fun e => E (e.map f))) : Triple P (mapErr f x) Q E := by
  have hattempt : Triple P (Proc.attempt x)
      (fun r s => (∀ a, r = .ok a → Q a s) ∧ ∀ e, r = .error e → E (some (f e)) s) E := by
    apply attempt
    apply h.post
    · intro a s hq
      simpa using hq
    · intro e s he
      cases e with
      | none => exact he
      | some e => simpa using he
  refine bind hattempt fun r => ?_
  cases r with
  | ok a => exact pure fun _ hq => hq.1 a rfl
  | error e => exact raise fun _ he => he.2 e rfl

/-- Carry an invariant through a loop, up to the round that breaks. -/
theorem loop {step : γ → Proc σ ε (γ ⊕ β)} {I : γ → σ → Prop} {Q : β → σ → Prop}
    (hstep : ∀ c, Triple (I c) (step c) (fun r => Sum.elim I Q r) E)
    (hfuel : ∀ c s, I c s → E none s) : ∀ n c, Triple (I c) (Proc.loop step n c) Q E
  | 0, c => halt (hfuel c)
  | n + 1, c => (hstep c).bind fun r => by
    cases r with
    | inl c' => exact loop hstep hfuel n c'
    | inr b => exact pure fun _ h => h

/-- Carry an invariant, indexed by the elements still to come, through a traversal. -/
theorem forEach {f : α → Proc σ ε β} {I : List α → σ → Prop} {E : Option ε → σ → Prop}
    (hf : ∀ a as, Triple (I (a :: as)) (f a) (fun _ => I as) E) :
    ∀ as, Triple (I as) (forEach f as) (fun _ => I []) E
  | [] => pure fun _ h => h
  | a :: as => (hf a as).bind fun _ => (forEach hf as).bind fun _ => pure fun _ h => h

/-- A fact that relates every result of a traversal to its element. -/
theorem forEach_pairs {f : α → Proc σ ε β} {R : α → β → Prop} {as : List α}
    (hf : ∀ a ∈ as, Triple P (f a) (fun b s => P s ∧ R a b) E) :
    Triple P (Proc.forEach f as) (fun bs s => P s ∧ List.Forall₂ R as bs) E := by
  induction as with
  | nil => exact pure fun s hs => ⟨hs, .nil⟩
  | cons a as ih =>
    refine (hf a List.mem_cons_self).bind fun b => ?_
    refine (of_fact fun hb => ?_).pre fun s hs => ⟨hs.2, hs.1⟩
    refine (ih fun a' ha' => hf a' (List.mem_cons_of_mem a ha')).bind fun bs => ?_
    exact pure fun s hs => ⟨hs.1, .cons hb hs.2⟩

/-- A traversal of checks that change nothing: it returns when every check passes, and does not
return when one of them fails. -/
theorem forEach_check {f : α → Proc σ ε β} {C : α → Prop}
    (hf : ∀ a, Triple P (f a) (fun _ s => P s ∧ C a) (fun _ s => P s ∧ ¬ C a)) :
    ∀ as, Triple P (Proc.forEach f as) (fun _ s => P s ∧ ∀ a ∈ as, C a)
      (fun _ s => P s ∧ ¬ ∀ a ∈ as, C a)
  | [] => pure fun s hs => ⟨hs, by simp⟩
  | a :: as => by
    refine ((hf a).post (fun _ _ h => h) fun _ s h => ⟨h.1, fun hall => h.2 (hall a (by simp))⟩).bind
      fun _ => (of_fact fun ha => ?_).pre fun s hs => ⟨hs.2, hs.1⟩
    refine ((forEach_check hf as).post (fun _ _ h => h) fun _ s h =>
      ⟨h.1, fun hall => h.2 fun a' ha' => hall a' (List.mem_cons_of_mem a ha')⟩).bind fun _ =>
        pure fun s hs => ⟨hs.1, fun a' ha' => ?_⟩
    rcases List.mem_cons.mp ha' with rfl | hmem
    · exact ha
    · exact hs.2 a' hmem

/-- A check that passes returns. -/
theorem check_ok {C : Prop} {s₀ : σ} (h : Triple (fun s => s = s₀) x (fun _ s => s = s₀ ∧ C)
    (fun _ s => s = s₀ ∧ ¬ C)) (hC : C) : ∃ a, x s₀ = (.ok a, s₀) := by
  have hends := h s₀ rfl
  rcases hx : x s₀ with ⟨o, s'⟩
  rw [hx] at hends
  cases o with
  | ok a => exact ⟨a, by rw [hends.1]⟩
  | err e => exact absurd hC hends.2
  | stop w => exact absurd hC hends.2

end Triple

/-! ## State relations and triples -/

/-- A run that never changes the state, with the value it returns. -/
theorem Respects.triple_eq {x : Proc σ ε α} (h : Respects Eq x) (s₀ : σ) :
    Triple (fun s => s = s₀) x (fun a s => (x s₀).1 = .ok a ∧ s = s₀) (fun _ s => s = s₀) := by
  refine Triple.of_eq ?_
  have hsame := h s₀
  rcases hx : x s₀ with ⟨o, s'⟩
  rw [hx] at hsame
  cases o with
  | ok a => exact ⟨rfl, hsame.symm⟩
  | err e => exact hsame.symm
  | stop w => exact hsame.symm

theorem Respects.of_triple {R : σ → σ → Prop} {x : Proc σ ε α}
    (h : ∀ s₀, Triple (fun s => s = s₀) x (fun _ => R s₀) (fun _ => R s₀)) : Respects R x :=
  fun s => (h s).last rfl

theorem Respects.triple {R : σ → σ → Prop} {x : Proc σ ε α} (h : Respects R x) (s₀ : σ) :
    Triple (fun s => s = s₀) x (fun _ => R s₀) (fun _ => R s₀) := by
  refine Triple.of_eq ?_
  have hr := h s₀
  rcases hx : x s₀ with ⟨o, s'⟩
  rw [hx] at hr
  cases o <;> exact hr

end Proc

end Effect
