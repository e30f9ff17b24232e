import BlockchainOps.Lib.Effect

/-!
# Loops, round by round

`loop_ends` is the induction over the rounds of a loop, where the invariant may speak of how the
loop ends as well as of the state. `loop_ok_round` and `loop_err_round` give the round in which a
loop ends, and a loop whose first round ends it is that round (`loop_snd_of_first`). `loop_fuel`
says that a loop whose rounds bring down a measure does not depend on how many rounds it is given
beyond that measure. `loop_counted` is for a loop that counts its rounds and goes on only below a
bound: it is over within as many rounds, and the round that ends it was reached through rounds that
went on.
-/

namespace Effect

namespace Proc

variable {σ ε β γ : Type}

/-- A round goes on with the invariant, or ends the loop with `Q`. -/
inductive RoundEnds (I : γ → σ → Prop) (Q : Outcome ε β → σ → Prop) :
    Outcome ε (γ ⊕ β) × σ → Prop
  | next {g : γ} {s : σ} (h : I g s) : RoundEnds I Q (.ok (.inl g), s)
  | done {b : β} {s : σ} (h : Q (.ok b) s) : RoundEnds I Q (.ok (.inr b), s)
  | err {e : ε} {s : σ} (h : Q (.err e) s) : RoundEnds I Q (.err e, s)
  | stop {w : Stop} {s : σ} (h : Q (.stop w) s) : RoundEnds I Q (.stop w, s)

/-- What every round keeps holds when the loop ends, or runs out of rounds. -/
theorem loop_ends {step : γ → Proc σ ε (γ ⊕ β)} {I : γ → σ → Prop} {Q : Outcome ε β → σ → Prop}
    (hstep : ∀ g s, I g s → RoundEnds I Q (step g s)) (hfuel : ∀ g s, I g s → Q (.stop .fuel) s)
    (n : ℕ) : ∀ g s, I g s → Q (loop step n g s).1 (loop step n g s).2 := by
  induction n with
  | zero => exact hfuel
  | succ n ih =>
    intro g s hs
    have hround := hstep g s hs
    unfold loop
    rw [bind_apply]
    rcases hrun : step g s with ⟨(g' | b) | e | w, t⟩ <;> rw [hrun] at hround
    · cases hround with | next h => exact ih g' t h
    · cases hround with | done h => exact h
    · cases hround with | err h => exact h
    · cases hround with | stop h => exact h

/-- A loop that returns does so in one of its rounds. -/
theorem loop_ok_round {step : γ → Proc σ ε (γ ⊕ β)} {b : β} {t : σ} (n : ℕ) :
    ∀ g s, loop step n g s = (.ok b, t) → ∃ g' s', step g' s' = (.ok (.inr b), t) := by
  induction n with
  | zero =>
    intro g s h
    cases h
  | succ n ih =>
    intro g s h
    obtain ⟨next | b', u, hround, hlast⟩ := bind_ok_iff.mp h
    · exact ih next u hlast
    · cases hlast
      exact ⟨g, s, hround⟩

/-- A loop that fails does so in one of its rounds. -/
theorem loop_err_round {step : γ → Proc σ ε (γ ⊕ β)} {e : ε} {t : σ} (n : ℕ) :
    ∀ g s, loop step n g s = (.err e, t) → ∃ g' s', step g' s' = (.err e, t) := by
  induction n with
  | zero =>
    intro g s h
    cases h
  | succ n ih =>
    intro g s h
    rcases bind_err_iff.mp h with hround | ⟨next | b, u, -, hlast⟩
    · exact ⟨g, s, hround⟩
    · exact ih next u hlast
    · cases hlast

/-- A loop whose first round does not go on ends in the state of that round. -/
theorem loop_snd_of_first {step : γ → Proc σ ε (γ ⊕ β)} (n : ℕ) {g : γ} {s : σ}
    (h : ∀ g', (step g s).1 ≠ .ok (.inl g')) : (loop step (n + 1) g s).2 = (step g s).2 := by
  unfold loop
  rw [bind_apply]
  rcases hrun : step g s with ⟨(g' | b) | e | w, t⟩
  · exact absurd (congrArg Prod.fst hrun) (h g')
  · rfl
  · rfl
  · rfl

/-- A loop may be given any number of rounds above a measure that each round brings down. -/
theorem loop_fuel {step : γ → Proc σ ε (γ ⊕ β)} (measure : γ → ℕ)
    (hstep : ∀ g s g' t, step g s = (.ok (.inl g'), t) → measure g' < measure g) (n : ℕ) :
    ∀ m g, measure g < n → measure g < m → loop step n g = loop step m g := by
  induction n with
  | zero =>
    intro m g hn
    omega
  | succ n ih =>
    intro m g hn hm
    obtain ⟨k, rfl⟩ : ∃ k, m = k + 1 := ⟨m - 1, by omega⟩
    funext s
    unfold loop
    rw [bind_apply, bind_apply]
    rcases hrun : step g s with ⟨(g' | b) | e | w, t⟩
    · have hless := hstep g s g' t hrun
      exact congrFun (ih k g' (by omega) (by omega)) t
    · rfl
    · rfl
    · rfl

/-! ## Loops that count their rounds -/

/-- The rounds from `k` in the state `s` to `n` in the state `t` all went on. -/
inductive CountsTo (step : ℕ → Proc σ ε (ℕ ⊕ β)) : ℕ → σ → ℕ → σ → Prop
  | here (k : ℕ) (s : σ) : CountsTo step k s k s
  | next {k n : ℕ} {s s' t : σ} (round : step k s = (.ok (.inl (k + 1)), s'))
      (rest : CountsTo step (k + 1) s' n t) : CountsTo step k s n t

/-- How a round ends the loop, in which state. -/
inductive Closes : Outcome ε (γ ⊕ β) × σ → Outcome ε β × σ → Prop
  | done (b : β) (s : σ) : Closes (.ok (.inr b), s) (.ok b, s)
  | err (e : ε) (s : σ) : Closes (.err e, s) (.err e, s)
  | stop (w : Stop) (s : σ) : Closes (.stop w, s) (.stop w, s)

theorem Closes.eq_of_map_inr {o : Outcome ε β} {s : σ} {r : Outcome ε β × σ}
    (h : Closes (o.map (Sum.inr : β → γ ⊕ β), s) r) : r = (o, s) := by
  rcases o with b | e | w <;> cases h <;> rfl

/-- A loop whose rounds are counted, and go on only below `max`, ends in one of these rounds. -/
theorem loop_counted {step : ℕ → Proc σ ε (ℕ ⊕ β)} {max : ℕ}
    (hstep : ∀ k s g t, step k s = (.ok (.inl g), t) → k < max ∧ g = k + 1) (more : ℕ) :
    ∀ k s, k + more = max → ∃ n t, n ≤ max ∧ CountsTo step k s n t ∧
      Closes (step n t) (loop step (more + 1) k s) := by
  induction more with
  | zero =>
    intro k s hk
    refine ⟨k, s, by omega, .here k s, ?_⟩
    unfold loop
    rw [bind_apply]
    rcases hround : step k s with ⟨(g | b) | e | w, t⟩
    · have hless := (hstep k s g t hround).1
      omega
    · exact .done b t
    · exact .err e t
    · exact .stop w t
  | succ more ih =>
    intro k s hk
    unfold loop
    rw [bind_apply]
    rcases hround : step k s with ⟨(g | b) | e | w, t⟩
    · have hg := (hstep k s g t hround).2
      rw [hg] at hround
      obtain ⟨n, u, hn, hcounts, hends⟩ := ih (k + 1) t (by omega)
      rw [← hg] at hends
      exact ⟨n, u, hn, .next hround hcounts, hends⟩
    · exact ⟨k, s, by omega, .here k s, by rw [hround]; exact .done b t⟩
    · exact ⟨k, s, by omega, .here k s, by rw [hround]; exact .err e t⟩
    · exact ⟨k, s, by omega, .here k s, by rw [hround]; exact .stop w t⟩

end Proc

end Effect
