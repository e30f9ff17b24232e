import BlockchainOps.Lib.Calls

/-!
# A secret that is asked for and remembered

What is locked opens under some secrets. A `Keyring` remembers the secret that opened something last
and tries it first; only when it does not open, somebody is asked, and the answer is
remembered if it opens. `retrieve` is the discipline for one thing that may be locked or not,
or may not be there at all.

The ring never remembers a secret that has opened nothing, and asks at most once, and not at all
where the remembered secret opens (`Retrieved`).
-/

namespace Effect

open Proc

/-- The secret remembered, and the one who is asked for others. -/
structure Keyring (π κ : Type) where
  secret : Option π
  asker : κ

namespace Keyring

variable {π κ ε ε' α : Type}

/-- What was found: something open, or something locked, by what it opens to under each secret. -/
inductive Found (π α : Type)
  | plain (a : α)
  | locked (opens : π → Option α)

/-- Open what is locked. -/
def unlock (opens : π → Option α) (ask : Proc κ ε π) (refused : ε) :
    Proc (Keyring π κ) ε α := fun r =>
  match r.secret.bind opens with
  | some a => (.ok a, r)
  | none =>
    match ask r.asker with
    | (.ok secret, asker) =>
      match opens secret with
      | some a => (.ok a, ⟨some secret, asker⟩)
      | none => (.err refused, { r with asker := asker })
    | (.err e, asker) => (.err e, { r with asker := asker })
    | (.stop w, asker) => (.stop w, { r with asker := asker })

/-- Open what was found, and say whether it was locked. -/
def retrieve (found : Outcome ε (Found π α)) (ask : Proc κ ε π) (refused : ε) :
    Proc (Keyring π κ) ε (α × Bool) :=
  match found with
  | .ok (.plain a) => pure (a, false)
  | .ok (.locked opens) => do
    let a ← unlock opens ask refused
    pure (a, true)
  | .err e => raise e
  | .stop w => halt w

/-- What a call of `unlock` keeps to. -/
structure Unlocked (opens : π → Option α) (ask : Proc κ ε π) (before : Keyring π κ)
    (outcome : Outcome ε α) (after : Keyring π κ) : Prop where
  /-- What is locked opened under the secret remembered now. -/
  opened : ∀ a, outcome = .ok a → ∃ secret, after.secret = some secret ∧ opens secret = some a
  /-- A failure changes nothing that is remembered. -/
  failed : (∀ a, outcome ≠ .ok a) → after.secret = before.secret
  /-- Nobody is asked, or somebody once, when the secret remembered does not open it. -/
  asked : after.asker = before.asker ∨
    (after.asker = (ask before.asker).2 ∧ before.secret.bind opens = none)
  /-- A secret that was not remembered before is the answer. -/
  learnt : after.secret = before.secret ∨
    ∃ secret, (ask before.asker).1 = .ok secret ∧ after.secret = some secret

/-- What a call of `retrieve` keeps to. -/
structure Retrieved (found : Outcome ε (Found π α)) (ask : Proc κ ε π) (before : Keyring π κ)
    (outcome : Outcome ε (α × Bool)) (after : Keyring π κ) : Prop where
  /-- What was locked opened under the secret remembered now. -/
  opened : ∀ a, outcome = .ok (a, true) → ∃ opens secret, found = .ok (.locked opens) ∧
    after.secret = some secret ∧ opens secret = some a
  /-- What was not locked is returned as it is. -/
  plain : ∀ a, outcome = .ok (a, false) → found = .ok (.plain a) ∧ after = before
  /-- A failure changes nothing that is remembered. -/
  failed : (∀ a, outcome ≠ .ok a) → after.secret = before.secret
  /-- Nobody is asked, or somebody once, when something is locked and the secret remembered does
  not open it. -/
  asked : after.asker = before.asker ∨ (after.asker = (ask before.asker).2 ∧
    ∃ opens, found = .ok (.locked opens) ∧ before.secret.bind opens = none)

section Runs

variable {opens : π → Option α} {ask : Proc κ ε π} {refused : ε} {r : Keyring π κ}

theorem unlock_of_opens {a : α} (h : r.secret.bind opens = some a) :
    unlock opens ask refused r = (.ok a, r) := by
  unfold unlock
  rw [h]

theorem unlock_of_none (h : r.secret.bind opens = none) :
    unlock opens ask refused r = match ask r.asker with
      | (.ok secret, asker) =>
        match opens secret with
        | some a => (.ok a, ⟨some secret, asker⟩)
        | none => (.err refused, { r with asker := asker })
      | (.err e, asker) => (.err e, { r with asker := asker })
      | (.stop w, asker) => (.stop w, { r with asker := asker }) := by
  unfold unlock
  rw [h]

theorem retrieve_locked : retrieve (.ok (.locked opens)) ask refused r =
    ((unlock opens ask refused r).1.map fun a => (a, true), (unlock opens ask refused r).2) := by
  show (unlock opens ask refused >>= fun a => pure (a, true)) r = _
  rw [bind_apply]
  rcases unlock opens ask refused r with ⟨_ | _ | _, r'⟩ <;> rfl

end Runs

/-- Unlocking keeps the discipline. -/
theorem unlock_kept (opens : π → Option α) (ask : Proc κ ε π) (refused : ε) (r : Keyring π κ) :
    Unlocked opens ask r (unlock opens ask refused r).1 (unlock opens ask refused r).2 := by
  rcases hcached : r.secret.bind opens with _ | b
  · rw [unlock_of_none hcached]
    have hasked : ∀ asker, (ask r.asker).2 = asker → asker = r.asker ∨
        (asker = (ask r.asker).2 ∧ r.secret.bind opens = none) :=
      fun asker h => Or.inr ⟨h.symm, hcached⟩
    rcases hask : ask r.asker with ⟨secret | e | w, asker⟩
    · simp only
      rcases hopens : opens secret with _ | b
      · exact ⟨by simp, fun _ => rfl, hasked asker (by rw [hask]), Or.inl rfl⟩
      · refine ⟨fun a h => ⟨secret, rfl, ?_⟩, fun h => absurd rfl (h b),
          hasked asker (by rw [hask]), Or.inr ⟨secret, by rw [hask], rfl⟩⟩
        rw [hopens, Outcome.ok.inj h]
    · exact ⟨by simp, fun _ => rfl, hasked asker (by rw [hask]), Or.inl rfl⟩
    · exact ⟨by simp, fun _ => rfl, hasked asker (by rw [hask]), Or.inl rfl⟩
  · -- the secret remembered opens it
    rw [unlock_of_opens hcached]
    obtain ⟨secret, hsecret, hopens⟩ := Option.bind_eq_some_iff.mp hcached
    refine ⟨fun a h => ⟨secret, hsecret, ?_⟩, fun h => absurd rfl (h b), Or.inl rfl,
      Or.inl rfl⟩
    rw [hopens, Outcome.ok.inj h]

/-- The discipline is kept. -/
theorem retrieve_kept (found : Outcome ε (Found π α)) (ask : Proc κ ε π) (refused : ε)
    (r : Keyring π κ) :
    Retrieved found ask r (retrieve found ask refused r).1 (retrieve found ask refused r).2 := by
  rcases found with (a | opens) | e | w
  · exact ⟨fun b h => absurd h (by simp [retrieve]), fun b h => ⟨by simpa [retrieve] using h, rfl⟩,
      fun h => absurd rfl (h (a, false)), Or.inl rfl⟩
  · rw [retrieve_locked]
    have hkept := unlock_kept opens ask refused r
    refine ⟨fun a h => ?_, fun a h => ?_, fun h => hkept.failed fun a ha => ?_, ?_⟩
    · obtain ⟨b, hb, hpair⟩ := Outcome.map_eq_ok.mp h
      obtain ⟨secret, hsecret, hopens⟩ := hkept.opened b hb
      have hab : b = a := (Prod.ext_iff.mp hpair).1
      exact ⟨opens, secret, rfl, hsecret, by rw [hopens, hab]⟩
    · obtain ⟨b, -, hpair⟩ := Outcome.map_eq_ok.mp h
      exact absurd (Prod.ext_iff.mp hpair).2 (by simp)
    · exact h (a, true) (by rw [ha]; rfl)
    · exact hkept.asked.imp id fun hasked => ⟨hasked.1, opens, rfl, hasked.2⟩
  · exact ⟨by simp [retrieve], by simp [retrieve], fun _ => rfl, Or.inl rfl⟩
  · exact ⟨by simp [retrieve], by simp [retrieve], fun _ => rfl, Or.inl rfl⟩

/-- A program that first looks what there is, and then deals with it as `retrieve` does, in a state
that `put` makes of the keyring, retrieves what it found. -/
theorem forget_find {σ β δ : Type} {x : Proc σ ε β} {k : β → Proc σ ε δ} {o : Outcome Unit β}
    {s : σ} (hx : forget x s = (o, s)) {g : β → Found π α} {ask : Proc κ Unit π}
    {r : Keyring π κ} {h : α × Bool → δ} {put : Keyring π κ → σ} (hput : put r = s)
    (hk : ∀ b, forget (k b) s = ((retrieve (.ok (g b)) ask () r).1.map h,
      put (retrieve (.ok (g b)) ask () r).2)) :
    forget (x >>= k) s = ((retrieve (o.map g) ask () r).1.map h,
      put (retrieve (o.map g) ask () r).2) := by
  rw [forget_apply] at hx
  rw [forget_apply, bind_apply]
  rcases hrun : x s with ⟨b | e | w, s'⟩
  all_goals
    rw [hrun] at hx
    obtain ⟨rfl, hs⟩ := Prod.ext_iff.mp hx
    have hs' : s' = s := hs
    subst hs'
  · exact hk b
  · exact Prod.ext rfl hput.symm
  · exact Prod.ext rfl hput.symm

end Keyring

end Effect
