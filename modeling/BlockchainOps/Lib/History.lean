import Mathlib.Data.List.Infix
import Mathlib.Data.Nat.Notation

/-!
# Histories of applied operations

A server applies operations to its state one after the other, and none of them twice. A
`History apply` is what it did: the operations applied by each moment, which are never taken back,
and the states that they led to. `apply` refuses an operation with `none`.

Where it is known which operations can have been applied between two moments, the state at the
later one follows from the state at the earlier one (`state_eq_of_none_applied`,
`apply_of_one_applied`).
-/

namespace Ledger

variable {τ σ β : Type}

/-- The operations applied by each moment, and the state at each moment. -/
structure History (apply : τ → σ → Option σ) where
  applied : ℕ → List τ
  state : ℕ → σ
  once : ∀ m, (applied m).Nodup
  follows : ∀ m n, m ≤ n → ∃ later, applied n = applied m ++ later ∧
    later.foldlM (fun s op => apply op s) (state m) = some (state n)

namespace History

variable {apply : τ → σ → Option σ} (H : History apply) {m n : ℕ} {op : τ}

/-- Nothing is taken back. -/
theorem mem_of_le (h : m ≤ n) (hop : op ∈ H.applied m) : op ∈ H.applied n := by
  obtain ⟨later, happlied, -⟩ := H.follows m n h
  rw [happlied]
  exact List.mem_append_left later hop

/-- Of two moments the one that knows more operations is the later one. -/
theorem le_of_mem (hop : op ∈ H.applied n) (hnew : op ∉ H.applied m) : m ≤ n := by
  by_contra hlt
  exact hnew (H.mem_of_le (by omega) hop)

/-- A state that no operation was applied to is the same later. -/
theorem state_eq_of_none_applied (h : m ≤ n) (hnone : ∀ x ∈ H.applied n, x ∈ H.applied m) :
    H.state n = H.state m := by
  obtain ⟨later, happlied, hfold⟩ := H.follows m n h
  have hdistinct := H.once n
  rw [happlied, List.nodup_append] at hdistinct
  have hempty : later = [] := by
    apply List.eq_nil_iff_forall_not_mem.mpr
    intro x hx
    have hearlier : x ∈ H.applied m := by
      apply hnone
      rw [happlied]
      exact List.mem_append_right _ hx
    exact hdistinct.2.2 x hearlier x hx rfl
  rw [hempty] at hfold
  exact (Option.some.inj hfold).symm

/-- A state that one operation was applied to is what that operation makes of it. -/
theorem apply_of_one_applied (hop : op ∈ H.applied n) (hnew : op ∉ H.applied m)
    (hone : ∀ x ∈ H.applied n, x ∈ H.applied m ∨ x = op) :
    apply op (H.state m) = some (H.state n) := by
  obtain ⟨later, happlied, hfold⟩ := H.follows m n (H.le_of_mem hop hnew)
  have hdistinct := H.once n
  rw [happlied, List.nodup_append] at hdistinct
  have honly : ∀ x ∈ later, x = op := by
    intro x hx
    have hlisted : x ∈ H.applied n := by
      rw [happlied]
      exact List.mem_append_right _ hx
    rcases hone x hlisted with hearlier | hsame
    · exact absurd rfl (hdistinct.2.2 x hearlier x hx)
    · exact hsame
  have hlater : op ∈ later := by
    rw [happlied] at hop
    exact (List.mem_append.mp hop).resolve_left hnew
  have hsingle : later = [op] := by
    rcases later with _ | ⟨x, _ | ⟨y, rest⟩⟩
    · exact absurd hlater (by simp)
    · rw [honly x (by simp)]
    · have hx := honly x (by simp)
      have hy := honly y (by simp)
      have hne := (List.nodup_cons.mp hdistinct.2.1).1
      rw [hx, hy] at hne
      exact absurd (List.mem_cons_self) hne
  rw [hsingle] at hfold
  rcases happly : apply op (H.state m) with _ | s
  · simp [happly] at hfold
  · simpa [happly] using hfold

/-- What no operation changes is the same at all moments. -/
theorem state_invariant {f : σ → β} (hf : ∀ op s s', apply op s = some s' → f s' = f s) (m n : ℕ) :
    f (H.state m) = f (H.state n) := by
  have hfold : ∀ (ops : List τ) (s s' : σ),
      ops.foldlM (fun s op => apply op s) s = some s' → f s' = f s := by
    intro ops
    induction ops with
    | nil =>
      intro s s' h
      rw [Option.some.inj h]
    | cons op ops ih =>
      intro s s' h
      rcases happly : apply op s with _ | t
      · simp [happly] at h
      · have hrest : ops.foldlM (fun s op => apply op s) t = some s' := by simpa [happly] using h
        rw [ih t s' hrest, hf op s t happly]
  rcases Nat.le_total m n with hle | hle
  · obtain ⟨later, -, hlater⟩ := H.follows m n hle
    exact (hfold later _ _ hlater).symm
  · obtain ⟨later, -, hlater⟩ := H.follows n m hle
    exact hfold later _ _ hlater

end History

end Ledger
