import Mathlib.Data.List.Forall2
import BlockchainOps.Lib.Effect

/-!
# Sequences of calls

`calls f is s` makes the calls `f i` one after the other, whether they fail or not, and records each
of them; what does not return ends the sequence. `calls_history` is the induction over such a
sequence for a property of the state and of the calls made so far, and `calls_pairs` the one for
two programs that are called side by side.
-/

namespace Effect

/-- Forget which error it was. -/
def Outcome.eraseErr {ε α : Type} : Outcome ε α → Outcome Unit α
  | .ok a => .ok a
  | .err _ => .err ()
  | .stop w => .stop w

/-- Control comes back to the caller. -/
def Outcome.returns {ε α : Type} : Outcome ε α → Bool
  | .stop _ => false
  | _ => true

theorem Outcome.returns_eraseErr {ε α : Type} (o : Outcome ε α) :
    o.eraseErr.returns = o.returns := by
  cases o <;> rfl

namespace Proc

variable {ι κ σ τ ε ε' α β : Type}

/-! ## Errors -/

/-- The runs of `x`, forgetting which errors there were. -/
def forget (x : Proc σ ε α) : Proc σ Unit α := fun s => ((x s).1.eraseErr, (x s).2)

theorem forget_apply (x : Proc σ ε α) (s : σ) : forget x s = ((x s).1.eraseErr, (x s).2) := rfl

/-- Rewriting the errors makes no difference to what is left of them. -/
theorem forget_mapErr (f : ε → ε') (x : Proc σ ε α) : forget (mapErr f x) = forget x := by
  funext s
  unfold forget
  rw [mapErr_apply]
  rcases x s with ⟨_ | _ | _, s'⟩ <;> rfl

/-- What is on the right of a relation of two lists stands against something on the left. -/
theorem forall₂_mem_right {R : α → β → Prop} {as : List α} {bs : List β}
    (h : List.Forall₂ R as bs) {b : β} (hb : b ∈ bs) : ∃ a ∈ as, R a b := by
  induction h with
  | nil => exact absurd hb List.not_mem_nil
  | cons hab _ ih =>
    rcases List.mem_cons.mp hb with rfl | hrest
    · exact ⟨_, List.mem_cons_self, hab⟩
    · obtain ⟨a, ha, hR⟩ := ih hrest
      exact ⟨a, List.mem_cons_of_mem _ ha, hR⟩

/-! ## Calls -/

/-- One call: its argument, how it ended, and the state before and after. -/
structure Call (ι σ ε α : Type) where
  arg : ι
  before : σ
  outcome : Outcome ε α
  after : σ

/-- The call of `f i` in the state `s`. -/
def call (f : ι → Proc σ ε α) (i : ι) (s : σ) : Call ι σ ε α := ⟨i, s, (f i s).1, (f i s).2⟩

/-- Make the calls in order, up to one that does not return. -/
def calls (f : ι → Proc σ ε α) : List ι → σ → List (Call ι σ ε α)
  | [], _ => []
  | i :: is, s =>
    call f i s :: if (call f i s).outcome.returns then calls f is (call f i s).after else []

/-- Every call of a sequence is a run of `f`. -/
theorem of_mem_calls {f : ι → Proc σ ε α} {is : List ι} {s : σ} {c : Call ι σ ε α}
    (h : c ∈ calls f is s) : c = call f c.arg c.before := by
  induction is generalizing s with
  | nil => exact absurd h (by simp [calls])
  | cons i is ih =>
    rcases List.mem_cons.mp h with rfl | hrest
    · rfl
    · split_ifs at hrest
      · exact ih hrest
      · exact absurd hrest (by simp)

/-- A property of the calls made so far and the state they led to. -/
theorem calls_history {f : ι → Proc σ ε α} {I : List (Call ι σ ε α) → σ → Prop}
    (hstep : ∀ past i s, I past s → I (past ++ [call f i s]) (call f i s).after) {is : List ι} :
    ∀ (past : List (Call ι σ ε α)) {s : σ}, I past s → ∀ {pre post : List (Call ι σ ε α)}
      {c : Call ι σ ε α}, calls f is s = pre ++ c :: post → I (past ++ (pre ++ [c])) c.after := by
  induction is with
  | nil =>
    intro past s hI pre post c hcalls
    exact absurd hcalls (by simp [calls])
  | cons i is ih =>
    intro past s hI pre post c hcalls
    have hnext := hstep past i s hI
    unfold calls at hcalls
    rcases pre with _ | ⟨first, pre⟩
    · rw [List.nil_append, List.cons.injEq] at hcalls
      rw [← hcalls.1]
      exact hnext
    · rw [List.cons_append, List.cons.injEq] at hcalls
      obtain ⟨rfl, hrest⟩ := hcalls
      split_ifs at hrest
      · have hlast := ih _ hnext hrest
        rwa [List.append_assoc] at hlast
      · exact absurd hrest (by simp)

/-- Two programs called side by side: what relates their states relates their calls. -/
theorem calls_pairs {f : ι → Proc σ ε α} {g : κ → Proc τ ε' β} {A : ι → κ → Prop}
    {R : σ → τ → Prop} {S : Call ι σ ε α → Call κ τ ε' β → Prop}
    (hcall : ∀ i k s t, A i k → R s t → S (call f i s) (call g k t) ∧
      R (call f i s).after (call g k t).after ∧
      (call f i s).outcome.returns = (call g k t).outcome.returns)
    {is : List ι} {ks : List κ} (hargs : List.Forall₂ A is ks) {s : σ} {t : τ} (hR : R s t) :
    List.Forall₂ S (calls f is s) (calls g ks t) := by
  induction hargs generalizing s t with
  | nil => exact .nil
  | @cons i k is ks hik _ ih =>
    obtain ⟨hS, hafter, hreturns⟩ := hcall i k s t hik hR
    refine .cons hS ?_
    rw [hreturns]
    split_ifs
    · exact ih hafter
    · exact .nil

end Proc

end Effect
