import Mathlib.Algebra.Order.Field.Rat
import Mathlib.Data.List.Pairwise
import Mathlib.Tactic.Linarith
import Mathlib.Tactic.Ring

/-!
# Buckets that admit at a bounded rate

A `Bucket` answers polls at given times, and has a level that a granted poll lowers by one, that
grows at a bounded rate between polls and stays within a capacity. From these laws alone follows
the admission bound: in any window of time it grants no more polls than its capacity and what
it gains in the window (`Bucket.grantsIn_le`).
-/

/-- A bucket with its level at each time, were it left alone until then. -/
structure Bucket (S : Type) where
  poll : S → ℕ → Bool × S
  level : S → ℕ → ℚ
  rate : ℚ
  capacity : ℚ
  rate_nonneg : 0 ≤ rate
  level_nonneg : ∀ s t, 0 ≤ level s t
  level_le : ∀ s t, level s t ≤ capacity
  level_growth : ∀ s {t t' : ℕ}, t ≤ t' → level s t' ≤ level s t + rate * (t' - t)
  level_poll : ∀ s t, level (poll s t).2 t + (if (poll s t).1 then 1 else 0) ≤ level s t

/-- The answers to polls at the given times, each with its time. -/
def trace {S α : Type} (poll : S → ℕ → α × S) : S → List ℕ → List (ℕ × α)
  | _, [] => []
  | s, t :: ts => (t, (poll s t).1) :: trace poll (poll s t).2 ts

/-- The state the polls at the given times lead to. -/
def stateAfter {S α : Type} (poll : S → ℕ → α × S) (s : S) (ts : List ℕ) : S :=
  ts.foldl (fun s t => (poll s t).2) s

theorem stateAfter_append {S α : Type} (poll : S → ℕ → α × S) (s : S) (ts us : List ℕ) :
    stateAfter poll s (ts ++ us) = stateAfter poll (stateAfter poll s ts) us :=
  List.foldl_append

theorem trace_append {S α : Type} (poll : S → ℕ → α × S) (s : S) (ts us : List ℕ) :
    trace poll s (ts ++ us) = trace poll s ts ++ trace poll (stateAfter poll s ts) us := by
  induction ts generalizing s with
  | nil => rfl
  | cons t ts ih =>
    rw [List.cons_append, trace, ih, trace, List.cons_append]
    rfl

/-- What holds at first and is kept by a poll holds after any polls. -/
theorem stateAfter_induct {S α : Type} {poll : S → ℕ → α × S} {Inv : S → Prop}
    (hstep : ∀ s t, Inv s → Inv (poll s t).2) {s : S} (h : Inv s) (ts : List ℕ) :
    Inv (stateAfter poll s ts) := by
  induction ts generalizing s with
  | nil => exact h
  | cons t ts ih => exact ih (hstep s t h)

/-- How many answers from `lo` to `hi` meet `p`. -/
def countIn {α : Type} (p : α → Bool) (lo hi : ℕ) (answers : List (ℕ × α)) : ℕ :=
  (answers.filter fun a => lo ≤ a.1 ∧ a.1 ≤ hi ∧ p a.2).length

@[simp] theorem countIn_nil {α : Type} (p : α → Bool) (lo hi : ℕ) : countIn p lo hi [] = 0 := rfl

theorem countIn_cons {α : Type} (p : α → Bool) (lo hi : ℕ) (a : ℕ × α) (answers : List (ℕ × α)) :
    countIn p lo hi (a :: answers)
      = (if lo ≤ a.1 ∧ a.1 ≤ hi ∧ p a.2 = true then 1 else 0) + countIn p lo hi answers := by
  unfold countIn
  rw [List.filter_cons]
  split_ifs with h h' h'
  · rw [List.length_cons, Nat.add_comm]
  · exact absurd (by simpa using h) h'
  · exact absurd (by simpa using h') h
  · rw [Nat.zero_add]

theorem countIn_append {α : Type} (p : α → Bool) (lo hi : ℕ) (xs ys : List (ℕ × α)) :
    countIn p lo hi (xs ++ ys) = countIn p lo hi xs + countIn p lo hi ys := by
  unfold countIn
  rw [List.filter_append, List.length_append]

/-- Two pollings whose states stay related and whose answers agree count the same. -/
theorem countIn_trace_congr {S S' α β : Type} {poll : S → ℕ → α × S} {poll' : S' → ℕ → β × S'}
    {p : α → Bool} {q : β → Bool} (R : S → S' → Prop)
    (hstep : ∀ s s' t, R s s' →
      p (poll s t).1 = q (poll' s' t).1 ∧ R (poll s t).2 (poll' s' t).2)
    (lo hi : ℕ) : ∀ (ts : List ℕ) {s : S} {s' : S'}, R s s' →
      countIn p lo hi (trace poll s ts) = countIn q lo hi (trace poll' s' ts)
  | [], _, _, _ => rfl
  | t :: ts, s, s', h => by
    obtain ⟨hanswer, hnext⟩ := hstep s s' t h
    have ih := countIn_trace_congr R hstep lo hi ts hnext
    rw [trace, trace, countIn_cons, countIn_cons, ih, hanswer]

/-- Nothing is counted of what comes after the window. -/
theorem countIn_trace_eq_zero {S α : Type} (poll : S → ℕ → α × S) (p : α → Bool) (lo : ℕ)
    {hi : ℕ} : ∀ {ts : List ℕ} (s : S), (∀ t ∈ ts, hi < t) → countIn p lo hi (trace poll s ts) = 0
  | [], _, _ => rfl
  | t :: ts, s, h => by
    have ht := h t List.mem_cons_self
    have hrest := countIn_trace_eq_zero poll p lo (poll s t).2 fun u hu =>
      h u (List.mem_cons_of_mem t hu)
    rw [trace, countIn_cons, hrest, if_neg (by omega)]

namespace Bucket

variable {S : Type} (b : Bucket S)

/-- The polls granted from `lo` to `hi`, of those at the times `ts`. -/
def grantsIn (lo hi : ℕ) (s : S) (ts : List ℕ) : ℕ := countIn id lo hi (trace b.poll s ts)

/-- Polls from `a` on are granted at most as often as the level at `a` and its growth allow. -/
theorem grantsIn_le_level (lo : ℕ) {hi a : ℕ} (ha : a ≤ hi) :
    ∀ {ts : List ℕ} (s : S), (a :: ts).Pairwise (· ≤ ·) →
      (b.grantsIn lo hi s ts : ℚ) ≤ b.level s a + b.rate * (hi - a)
  | [], s, _ => by
    have hlevel := b.level_nonneg s a
    have hgrowth : 0 ≤ b.rate * ((hi : ℚ) - a) :=
      mul_nonneg b.rate_nonneg (sub_nonneg.mpr (Nat.cast_le.mpr ha))
    show ((0 : ℕ) : ℚ) ≤ _
    rw [Nat.cast_zero]
    linarith
  | t :: ts, s, hsorted => by
    rw [List.pairwise_cons] at hsorted
    have hat : a ≤ t := hsorted.1 t List.mem_cons_self
    rcases Nat.lt_or_ge hi t with hafter | hin
    · -- this poll and all later ones are past the window
      have hzero : b.grantsIn lo hi s (t :: ts) = 0 := by
        refine countIn_trace_eq_zero b.poll id lo s fun u hu => ?_
        rcases List.mem_cons.mp hu with rfl | hu
        · exact hafter
        · exact lt_of_lt_of_le hafter ((List.pairwise_cons.mp hsorted.2).1 u hu)
      have hlevel := b.level_nonneg s a
      have hgrowth : 0 ≤ b.rate * ((hi : ℚ) - a) :=
        mul_nonneg b.rate_nonneg (sub_nonneg.mpr (Nat.cast_le.mpr ha))
      rw [hzero, Nat.cast_zero]
      linarith
    · have ih := grantsIn_le_level lo hin (b.poll s t).2 hsorted.2
      have hpoll := b.level_poll s t
      have hgrow := b.level_growth s hat
      have hcount : (b.grantsIn lo hi s (t :: ts) : ℚ)
          ≤ (if (b.poll s t).1 then 1 else 0) + b.grantsIn lo hi (b.poll s t).2 ts := by
        unfold grantsIn
        rw [trace, countIn_cons, Nat.cast_add]
        have hone : ((if lo ≤ t ∧ t ≤ hi ∧ id (b.poll s t).1 = true then 1 else 0 : ℕ) : ℚ)
            ≤ if (b.poll s t).1 then 1 else 0 := by
          by_cases hgrant : (b.poll s t).1 = true
          · rw [if_pos hgrant]
            split_ifs
            · exact le_of_eq Nat.cast_one
            · exact le_of_eq_of_le Nat.cast_zero zero_le_one
          · rw [if_neg hgrant, if_neg fun h => hgrant h.2.2, Nat.cast_zero]
        exact add_le_add hone le_rfl
      have hsplit : b.rate * ((hi : ℚ) - a) = b.rate * (hi - t) + b.rate * (t - a) := by ring
      linarith

/-- The admission bound: the polls granted in a window are at most the capacity and what the
bucket gains in the window. -/
theorem grantsIn_le {lo hi : ℕ} (hwindow : lo ≤ hi) :
    ∀ {ts : List ℕ} (s : S), ts.Pairwise (· ≤ ·) →
      (b.grantsIn lo hi s ts : ℚ) ≤ b.capacity + b.rate * (hi - lo)
  | [], s, _ => by
    have hcount := b.grantsIn_le_level lo hwindow s (List.pairwise_singleton _ lo)
    have hlevel := b.level_le s lo
    linarith
  | t :: ts, s, hsorted => by
    rcases Nat.lt_or_ge t lo with hbefore | hfrom
    · -- a poll before the window is not counted
      have ih := grantsIn_le hwindow (b.poll s t).2 (List.pairwise_cons.mp hsorted).2
      have hskip : b.grantsIn lo hi s (t :: ts) = b.grantsIn lo hi (b.poll s t).2 ts := by
        unfold grantsIn
        rw [trace, countIn_cons, if_neg (by omega), Nat.zero_add]
      rw [hskip]
      exact ih
    · have hall : (lo :: t :: ts).Pairwise (· ≤ ·) := by
        refine List.pairwise_cons.mpr ⟨fun u hu => ?_, hsorted⟩
        rcases List.mem_cons.mp hu with rfl | hu
        · exact hfrom
        · exact le_trans hfrom ((List.pairwise_cons.mp hsorted).1 u hu)
      have hcount := b.grantsIn_le_level lo hwindow s hall
      have hlevel := b.level_le s lo
      linarith

end Bucket
