import Mathlib.Data.List.Basic
import Mathlib.Data.List.Range

/-!
# Timelines: events in rounds

A `Timeline` lists the events of every round, in order, each stamped with its round.
`window lo hi` is the ordered list of the events of the rounds `lo..hi`. Two adjacent windows
join (`window_append`), and a list that is sorted by stamp and holds, round by round, exactly
the events of a window is that window (`eq_window`).
-/

/-- The events of every round, each carrying the round as its stamp. -/
structure Timeline (α : Type) (stamp : α → ℕ) where
  events : ℕ → List α
  stamped : ∀ r, ∀ e ∈ events r, stamp e = r

namespace Timeline

variable {α : Type} {stamp : α → ℕ}

/-- The events of the rounds `lo..hi`, in order. -/
def window (t : Timeline α stamp) (lo hi : ℕ) : List α :=
  (List.range' lo (hi + 1 - lo)).flatMap t.events

/-- No rounds, no events. -/
theorem window_of_lt (t : Timeline α stamp) {lo hi : ℕ} (h : hi < lo) : t.window lo hi = [] := by
  have hzero : hi + 1 - lo = 0 := by omega
  rw [window, hzero]
  rfl

/-- Adjacent windows join. -/
theorem window_append (t : Timeline α stamp) {lo mid hi : ℕ} (hlo : lo ≤ mid + 1)
    (hhi : mid ≤ hi) : t.window lo mid ++ t.window (mid + 1) hi = t.window lo hi := by
  have hstart : lo + (mid + 1 - lo) = mid + 1 := by omega
  have hsum : mid + 1 - lo + (hi + 1 - (mid + 1)) = hi + 1 - lo := by omega
  rw [window, window, window, ← List.flatMap_append]
  congr 1
  have happ : List.range' lo (mid + 1 - lo)
      ++ List.range' (lo + 1 * (mid + 1 - lo)) (hi + 1 - (mid + 1))
      = List.range' lo (mid + 1 - lo + (hi + 1 - (mid + 1))) := List.range'_append
  rw [Nat.one_mul, hstart, hsum] at happ
  exact happ

/-- A window that starts at an empty round may as well start after it. -/
theorem window_of_empty (t : Timeline α stamp) {lo : ℕ} (h : t.events lo = []) (hi : ℕ) :
    t.window lo hi = t.window (lo + 1) hi := by
  rcases Nat.lt_or_ge hi lo with hlt | hge
  · rw [window_of_lt t hlt, window_of_lt t (by omega)]
  · have hlen : hi + 1 - lo = (hi + 1 - (lo + 1)) + 1 := by omega
    rw [window, window, hlen, List.range'_succ, List.flatMap_cons, h, List.nil_append]

/-- A list sorted by `f` with values in a range is its classes, one after the other. -/
theorem eq_flatMap_filter (f : α → ℕ) :
    ∀ (n lo : ℕ) (l : List α), l.Pairwise (fun a b => f a ≤ f b) →
      (∀ a ∈ l, lo ≤ f a ∧ f a < lo + n) →
      l = (List.range' lo n).flatMap fun r => l.filter fun a => f a = r := by
  intro n
  induction n with
  | zero =>
    intro lo l _ hrange
    rcases l with _ | ⟨a, l⟩
    · rfl
    · have := hrange a List.mem_cons_self
      omega
  | succ n ih =>
    intro lo l hsorted hrange
    -- split off the events of the first round: sortedness puts them in front
    have hsplit : l = (l.filter fun a => f a = lo) ++ l.filter fun a => f a ≠ lo := by
      clear ih
      induction l with
      | nil => rfl
      | cons a l ihl =>
        rw [List.pairwise_cons] at hsorted
        by_cases ha : f a = lo
        · rw [List.filter_cons_of_pos (by simpa using ha),
            List.filter_cons_of_neg (by simpa using ha), List.cons_append,
            ← ihl hsorted.2 fun b hb => hrange b (List.mem_cons_of_mem _ hb)]
        · -- every later event is at least as late as `a`, so none is in the first round
          have hlater : ∀ b ∈ l, f b ≠ lo := by
            intro b hb
            have h1 := hsorted.1 b hb
            have h2 := hrange a List.mem_cons_self
            omega
          rw [List.filter_cons_of_neg (by simpa using ha),
            List.filter_cons_of_pos (by simpa using ha),
            List.filter_eq_nil_iff.mpr (by simpa using hlater),
            List.filter_eq_self.mpr (by simpa using hlater), List.nil_append]
    have hrest := ih (lo + 1) (l.filter fun a => f a ≠ lo) (hsorted.filter _) (by
      intro a ha
      rw [List.mem_filter] at ha
      have h1 := hrange a ha.1
      have h2 : f a ≠ lo := by simpa using ha.2
      omega)
    rw [List.range'_succ, List.flatMap_cons]
    calc l = (l.filter fun a => f a = lo) ++ l.filter fun a => f a ≠ lo := hsplit
      _ = (l.filter fun a => f a = lo) ++ (List.range' (lo + 1) n).flatMap fun r =>
            (l.filter fun a => f a ≠ lo).filter fun a => f a = r := congrArg _ hrest
      _ = _ := by
        congr 1
        refine List.flatMap_congr fun r hr => ?_
        have hr' := List.mem_range'_1.mp hr
        rw [List.filter_filter]
        refine List.filter_congr fun a _ => ?_
        by_cases har : f a = r
        · have hne : f a ≠ lo := by omega
          simp [har, har ▸ hne]
        · simp [har]

/-- A list sorted by stamp that holds, round by round, exactly the events of a window is the
window. -/
theorem eq_window (t : Timeline α stamp) {lo hi : ℕ} {l : List α}
    (hsorted : l.Pairwise fun a b => stamp a ≤ stamp b)
    (hexact : ∀ r, (l.filter fun a => stamp a = r)
      = if lo ≤ r ∧ r ≤ hi then t.events r else []) : l = t.window lo hi := by
  have hrange : ∀ a ∈ l, lo ≤ stamp a ∧ stamp a < lo + (hi + 1 - lo) := by
    intro a ha
    by_contra hout
    have hnone := hexact (stamp a)
    rw [if_neg (by omega)] at hnone
    have hmem : a ∈ l.filter fun b => stamp b = stamp a := List.mem_filter.mpr ⟨ha, by simp⟩
    rw [hnone] at hmem
    exact List.not_mem_nil hmem
  refine (eq_flatMap_filter stamp _ lo l hsorted hrange).trans ?_
  refine List.flatMap_congr fun r hr => ?_
  have hr' := List.mem_range'_1.mp hr
  rw [hexact r, if_pos (by omega)]

end Timeline
