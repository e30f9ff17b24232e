import Mathlib.Algebra.Order.Ring.Int
import BlockchainOps.Algo.Error

/-!
# The daily request budget

`DailyBudget` counts requests against a window of one day that starts at a configured second of
the day. `check` asks whether a request may proceed and `record` commits one; both first roll
the window to the time they are given.

Times are unix seconds, `u64` in the source; a window start is computed in `i64`.
-/

namespace BlockchainOps.Algo

structure DailyBudgetConfig where
  maxRequestsPerDay : ℕ
  dayStartOffsetSecs : ℕ
deriving DecidableEq, Repr

structure DailyBudget where
  max : ℕ
  dayStartOffsetSecs : ℕ
  windowStartUnix : ℕ
  spent : ℕ
deriving DecidableEq, Repr

/-- `u64::saturating_add`. -/
def satAddU64 (a b : ℕ) : ℕ := min (a + b) (2 ^ 64 - 1)

/-- `u32::saturating_add`. -/
def satAddU32 (a b : ℕ) : ℕ := min (a + b) (2 ^ 32 - 1)

/-- `as i64` on a `u64`. -/
def asI64 (n : ℕ) : ℤ := if n < 2 ^ 63 then n else n - 2 ^ 64

namespace DailyBudget

/-- The start of the window that holds `now`: the greatest `k * 86400 + offset` up to it, or
zero before the first one. -/
def windowStartFor (now offset : ℕ) : ℕ :=
  let k := (asI64 now - asI64 offset) / 86400
  -- `toNat` is `.max(0) as u64`
  (k * 86400 + asI64 offset).toNat

/-- The end of the current window. -/
def windowEnd (b : DailyBudget) : ℕ := satAddU64 b.windowStartUnix 86400

/-- Roll the window, forward or back, to the one that holds `now`, and zero `spent`. -/
def roll (b : DailyBudget) (now : ℕ) : DailyBudget :=
  if now < b.windowStartUnix ∨ b.windowEnd ≤ now then
    { b with windowStartUnix := windowStartFor now b.dayStartOffsetSecs, spent := 0 }
  else b

def new (cfg : DailyBudgetConfig) (nowUnixSecs primedSpent : ℕ) : DailyBudget :=
  let dayStartOffsetSecs := cfg.dayStartOffsetSecs % 86400
  { max := cfg.maxRequestsPerDay
    dayStartOffsetSecs
    windowStartUnix := windowStartFor nowUnixSecs dayStartOffsetSecs
    spent := primedSpent }

/-- Roll, then say whether a request may proceed, or how long the window still lasts. -/
def check (b : DailyBudget) (nowUnixSecs : ℕ) : Except Duration Unit × DailyBudget :=
  let b := b.roll nowUnixSecs
  if b.max ≤ b.spent then (.error (Duration.fromSecs (b.windowEnd - nowUnixSecs)), b)
  else (.ok (), b)

/-- Roll, then commit one request. -/
def record (b : DailyBudget) (nowUnixSecs : ℕ) : DailyBudget :=
  let b := b.roll nowUnixSecs
  { b with spent := satAddU32 b.spent 1 }

/-! ## Fields -/

@[simp] theorem roll_max (b : DailyBudget) (now : ℕ) : (b.roll now).max = b.max := by
  unfold roll; split_ifs <;> rfl

@[simp] theorem roll_dayStartOffsetSecs (b : DailyBudget) (now : ℕ) :
    (b.roll now).dayStartOffsetSecs = b.dayStartOffsetSecs := by
  unfold roll; split_ifs <;> rfl

@[simp] theorem check_snd (b : DailyBudget) (now : ℕ) : (b.check now).2 = b.roll now := by
  unfold check
  simp only
  split_ifs <;> rfl

theorem check_ok_iff (b : DailyBudget) (now : ℕ) :
    (b.check now).1 = .ok () ↔ (b.roll now).spent < b.max := by
  unfold check
  simp only [roll_max]
  split_ifs with h
  · simpa using h
  · simpa using h

@[simp] theorem record_max (b : DailyBudget) (now : ℕ) : (b.record now).max = b.max :=
  roll_max b now

@[simp] theorem record_dayStartOffsetSecs (b : DailyBudget) (now : ℕ) :
    (b.record now).dayStartOffsetSecs = b.dayStartOffsetSecs :=
  roll_dayStartOffsetSecs b now

@[simp] theorem record_windowStartUnix (b : DailyBudget) (now : ℕ) :
    (b.record now).windowStartUnix = (b.roll now).windowStartUnix := rfl

@[simp] theorem record_spent (b : DailyBudget) (now : ℕ) :
    (b.record now).spent = satAddU32 (b.roll now).spent 1 := rfl

/-! ## Windows -/

/-- The window that holds `now` starts at most at `now`, and less than a day before it. -/
theorem windowStartFor_spec {now offset : ℕ} (hnow : now < 2 ^ 63) (hoffset : offset < 86400) :
    windowStartFor now offset ≤ now ∧ now < windowStartFor now offset + 86400 := by
  have h63 : offset < 2 ^ 63 := by omega
  unfold windowStartFor asI64
  rw [if_pos hnow, if_pos h63]
  dsimp only
  omega

theorem windowStartFor_le (now offset : ℕ) : windowStartFor now offset ≤ now := by
  unfold windowStartFor asI64
  dsimp only
  split_ifs <;> omega

theorem roll_windowStart_le (b : DailyBudget) (now : ℕ) :
    (b.roll now).windowStartUnix ≤ now := by
  unfold roll
  split_ifs with h
  · exact windowStartFor_le now _
  · omega

/-- A day later a window is over. -/
theorem roll_day_later {b : DailyBudget} {now later : ℕ} (hb : b.windowStartUnix ≤ now)
    (hlater : now + 86400 ≤ later) : (b.roll later).spent = 0 := by
  have hend : b.windowEnd ≤ later := by
    unfold windowEnd satAddU64
    omega
  unfold roll
  rw [if_pos (Or.inr hend)]

/-- The end of a window does not saturate. -/
theorem windowEnd_eq {b : DailyBudget} (h : b.windowStartUnix < 2 ^ 63) :
    b.windowEnd = b.windowStartUnix + 86400 := by
  unfold windowEnd satAddU64
  omega

/-- Rolling to a time from the window's start on keeps the window and the count, or moves on to a
later window that holds the time and starts from zero. -/
theorem roll_of_le {b : DailyBudget} {now : ℕ} (hoffset : b.dayStartOffsetSecs < 86400)
    (hnow : now < 2 ^ 63) (hle : b.windowStartUnix ≤ now) :
    (b.roll now = b ∧ now < b.windowStartUnix + 86400) ∨
      (b.windowStartUnix + 86400 ≤ now ∧ b.windowStartUnix < (b.roll now).windowStartUnix ∧
        now < (b.roll now).windowStartUnix + 86400 ∧ (b.roll now).spent = 0) := by
  have hend := windowEnd_eq (b := b) (by omega)
  obtain ⟨hstart, hwithin⟩ := windowStartFor_spec hnow hoffset
  unfold roll
  split_ifs with h
  · refine Or.inr ⟨by omega, ?_, hwithin, rfl⟩
    show b.windowStartUnix < windowStartFor now b.dayStartOffsetSecs
    omega
  · exact Or.inl ⟨rfl, by omega⟩

end DailyBudget

end BlockchainOps.Algo
