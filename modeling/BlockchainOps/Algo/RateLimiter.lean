import Mathlib.Data.Rat.Floor
import BlockchainOps.Algo.Error

/-!
# The outbound token bucket

`RateLimiter` is the token bucket of a client: a request takes one token, and tokens come back
continuously up to the capacity. `poll` either takes a token and answers zero, or answers how
long to wait for the next one.

The `f64` values of the source are exact rationals here; an instant is a number of
nanoseconds, and `Duration::from_secs_f64` rounds to the nearest one, ties to even.
-/

namespace BlockchainOps.Algo

/-- What the limiter does when the bucket is empty. -/
inductive RateLimitMode
  | block
  | reject
deriving DecidableEq, Repr

structure RateLimitConfig where
  maxRequests : ℕ
  perMillis : ℕ
  mode : RateLimitMode
deriving DecidableEq, Repr

structure RateLimiter where
  capacity : ℚ
  tokens : ℚ
  refillPerSec : ℚ
  lastRefill : ℕ
deriving DecidableEq, Repr

/-- The nearest natural number, ties to even, of a non-negative rational. -/
def roundHalfEven (q : ℚ) : ℕ :=
  let n := ⌊q⌋.toNat
  let frac := q - n
  if frac < 1 / 2 ∨ (frac = 1 / 2 ∧ n % 2 = 0) then n else n + 1

/-- `Duration::from_secs_f64`. -/
def Duration.fromSecsF64 (secs : ℚ) : Duration := roundHalfEven (secs * 1000000000)

namespace RateLimiter

def new (cfg : RateLimitConfig) (now : ℕ) : RateLimiter :=
  let capacity : ℚ := max cfg.maxRequests 1
  let perSecs : ℚ := max cfg.perMillis 1 / 1000
  { capacity, tokens := capacity, refillPerSec := capacity / perSecs, lastRefill := now }

/-- The bucket refilled for the time since the last poll. -/
def refill (l : RateLimiter) (now : ℕ) : RateLimiter :=
  let elapsed : ℚ := (now - l.lastRefill : ℕ) / 1000000000
  { l with tokens := min (l.tokens + elapsed * l.refillPerSec) l.capacity, lastRefill := now }

/-- How long the bucket takes to fill up to one token, rounded to the nanosecond. -/
def untilToken (l : RateLimiter) : Duration :=
  Duration.fromSecsF64 ((1 - l.tokens) / l.refillPerSec)

/-- Refill, then take a token and answer zero, or answer how long to wait for one. -/
def poll (l : RateLimiter) (now : ℕ) : Duration × RateLimiter :=
  let l := l.refill now
  if 1 ≤ l.tokens then (0, { l with tokens := l.tokens - 1 })
  else (l.untilToken, l)

/-- A poll asks for no wait exactly when there is a token, or when the missing part of one
comes back within the rounding of the wait. -/
theorem poll_fst_eq_zero_iff (l : RateLimiter) (now : ℕ) :
    (l.poll now).1 = 0 ↔ 1 ≤ (l.refill now).tokens ∨ (l.refill now).untilToken = 0 := by
  unfold poll
  dsimp only
  split_ifs with h
  · exact ⟨fun _ => Or.inl h, fun _ => rfl⟩
  · exact ⟨Or.inr, fun h' => h'.resolve_left h⟩

end RateLimiter

end BlockchainOps.Algo
