import BlockchainOps.Algo.Metered
import BlockchainOps.Algo.RateLimiterTheorems

/-!
# How long the token bucket asks to wait

A bucket without a token answers the time in which the missing part of it comes back, rounded to
the nanosecond. Where that rounds down, what is still missing after the wait takes at most half a
nanosecond more, and the next answer rounds to zero: the wait is sufficient either way.
-/

namespace BlockchainOps.Algo

open Effect Proc

/-! ## Rounding -/

/-- Rounding moves a number by at most a half. -/
theorem roundHalfEven_error {q : ℚ} (hq : 0 ≤ q) :
    (roundHalfEven q : ℚ) ≤ q + 1 / 2 ∧ q ≤ roundHalfEven q + 1 / 2 := by
  have hfloor : ((⌊q⌋.toNat : ℕ) : ℚ) = ⌊q⌋ := by
    have hnonneg : 0 ≤ ⌊q⌋ := Int.floor_nonneg.mpr hq
    exact_mod_cast Int.toNat_of_nonneg hnonneg
  have hlow := Int.floor_le q
  have hhigh := Int.lt_floor_add_one q
  unfold roundHalfEven
  dsimp only
  rw [hfloor]
  split_ifs with h
  · have hhalf : q - ⌊q⌋ ≤ 1 / 2 := by
      rcases h with hlt | ⟨heq, -⟩
      · exact le_of_lt hlt
      · exact le_of_eq heq
    constructor
    · rw [hfloor]; linarith
    · rw [hfloor]; linarith
  · have hhalf : 1 / 2 ≤ q - ⌊q⌋ := by
      by_contra hlt
      exact h (Or.inl (not_le.mp hlt))
    push_cast
    constructor
    · rw [hfloor]; linarith
    · rw [hfloor]; linarith

theorem roundHalfEven_mono {p q : ℚ} (hp : 0 ≤ p) (hpq : p ≤ q) :
    roundHalfEven p ≤ roundHalfEven q := by
  by_contra hlt
  have hstep : roundHalfEven q + 1 ≤ roundHalfEven p := by omega
  have hcast : (roundHalfEven q : ℚ) + 1 ≤ roundHalfEven p := by exact_mod_cast hstep
  have hq := (roundHalfEven_error (le_trans hp hpq)).2
  have hpError := (roundHalfEven_error hp).1
  -- the errors leave room for no other number than a tie of both
  have heq : p = q := by linarith
  rw [heq] at hstep
  omega

theorem roundHalfEven_le_natCast {q : ℚ} {n : ℕ} (hq : 0 ≤ q) (hn : q ≤ n) :
    roundHalfEven q ≤ n := by
  have hmono := roundHalfEven_mono hq hn
  rw [RateLimiter.roundHalfEven_natCast] at hmono
  exact hmono

/-- What rounding down leaves rounds to nothing. -/
theorem roundHalfEven_rest {q rest : ℚ} (hq : 0 ≤ q) (hrest : 0 ≤ rest)
    (hle : rest ≤ q - roundHalfEven q) : roundHalfEven rest = 0 := by
  have herror := (roundHalfEven_error hq).2
  apply RateLimiter.roundHalfEven_eq_zero hrest
  linarith

/-- `Duration::from_secs_f64` panics on a negative number, and on one that no duration holds. -/
def Duration.FromSecsF64Panics (secs : ℚ) : Prop :=
  secs < 0 ∨ 2 ^ 64 * 1000000000 ≤ Duration.fromSecsF64 secs

namespace RateLimiter

variable {cfg : RateLimitConfig} {l : RateLimiter}

/-! ## Waits -/

/-- The wait that a poll asks for, where it asks for one. -/
theorem poll_of_wait {t : ℕ} (hwait : (l.poll t).1 ≠ 0) :
    (l.refill t).tokens < 1 ∧ l.poll t = ((l.refill t).untilToken, l.refill t) := by
  have htoken : ¬ 1 ≤ (l.refill t).tokens := by
    intro h
    exact hwait ((poll_fst_eq_zero_iff l t).mpr (Or.inl h))
  refine ⟨not_le.mp htoken, ?_⟩
  unfold poll
  dsimp only
  rw [if_neg htoken]

/-- The time, in nanoseconds, in which one token comes back. -/
theorem tokenNanos_le (cfg : RateLimitConfig) :
    (cfg.periodNanos : ℚ) / cfg.burst ≤ cfg.periodNanos := by
  have hone : (1 : ℚ) ≤ cfg.burst := Nat.one_le_cast.mpr (le_max_right _ _)
  exact div_le_self (le_of_lt (periodNanos_pos cfg)) hone

/-- The missing part of a token, in nanoseconds. -/
theorem missing_bounds (h : Of cfg l) (htoken : l.tokens < 1) :
    0 ≤ (1 - l.tokens) * (cfg.periodNanos / cfg.burst) ∧
      (1 - l.tokens) * (cfg.periodNanos / cfg.burst) ≤ (cfg.periodNanos : ℚ) / cfg.burst := by
  have htime : (0 : ℚ) ≤ cfg.periodNanos / cfg.burst :=
    le_of_lt (div_pos (periodNanos_pos cfg) (burst_pos cfg))
  have hnonneg := h.tokens_nonneg
  constructor
  · exact mul_nonneg (by linarith) htime
  · exact mul_le_of_le_one_left htime (by linarith)

theorem fromSecsF64_eq (h : Of cfg l) (parts : ℚ) :
    parts / l.refillPerSec * 1000000000 = parts * (cfg.periodNanos / cfg.burst) := by
  have hburst := burst_pos cfg
  have hperiod := periodNanos_pos cfg
  rw [h.refill_eq]
  field_simp

/-- A wait is at most the time of one token. -/
theorem untilToken_le (h : Of cfg l) (htoken : l.tokens < 1) :
    l.untilToken ≤ Duration.fromSecsF64 (1 / l.refillPerSec) := by
  obtain ⟨hnonneg, hle⟩ := missing_bounds h htoken
  unfold Duration.fromSecsF64
  rw [untilToken_eq h, fromSecsF64_eq h, one_mul]
  exact roundHalfEven_mono hnonneg hle

/-- No wait is too long for a duration. -/
theorem untilToken_not_panics (hmillis : cfg.perMillis < 2 ^ 64) (h : Of cfg l)
    (htoken : l.tokens < 1) : ¬ Duration.FromSecsF64Panics ((1 - l.tokens) / l.refillPerSec) := by
  obtain ⟨hnonneg, hle⟩ := missing_bounds h htoken
  have hrate : 0 < l.refillPerSec := by
    rw [h.refill_eq]
    exact mul_pos (div_pos (burst_pos cfg) (periodNanos_pos cfg)) (by norm_num)
  have hwait : Duration.fromSecsF64 ((1 - l.tokens) / l.refillPerSec) ≤ cfg.periodNanos := by
    unfold Duration.fromSecsF64
    rw [fromSecsF64_eq h]
    exact roundHalfEven_le_natCast hnonneg (le_trans hle (tokenNanos_le cfg))
  have hperiod : cfg.periodNanos < 2 ^ 64 * 1000000000 := by
    unfold RateLimitConfig.periodNanos
    omega
  intro hpanics
  rcases hpanics with hneg | hbig
  · exact absurd (div_nonneg (by linarith) (le_of_lt hrate)) (not_le.mpr hneg)
  · exact absurd (lt_of_le_of_lt hwait hperiod) (not_lt.mpr hbig)

/-- After the wait a poll asks for none. -/
theorem poll_after_wait (h : Of cfg l) (htoken : l.tokens < 1) {t : ℕ}
    (ht : l.lastRefill + l.untilToken ≤ t) : (l.poll t).1 = 0 := by
  rw [poll_fst_eq_zero_iff]
  by_cases hfull : 1 ≤ (l.refill t).tokens
  · exact Or.inl hfull
  right
  have hburst := burst_pos cfg
  have hperiod := periodNanos_pos cfg
  have hone : (1 : ℚ) ≤ cfg.burst := Nat.one_le_cast.mpr (le_max_right _ _)
  have hrefill := of_refill h t
  -- short of a token, the capacity does not cut the refill
  have htokens : (l.refill t).tokens
      = l.tokens + (t - l.lastRefill : ℕ) * (cfg.burst / cfg.periodNanos) := by
    rw [refill_tokens h] at hfull ⊢
    apply min_eq_left
    by_contra hcut
    rw [min_eq_right (le_of_lt (not_le.mp hcut))] at hfull
    exact hfull hone
  have hrest : (1 - (l.refill t).tokens) * (cfg.periodNanos / cfg.burst)
      = (1 - l.tokens) * (cfg.periodNanos / cfg.burst) - (t - l.lastRefill : ℕ) := by
    rw [htokens]
    field_simp
    ring
  obtain ⟨hnonneg, -⟩ := missing_bounds h htoken
  obtain ⟨hrestNonneg, -⟩ := missing_bounds hrefill (not_le.mp hfull)
  have helapsed : (l.untilToken : ℚ) ≤ (t - l.lastRefill : ℕ) := by
    have hnat : l.untilToken ≤ t - l.lastRefill := Nat.le_sub_of_add_le' ht
    exact_mod_cast hnat
  rw [untilToken_eq h] at helapsed
  rw [untilToken_eq hrefill]
  apply roundHalfEven_rest hnonneg hrestNonneg
  rw [hrest]
  linarith

/-- A bucket whose wait for the rest of a token rounds to nothing never asks for one. -/
theorem poll_stuck_fst (h : Of cfg l) (hwait : l.untilToken = 0) (t : ℕ) :
    (l.poll t).1 = 0 := by
  rw [poll_fst_eq_zero_iff]
  by_cases hfull : 1 ≤ (l.refill t).tokens
  · exact Or.inl hfull
  right
  have hrate := mul_nonneg (Nat.cast_nonneg (α := ℚ) (t - l.lastRefill))
    (le_of_lt (div_pos (burst_pos cfg) (periodNanos_pos cfg)))
  have hmore : l.tokens ≤ (l.refill t).tokens := by
    rw [refill_tokens h]
    exact le_min (by linarith) h.tokens_le
  have htime : (0 : ℚ) ≤ cfg.periodNanos / cfg.burst :=
    le_of_lt (div_pos (periodNanos_pos cfg) (burst_pos cfg))
  -- less is missing than before, and that already rounds to nothing
  rw [untilToken_eq h] at hwait
  rw [untilToken_eq (of_refill h t)]
  have hmono := roundHalfEven_mono (mul_nonneg (sub_nonneg.mpr (le_of_not_ge hfull)) htime)
    (mul_le_mul_of_nonneg_right (sub_le_sub_left hmore 1) htime)
  exact Nat.le_zero.mp (hwait ▸ hmono)

end RateLimiter

/-! ## Callers that wait -/

section Callers

variable {c : Session} {operation : String} {s : World} {l : RateLimiter}

/-- The world after a poll of the bucket. -/
def World.polled (s : World) (l : RateLimiter) (now : ℕ) : World :=
  { s with rateLimiter := some (l.poll now).2, moment := s.moment + 1 }

/-- A poll that asks for no wait ends the rounds. -/
theorem loop_pollOnce_granted (n : ℕ) (hl : s.rateLimiter = some l)
    (hzero : (l.poll (c.env.instant s.moment)).1 = 0) :
    loop (fun _ : Unit => pollOnce c operation) (n + 1) () s
      = (.ok (), s.polled l (c.env.instant s.moment)) := by
  have hpoll := pollOnce_of_some c operation hl
  dsimp only at hpoll
  rw [if_pos hzero] at hpoll
  exact bind_of_ok hpoll

/-- A wait is slept out in a bucket that blocks. -/
theorem loop_pollOnce_slept (n : ℕ) (hl : s.rateLimiter = some l)
    (hwait : (l.poll (c.env.instant s.moment)).1 ≠ 0) (hblocks : c.rejects = false) :
    loop (fun _ : Unit => pollOnce c operation) (n + 1) () s
      = loop (fun _ : Unit => pollOnce c operation) n ()
        (s.polled l (c.env.instant s.moment)) := by
  have hpoll := pollOnce_of_some c operation hl
  dsimp only at hpoll
  rw [if_neg hwait, if_neg (by simp [hblocks])] at hpoll
  exact bind_of_ok hpoll

/-- A wait refuses the request in a bucket that rejects. -/
theorem loop_pollOnce_refused (n : ℕ) (hl : s.rateLimiter = some l)
    (hwait : (l.poll (c.env.instant s.moment)).1 ≠ 0) (hrejects : c.rejects = true) :
    loop (fun _ : Unit => pollOnce c operation) (n + 1) () s
      = refuse (.rateLimited operation (l.poll (c.env.instant s.moment)).1)
        (s.polled l (c.env.instant s.moment)) := by
  have hpoll := pollOnce_of_some c operation hl
  dsimp only at hpoll
  rw [if_neg hwait, if_pos hrejects] at hpoll
  exact bind_of_err hpoll

end Callers

/-! ## Waits are sufficient -/

/-- The wait that a poll of `l` at the time `t` asks for is sufficient: nothing was taken, it is at
most the time of one token and can be computed, and a poll after it asks for none. So a caller who
blocks needs one sleep, and one who was refused is let through after the time it was told. -/
structure WaitSuffices (l : RateLimiter) (t : ℕ) : Prop where
  kept : (l.poll t).2 = l.refill t
  bounded : (l.poll t).1 ≤ Duration.fromSecsF64 (1 / l.refillPerSec)
  computed : (l.poll t).1 = Duration.fromSecsF64 ((1 - (l.refill t).tokens) / l.refillPerSec) ∧
    0 < l.refillPerSec ∧
    ¬ Duration.FromSecsF64Panics ((1 - (l.refill t).tokens) / l.refillPerSec)
  granted : ∀ t', t + (l.poll t).1 ≤ t' → ((l.poll t).2.poll t').1 = 0
  blocks : ∀ (c : Session) (operation : String) (s : World), s.rateLimiter = some l →
    c.env.instant s.moment = t → c.rejects = false → 2 ≤ c.env.fuel →
    t + (l.poll t).1 ≤ c.env.instant (s.moment + 1) →
      takeToken c operation s
        = (.ok (), (s.polled l t).polled (l.poll t).2 (c.env.instant (s.moment + 1)))
  rejects : ∀ (c : Session) (operation : String) (s : World), s.rateLimiter = some l →
    c.env.instant s.moment = t → c.rejects = true → 1 ≤ c.env.fuel →
      ∃ s' e, takeToken c operation s = (.err (.typed e), s') ∧
        e.retryAfter = some (l.poll t).1 ∧
        ∀ later : World, later.rateLimiter = s'.rateLimiter →
          t + (l.poll t).1 ≤ c.env.instant later.moment →
            (takeToken c operation later).1 = .ok ()

namespace RateLimiter

variable {cfg : RateLimitConfig} {l : RateLimiter}

theorem waitSuffices_of (hmillis : cfg.perMillis < 2 ^ 64) (h : Of cfg l) {t : ℕ}
    (hwait : (l.poll t).1 ≠ 0) : WaitSuffices l t := by
  have hrefill := of_refill h t
  obtain ⟨htoken, hpoll⟩ := poll_of_wait hwait
  have hfst : (l.poll t).1 = (l.refill t).untilToken := congrArg Prod.fst hpoll
  have hsnd : (l.poll t).2 = l.refill t := congrArg Prod.snd hpoll
  have hrate : 0 < l.refillPerSec := by
    rw [h.refill_eq]
    exact mul_pos (div_pos (burst_pos cfg) (periodNanos_pos cfg)) (by norm_num)
  have hgranted : ∀ t', t + (l.poll t).1 ≤ t' → ((l.poll t).2.poll t').1 = 0 := by
    intro t' ht'
    rw [hfst] at ht'
    rw [hsnd]
    exact poll_after_wait hrefill htoken ht'
  refine ⟨hsnd, ?_, ⟨hfst, hrate, untilToken_not_panics hmillis hrefill htoken⟩, hgranted, ?_, ?_⟩
  · rw [hfst]
    exact untilToken_le hrefill htoken
  · intro c operation s hl hnow hblocks hfuel hslept
    obtain ⟨n, hn⟩ : ∃ n, c.env.fuel = n + 1 + 1 := ⟨c.env.fuel - 2, by omega⟩
    unfold takeToken
    rw [hn, loop_pollOnce_slept (n + 1) hl (by rw [hnow]; exact hwait) hblocks, hnow]
    exact loop_pollOnce_granted n rfl (hgranted _ hslept)
  · intro c operation s hl hnow hrejects hfuel
    obtain ⟨n, hn⟩ : ∃ n, c.env.fuel = n + 1 := ⟨c.env.fuel - 1, by omega⟩
    refine ⟨(s.polled l t).record (.refused (.rateLimited operation (l.poll t).1)),
      .rateLimited operation (l.poll t).1, ?_, rfl, ?_⟩
    · unfold takeToken
      rw [hn, loop_pollOnce_refused n hl (by rw [hnow]; exact hwait) hrejects, hnow]
      rfl
    · intro later hlater hslept
      unfold takeToken
      rw [hn, loop_pollOnce_granted n hlater (hgranted _ hslept)]

/-- Every wait that the bucket of a configuration asks for, after any polls, is sufficient. -/
theorem wait_suffices (cfg : RateLimitConfig) (hmillis : cfg.perMillis < 2 ^ 64) (now : ℕ)
    (ts : List ℕ) (t : ℕ) (hwait : ((stateAfter poll (new cfg now) ts).poll t).1 ≠ 0) :
    WaitSuffices (stateAfter poll (new cfg now) ts) t :=
  waitSuffices_of hmillis (stateAfter_induct of_poll (of_new cfg now) ts) hwait

/-- The bucket of one request a second asks the second caller to wait. -/
theorem wait_suffices_second_request :
    WaitSuffices (stateAfter poll (new ⟨1, 1000, .reject⟩ 0) [0]) 0 :=
  wait_suffices ⟨1, 1000, .reject⟩ (by decide) 0 [0] 0 (by decide +kernel)

end RateLimiter

end BlockchainOps.Algo
