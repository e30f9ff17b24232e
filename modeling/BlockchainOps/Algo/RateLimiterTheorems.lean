import Mathlib.Data.Int.GCD
import Mathlib.Tactic.FieldSimp
import BlockchainOps.Lib.TokenBucket
import BlockchainOps.Algo.RateLimiter

/-!
# What the token bucket admits

A poll that answers zero lets a request out. The wait is rounded to whole nanoseconds, so a
poll also answers zero when the missing part of a token comes back in less than half a
nanosecond, and then no token is taken. Where the capacity divides the period every deficit is
a whole number of nanoseconds, the bucket is a `Bucket` and its admission bound holds; where it
does not, some run comes to an instant at which every poll answers zero.
-/

namespace BlockchainOps.Algo

/-- The bucket's size. -/
def RateLimitConfig.burst (cfg : RateLimitConfig) : ℕ := max cfg.maxRequests 1

/-- The time, in nanoseconds, in which an empty bucket fills up. -/
def RateLimitConfig.periodNanos (cfg : RateLimitConfig) : ℕ := max cfg.perMillis 1 * 1000000

namespace RateLimiter

/-- The polls from `lo` to `hi` that let a request out. -/
def admittedIn (lo hi : ℕ) (l : RateLimiter) (ts : List ℕ) : ℕ :=
  countIn (fun wait => wait = 0) lo hi (trace poll l ts)

/-- The admission bound of a configuration, over every run of polls in order of time. -/
structure Bounded (cfg : RateLimitConfig) : Prop where
  tokens : ∀ (now : ℕ) (ts : List ℕ), (now :: ts).Pairwise (· ≤ ·) →
    0 ≤ (stateAfter poll (new cfg now) ts).tokens ∧
    (stateAfter poll (new cfg now) ts).tokens ≤ cfg.burst
  admits : ∀ (now : ℕ) (ts : List ℕ), (now :: ts).Pairwise (· ≤ ·) → ∀ t₁ t₂ : ℕ, t₁ ≤ t₂ →
    (admittedIn t₁ t₂ (new cfg now) ts : ℚ)
      ≤ cfg.burst + cfg.burst * (t₂ - t₁) / cfg.periodNanos

/-! ## The states of a configuration's bucket -/

/-- What every poll keeps of a bucket made for `cfg`. -/
structure Of (cfg : RateLimitConfig) (l : RateLimiter) : Prop where
  capacity_eq : l.capacity = cfg.burst
  refill_eq : l.refillPerSec = cfg.burst / cfg.periodNanos * 1000000000
  tokens_nonneg : 0 ≤ l.tokens
  tokens_le : l.tokens ≤ cfg.burst

variable {cfg : RateLimitConfig} {l : RateLimiter}

theorem burst_pos (cfg : RateLimitConfig) : (0 : ℚ) < cfg.burst :=
  Nat.cast_pos.mpr (lt_of_lt_of_le Nat.one_pos (le_max_right _ _))

theorem periodNanos_pos (cfg : RateLimitConfig) : (0 : ℚ) < cfg.periodNanos :=
  Nat.cast_pos.mpr (Nat.mul_pos (lt_of_lt_of_le Nat.one_pos (le_max_right _ _)) (by decide))

theorem of_new (cfg : RateLimitConfig) (now : ℕ) : Of cfg (new cfg now) := by
  have hburst : max (cfg.maxRequests : ℚ) 1 = cfg.burst := by
    unfold RateLimitConfig.burst
    rw [Nat.cast_max, Nat.cast_one]
  have hperiod : ((max cfg.perMillis 1 : ℕ) : ℚ) * 1000000 = cfg.periodNanos := by
    unfold RateLimitConfig.periodNanos
    rw [Nat.cast_mul, Nat.cast_ofNat]
  have hmillis : (0 : ℚ) < (max cfg.perMillis 1 : ℕ) :=
    Nat.cast_pos.mpr (lt_of_lt_of_le Nat.one_pos (le_max_right _ _))
  have hnonneg := le_of_lt (burst_pos cfg)
  refine ⟨hburst, ?_, ?_, ?_⟩
  · show max (cfg.maxRequests : ℚ) 1 / ((max cfg.perMillis 1 : ℕ) / 1000) = _
    rw [hburst, ← hperiod]
    field_simp
    ring
  · show 0 ≤ max (cfg.maxRequests : ℚ) 1
    rwa [hburst]
  · exact le_of_eq hburst

/-- A refill adds what the rate gives for the time since the last one, up to the capacity. -/
theorem refill_tokens (h : Of cfg l) (t : ℕ) :
    (l.refill t).tokens
      = min (l.tokens + (t - l.lastRefill : ℕ) * (cfg.burst / cfg.periodNanos)) cfg.burst := by
  show min (l.tokens + (t - l.lastRefill : ℕ) / 1000000000 * l.refillPerSec) l.capacity = _
  rw [h.capacity_eq, h.refill_eq]
  congr 2
  ring

/-- Time that does not go on brings nothing back. -/
theorem refill_tokens_of_le (h : Of cfg l) {t : ℕ} (ht : t ≤ l.lastRefill) : (l.refill t).tokens = l.tokens := by
  rw [refill_tokens h, Nat.sub_eq_zero_of_le ht, Nat.cast_zero, zero_mul, add_zero]
  exact min_eq_left h.tokens_le

theorem of_refill (h : Of cfg l) (t : ℕ) : Of cfg (l.refill t) := by
  have hrate : (0 : ℚ) ≤ cfg.burst / cfg.periodNanos :=
    le_of_lt (div_pos (burst_pos cfg) (periodNanos_pos cfg))
  refine ⟨h.capacity_eq, h.refill_eq, ?_, ?_⟩
  · rw [refill_tokens h]
    have hgain := mul_nonneg (Nat.cast_nonneg (t - l.lastRefill)) hrate
    exact le_min (add_nonneg h.tokens_nonneg hgain) (le_of_lt (burst_pos cfg))
  · rw [refill_tokens h]
    exact min_le_right _ _

/-- A poll leaves the refilled bucket, less the token it took. -/
theorem poll_snd (l : RateLimiter) (t : ℕ) :
    (l.poll t).2 = if 1 ≤ (l.refill t).tokens
      then { l.refill t with tokens := (l.refill t).tokens - 1 } else l.refill t := by
  unfold poll
  dsimp only
  split_ifs <;> rfl

theorem of_poll (l : RateLimiter) (t : ℕ) (h : Of cfg l) : Of cfg (l.poll t).2 := by
  have hrefill := of_refill h t
  rw [poll_snd]
  split_ifs with htoken
  · have hle := hrefill.tokens_le
    refine ⟨hrefill.capacity_eq, hrefill.refill_eq, ?_, ?_⟩
    · show 0 ≤ (l.refill t).tokens - 1
      linarith
    · show (l.refill t).tokens - 1 ≤ cfg.burst
      linarith
  · exact hrefill

/-- Refilling again at the same instant changes nothing. -/
theorem refill_self (h : Of cfg l) : l.refill l.lastRefill = l := by
  have htokens := refill_tokens_of_le h (le_refl l.lastRefill)
  show ({ l with tokens := (l.refill l.lastRefill).tokens } : RateLimiter) = l
  rw [htokens]

/-! ## A capacity that divides the period -/

/-- The tokens are a whole number of the parts of which `grain` make one. -/
def OnGrid (grain : ℕ) (l : RateLimiter) : Prop := ∃ k : ℕ, l.tokens = k / grain

variable {grain : ℕ}

theorem grain_pos (hgrain : cfg.periodNanos = cfg.burst * grain) : (0 : ℚ) < grain := by
  have hperiod := periodNanos_pos cfg
  rw [hgrain, Nat.cast_mul] at hperiod
  exact pos_of_mul_pos_right hperiod (le_of_lt (burst_pos cfg))

/-- One part comes back in a nanosecond. -/
theorem rate_eq (hgrain : cfg.periodNanos = cfg.burst * grain) :
    (cfg.burst : ℚ) / cfg.periodNanos = 1 / grain := by
  have hgrainPos := grain_pos hgrain
  have hburst := burst_pos cfg
  rw [hgrain, Nat.cast_mul]
  field_simp

theorem onGrid_new (hgrain : cfg.periodNanos = cfg.burst * grain) (now : ℕ) :
    OnGrid grain (new cfg now) := by
  have hgrainPos := grain_pos hgrain
  refine ⟨cfg.burst * grain, ?_⟩
  have hfull : (new cfg now).tokens = cfg.burst := (of_new cfg now).capacity_eq
  rw [hfull, Nat.cast_mul]
  field_simp

theorem onGrid_refill (hgrain : cfg.periodNanos = cfg.burst * grain) (h : Of cfg l)
    (hgrid : OnGrid grain l) (t : ℕ) : OnGrid grain (l.refill t) := by
  have hgrainPos := grain_pos hgrain
  obtain ⟨k, hk⟩ := hgrid
  refine ⟨min (k + (t - l.lastRefill)) (cfg.burst * grain), ?_⟩
  rw [refill_tokens h, hk, rate_eq hgrain, Nat.cast_min, Nat.cast_add, Nat.cast_mul,
    ← min_div_div_right (le_of_lt hgrainPos), mul_div_cancel_right₀ _ (ne_of_gt hgrainPos),
    add_div, mul_one_div]

theorem onGrid_poll (hgrain : cfg.periodNanos = cfg.burst * grain) (h : Of cfg l)
    (hgrid : OnGrid grain l) (t : ℕ) : OnGrid grain (l.poll t).2 := by
  have hgrainPos := grain_pos hgrain
  have hrefill := onGrid_refill hgrain h hgrid t
  rw [poll_snd]
  split_ifs with htoken
  · obtain ⟨k, hk⟩ := hrefill
    have hle : grain ≤ k := by
      rw [hk, le_div_iff₀ hgrainPos, one_mul] at htoken
      exact Nat.cast_le.mp htoken
    refine ⟨k - grain, ?_⟩
    show (l.refill t).tokens - 1 = _
    rw [hk, Nat.cast_sub hle, sub_div, div_self (ne_of_gt hgrainPos)]
  · exact hrefill

theorem roundHalfEven_natCast (n : ℕ) : roundHalfEven n = n := by
  unfold roundHalfEven
  dsimp only
  rw [Int.floor_natCast, Int.toNat_natCast, sub_self, if_pos (Or.inl (by norm_num))]

/-- The wait for the rest of a token, in nanoseconds. -/
theorem untilToken_eq (h : Of cfg l) :
    l.untilToken = roundHalfEven ((1 - l.tokens) * (cfg.periodNanos / cfg.burst)) := by
  have hburst := burst_pos cfg
  have hperiod := periodNanos_pos cfg
  show roundHalfEven ((1 - l.tokens) / l.refillPerSec * 1000000000) = _
  rw [h.refill_eq]
  congr 1
  field_simp

/-- On the grid a bucket without a token asks for a wait. -/
theorem untilToken_ne_zero (hgrain : cfg.periodNanos = cfg.burst * grain) (h : Of cfg l)
    (hgrid : OnGrid grain l) (htoken : ¬ 1 ≤ l.tokens) : l.untilToken ≠ 0 := by
  have hgrainPos := grain_pos hgrain
  have hburst := burst_pos cfg
  obtain ⟨k, hk⟩ := hgrid
  have hlt : k < grain := by
    rw [hk, le_div_iff₀ hgrainPos, one_mul, not_le] at htoken
    exact Nat.cast_lt.mp htoken
  have hwait : (1 - l.tokens) * (cfg.periodNanos / cfg.burst) = ((grain - k : ℕ) : ℚ) := by
    rw [hk, hgrain, Nat.cast_sub (le_of_lt hlt), Nat.cast_mul]
    field_simp
  rw [untilToken_eq h, hwait, roundHalfEven_natCast]
  exact Nat.sub_ne_zero_of_lt hlt

/-- The buckets that stay on the grid admit at a bounded rate. -/
def gridBucket (cfg : RateLimitConfig) (hgrain : cfg.periodNanos = cfg.burst * grain) :
    Bucket { l : RateLimiter // Of cfg l ∧ OnGrid grain l } where
  poll l t := (decide ((l.1.poll t).1 = 0),
    ⟨(l.1.poll t).2, of_poll l.1 t l.2.1, onGrid_poll hgrain l.2.1 l.2.2 t⟩)
  level l t := (l.1.refill t).tokens
  rate := cfg.burst / cfg.periodNanos
  capacity := cfg.burst
  rate_nonneg := le_of_lt (div_pos (burst_pos cfg) (periodNanos_pos cfg))
  level_nonneg l t := (of_refill l.2.1 t).tokens_nonneg
  level_le l t := (of_refill l.2.1 t).tokens_le
  level_growth l t t' ht := by
    have hrate : (0 : ℚ) ≤ cfg.burst / cfg.periodNanos :=
      le_of_lt (div_pos (burst_pos cfg) (periodNanos_pos cfg))
    have helapsed : ((t' - l.1.lastRefill : ℕ) : ℚ) ≤ (t - l.1.lastRefill : ℕ) + (t' - t) := by
      have hnat : t' - l.1.lastRefill ≤ (t - l.1.lastRefill) + (t' - t) := by omega
      rw [← Nat.cast_sub ht, ← Nat.cast_add]
      exact Nat.cast_le.mpr hnat
    have hgain := mul_le_mul_of_nonneg_right helapsed hrate
    have hextra : (0 : ℚ) ≤ cfg.burst / cfg.periodNanos * (t' - t) :=
      mul_nonneg hrate (sub_nonneg.mpr (Nat.cast_le.mpr ht))
    rw [refill_tokens l.2.1, refill_tokens l.2.1, ← min_add_add_right]
    refine min_le_min ?_ (le_add_of_nonneg_right hextra)
    linarith
  level_poll l t := by
    have hkept := of_refill l.2.1 t
    have hnext := of_poll l.1 t l.2.1
    have hsame : (l.1.poll t).2.lastRefill = t := by
      rw [poll_snd]
      split_ifs <;> rfl
    have hlevel : ((l.1.poll t).2.refill t).tokens = (l.1.poll t).2.tokens := by
      have hself := refill_self hnext
      rw [hsame] at hself
      rw [hself]
    show ((l.1.poll t).2.refill t).tokens
      + (if decide ((l.1.poll t).1 = 0) = true then 1 else 0) ≤ (l.1.refill t).tokens
    rw [hlevel, poll_snd]
    by_cases htoken : 1 ≤ (l.1.refill t).tokens
    · rw [if_pos htoken, if_pos (by simpa [poll_fst_eq_zero_iff] using Or.inl htoken)]
      show (l.1.refill t).tokens - 1 + 1 ≤ _
      linarith
    · have hwaits := untilToken_ne_zero hgrain hkept (onGrid_refill hgrain l.2.1 l.2.2 t) htoken
      have hzero : ¬ (l.1.poll t).1 = 0 := by
        rw [poll_fst_eq_zero_iff]
        exact fun h => h.elim htoken hwaits
      rw [if_neg htoken, if_neg (by simpa using hzero), add_zero]

/-- Where the capacity divides the period the admission bound holds. -/
theorem admittedIn_le_of_dvd (hdvd : cfg.burst ∣ cfg.periodNanos) (now : ℕ) {ts : List ℕ}
    (hsorted : ts.Pairwise (· ≤ ·)) {t₁ t₂ : ℕ} (hwindow : t₁ ≤ t₂) :
    (admittedIn t₁ t₂ (new cfg now) ts : ℚ)
      ≤ cfg.burst + cfg.burst * (t₂ - t₁) / cfg.periodNanos := by
  obtain ⟨grain, hgrain⟩ := hdvd
  have hcount := (gridBucket cfg hgrain).grantsIn_le hwindow
    ⟨new cfg now, of_new cfg now, onGrid_new hgrain now⟩ hsorted
  have hsame : admittedIn t₁ t₂ (new cfg now) ts
      = (gridBucket cfg hgrain).grantsIn t₁ t₂
        ⟨new cfg now, of_new cfg now, onGrid_new hgrain now⟩ ts := by
    refine countIn_trace_congr (fun l g => l = g.1) ?_ t₁ t₂ ts rfl
    rintro _ g t rfl
    exact ⟨rfl, rfl⟩
  rw [hsame, mul_div_right_comm]
  exact hcount

/-! ## A capacity that does not divide the period -/

/-- Some time after the bucket ran empty, it misses a whole number of tokens by so little that
the missing part comes back in at most half a nanosecond. -/
theorem exists_missing (hdvd : ¬ cfg.burst ∣ cfg.periodNanos) :
    ∃ (n j : ℕ) (missing : ℚ), j < cfg.burst ∧ 0 < missing ∧ missing ≤ 1 ∧
      missing * (cfg.periodNanos / cfg.burst) ≤ 1 / 2 ∧
      n * ((cfg.burst : ℚ) / cfg.periodNanos) = j + (1 - missing) := by
  have hburst : 0 < cfg.burst := Nat.cast_pos.mp (burst_pos cfg)
  have hperiod : 0 < cfg.periodNanos := Nat.cast_pos.mp (periodNanos_pos cfg)
  -- in lowest terms the rate is `c / p`, and `c` is not one
  obtain ⟨g, c, p, hg, hcoprime, hc, hp⟩ := Nat.exists_coprime' (Nat.gcd_pos_of_pos_left
    cfg.periodNanos hburst)
  have hcPos : 0 < c := Nat.pos_of_mul_pos_right (hc ▸ hburst)
  have hpPos : 0 < p := Nat.pos_of_mul_pos_right (hp ▸ hperiod)
  have hcTwo : 2 ≤ c := by
    by_contra hlt
    have hcOne : c = 1 := by omega
    rw [hcOne, one_mul] at hc
    exact hdvd ⟨p, by rw [hc, hp, Nat.mul_comm]⟩
  obtain ⟨n, hn, hmod⟩ := Nat.exists_mul_mod_eq_of_coprime (p - 1) hcoprime (ne_of_gt hpPos)
  rw [Nat.mod_eq_of_lt (show p - 1 < p by omega)] at hmod
  have hsplit := Nat.div_add_mod (c * n) p
  rw [hmod] at hsplit
  have hpQ : (0 : ℚ) < p := Nat.cast_pos.mpr hpPos
  have hcQ : (0 : ℚ) < c := Nat.cast_pos.mpr hcPos
  have hgQ : (0 : ℚ) < g := Nat.cast_pos.mpr hg
  refine ⟨n, c * n / p, 1 / p, ?_, ?_, ?_, ?_, ?_⟩
  · have hlt : c * n / p < c := (Nat.div_lt_iff_lt_mul hpPos).mpr (Nat.mul_lt_mul_of_pos_left hn hcPos)
    have hle : c ≤ cfg.burst := hc ▸ Nat.le_mul_of_pos_right c hg
    exact lt_of_lt_of_le hlt hle
  · exact div_pos one_pos hpQ
  · rw [div_le_one hpQ]
    exact Nat.one_le_cast.mpr hpPos
  · have hwait : 1 / (p : ℚ) * (cfg.periodNanos / cfg.burst) = 1 / c := by
      rw [hc, hp, Nat.cast_mul, Nat.cast_mul]
      field_simp
    rw [hwait]
    exact one_div_le_one_div_of_le two_pos (Nat.ofNat_le_cast.mpr hcTwo)
  · have hsum : (p : ℚ) * (c * n / p : ℕ) + (p - 1) = c * n := by
      have hcast := congrArg (Nat.cast (R := ℚ)) hsplit
      rw [Nat.cast_add, Nat.cast_mul, Nat.cast_mul, Nat.cast_sub hpPos, Nat.cast_one] at hcast
      exact hcast
    rw [hc, hp, Nat.cast_mul, Nat.cast_mul]
    field_simp
    linarith

/-- A poll is the same with the refill it begins with already done. -/
theorem poll_refill (h : Of cfg l) (t : ℕ) : (l.refill t).poll t = l.poll t := by
  have hself : (l.refill t).refill t = l.refill t := refill_self (of_refill h t)
  unfold poll
  rw [hself]

/-- As many polls at the instant of the last refill as there are tokens take them. -/
theorem drain (h : Of cfg l) {k : ℕ} {x : ℚ} (hx : 0 ≤ x) (htokens : l.tokens = k + x) :
    stateAfter poll l (List.replicate k l.lastRefill) = { l with tokens := x } := by
  induction k generalizing l with
  | zero =>
    rw [Nat.cast_zero, zero_add] at htokens
    show l = { l with tokens := x }
    rw [← htokens]
  | succ k ih =>
    rw [Nat.cast_add, Nat.cast_one] at htokens
    have htoken : 1 ≤ l.tokens := by
      have hk : (0 : ℚ) ≤ k := Nat.cast_nonneg k
      linarith
    have hpoll : (l.poll l.lastRefill).2 = { l with tokens := l.tokens - 1 } := by
      rw [poll_snd, refill_self h, if_pos htoken]
    have hkept := of_poll l l.lastRefill h
    rw [hpoll] at hkept
    have hrest := ih hkept (show l.tokens - 1 = k + x by linarith)
    show stateAfter poll (l.poll l.lastRefill).2 (List.replicate k l.lastRefill) = _
    rw [hpoll]
    exact hrest

/-- A bucket that asks for no wait without a token answers zero for ever. -/
theorem poll_stuck (h : Of cfg l) (htoken : ¬ 1 ≤ l.tokens) (hwait : l.untilToken = 0) :
    l.poll l.lastRefill = (0, l) := by
  unfold poll
  dsimp only
  rw [refill_self h, if_neg htoken, hwait]

theorem roundHalfEven_eq_zero {q : ℚ} (hq : 0 ≤ q) (hhalf : q ≤ 1 / 2) : roundHalfEven q = 0 := by
  have hfloor : ⌊q⌋ = 0 := Int.floor_eq_zero_iff.mpr ⟨hq, lt_of_le_of_lt hhalf (by norm_num)⟩
  unfold roundHalfEven
  dsimp only
  rw [hfloor, Int.toNat_zero, Nat.cast_zero, sub_zero]
  refine if_pos ?_
  rcases lt_or_eq_of_le hhalf with hlt | heq
  · exact Or.inl hlt
  · exact Or.inr ⟨heq, rfl⟩

theorem admittedIn_stuck {t : ℕ} (hpoll : l.poll t = (0, l)) (k : ℕ) :
    admittedIn t t l (List.replicate k t) = k := by
  unfold admittedIn
  induction k with
  | zero => rfl
  | succ k ih =>
    rw [List.replicate_succ, trace, hpoll, countIn_cons, ih, if_pos (by simp), Nat.add_comm]

/-- Where the capacity does not divide the period some polls, at two instants, lead to a bucket that
is short of a token by less than the rounding of its wait. -/
theorem exists_stuck (hdvd : ¬ cfg.burst ∣ cfg.periodNanos) :
    ∃ (n j : ℕ) (stuck : RateLimiter),
      stateAfter poll (new cfg 0) (List.replicate cfg.burst 0 ++ List.replicate (j + 1) n) = stuck ∧
      Of cfg stuck ∧ stuck.tokens < 1 ∧ stuck.untilToken = 0 ∧ stuck.lastRefill = n := by
  obtain ⟨n, j, missing, hj, hpos, hle, hhalf, hgain⟩ := exists_missing hdvd
  have hnew := of_new cfg 0
  -- the polls at the start take every token
  have hempty : stateAfter poll (new cfg 0) (List.replicate cfg.burst 0)
      = { new cfg 0 with tokens := 0 } :=
    drain hnew le_rfl (by rw [add_zero]; exact hnew.capacity_eq)
  have hemptyOf : Of cfg { new cfg 0 with tokens := 0 } :=
    ⟨hnew.capacity_eq, hnew.refill_eq, le_rfl, le_of_lt (burst_pos cfg)⟩
  -- the next ones take the whole tokens that came back by the instant `n`
  have hback : (({ new cfg 0 with tokens := 0 } : RateLimiter).refill n).tokens
      = j + (1 - missing) := by
    have hjBurst : (j : ℚ) + 1 ≤ cfg.burst := by exact_mod_cast hj
    rw [refill_tokens hemptyOf]
    show min (0 + ((n - 0 : ℕ) : ℚ) * (cfg.burst / cfg.periodNanos)) cfg.burst = _
    rw [zero_add, Nat.sub_zero, hgain]
    exact min_eq_left (by linarith)
  have hbackOf := of_refill hemptyOf n
  have hdrained := drain hbackOf (sub_nonneg.mpr hle) hback
  -- what is left is less than a token, and its wait rounds to zero
  let stuck : RateLimiter :=
    { ({ new cfg 0 with tokens := 0 } : RateLimiter).refill n with tokens := 1 - missing }
  have hstuckOf : Of cfg stuck := by
    refine ⟨hbackOf.capacity_eq, hbackOf.refill_eq, sub_nonneg.mpr hle, ?_⟩
    have hone : (1 : ℚ) ≤ cfg.burst := Nat.one_le_cast.mpr (le_max_right _ _)
    show 1 - missing ≤ (cfg.burst : ℚ)
    linarith
  have htoken : ¬ 1 ≤ stuck.tokens := by
    show ¬ 1 ≤ 1 - missing
    linarith
  have hwait : stuck.untilToken = 0 := by
    rw [untilToken_eq hstuckOf]
    show roundHalfEven ((1 - (1 - missing)) * _) = 0
    rw [sub_sub_cancel]
    refine roundHalfEven_eq_zero (mul_nonneg (le_of_lt hpos) ?_) hhalf
    exact le_of_lt (div_pos (periodNanos_pos cfg) (burst_pos cfg))
  have hpoll : stuck.poll n = (0, stuck) := poll_stuck hstuckOf htoken hwait
  refine ⟨n, j, stuck, ?_, hstuckOf, not_le.mp htoken, hwait, rfl⟩
  have hfirst : stateAfter poll { new cfg 0 with tokens := 0 } (List.replicate (j + 1) n)
      = stateAfter poll (({ new cfg 0 with tokens := 0 } : RateLimiter).refill n)
        (List.replicate (j + 1) n) := by
    show stateAfter poll (poll _ n).2 _ = stateAfter poll (poll _ n).2 _
    rw [poll_refill hemptyOf n]
  rw [stateAfter_append, hempty, hfirst, List.replicate_succ', stateAfter_append]
  show stateAfter poll (stateAfter poll _ (List.replicate j n)) [n] = stuck
  rw [show stateAfter poll _ (List.replicate j n) = stuck from hdrained]
  show (stuck.poll n).2 = stuck
  rw [hpoll]

/-- Where the capacity does not divide the period some run breaks the bound. -/
theorem exists_admittedIn_gt (hdvd : ¬ cfg.burst ∣ cfg.periodNanos) :
    ∃ (ts : List ℕ) (n : ℕ), (0 :: ts).Pairwise (· ≤ ·) ∧
      cfg.burst < admittedIn n n (new cfg 0) ts := by
  obtain ⟨n, j, stuck, hstuck, hof, htoken, hwait, rfl⟩ := exists_stuck hdvd
  have hpoll := poll_stuck hof (not_le.mpr htoken) hwait
  refine ⟨(List.replicate cfg.burst 0 ++ List.replicate (j + 1) stuck.lastRefill)
    ++ List.replicate (cfg.burst + 1) stuck.lastRefill, stuck.lastRefill, ?_, ?_⟩
  · rw [List.append_assoc, ← List.replicate_add]
    refine List.pairwise_cons.mpr ⟨fun t _ => Nat.zero_le t, List.pairwise_append.mpr
      ⟨List.pairwise_replicate_of_refl, List.pairwise_replicate_of_refl, fun t ht _ _ => ?_⟩⟩
    rw [List.eq_of_mem_replicate ht]
    exact Nat.zero_le _
  · have hlast := admittedIn_stuck hpoll (cfg.burst + 1)
    unfold admittedIn at hlast ⊢
    rw [trace_append, countIn_append, hstuck, hlast]
    omega

/-- The bucket admits at its bounded rate, over every run, exactly when its capacity divides
its period in nanoseconds. -/
theorem bounded_iff (cfg : RateLimitConfig) : Bounded cfg ↔ cfg.burst ∣ cfg.periodNanos := by
  constructor
  · intro h
    by_contra hdvd
    obtain ⟨ts, n, hsorted, hgt⟩ := exists_admittedIn_gt hdvd
    have hle := h.admits 0 ts hsorted n n le_rfl
    rw [sub_self, mul_zero, zero_div, add_zero] at hle
    exact absurd (Nat.cast_le.mp hle) (by omega)
  · intro hdvd
    refine ⟨fun now ts _ => ?_, fun now ts hsorted t₁ t₂ hwindow => ?_⟩
    · have hkept := stateAfter_induct of_poll (of_new cfg now) ts
      exact ⟨hkept.tokens_nonneg, hkept.tokens_le⟩
    · exact admittedIn_le_of_dvd hdvd now (List.pairwise_cons.mp hsorted).2 hwindow

/-- A third of a second after three requests the bucket of three a second misses the rest of a
token by a third of a nanosecond, and lets every request out. -/
theorem three_a_second_unbounded : ¬ Bounded ⟨3, 1000, .reject⟩ := by
  intro h
  have hle := h.admits 0 [0, 0, 0, 333333333, 333333333, 333333333, 333333333] (by decide)
    333333333 333333333 le_rfl
  have hfour : admittedIn 333333333 333333333 (new ⟨3, 1000, .reject⟩ 0)
      [0, 0, 0, 333333333, 333333333, 333333333, 333333333] = 4 := by
    decide +kernel
  rw [hfour, sub_self, mul_zero, zero_div, add_zero] at hle
  exact absurd (Nat.cast_le.mp hle) (by decide)

end RateLimiter

end BlockchainOps.Algo
