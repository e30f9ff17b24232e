import BlockchainOps.Algo.GovernedRuns

/-!
# Buckets that admit without a token

Where one token does not come back in a whole number of nanoseconds, a bucket that is to reject
comes to a state in which the wait for the rest of a token rounds to nothing, and lets every request
out. Asking for the round, at well chosen instants, leads a client there (`exists_stalled`). So a
handle governs its requests exactly when its tokens are whole (`AlgoOps.governs_iff`).
-/

namespace BlockchainOps.Algo

open Effect Proc

variable {c : Session} {s t : World}

/-! ## A client whose bucket gets stuck -/

/-- How often the clocks and the node are asked for one request. -/
def AlgoOps.momentsPerRequest (ops : AlgoOps) : ℕ :=
  if ops.config.dailyBudget.isSome then 3 else 2

namespace LocalNode

/-- The instant of the poll for the request `i`: the first `burst` are made at the start, and the
later ones at the instant `n`. -/
def pollAt (burst n i : ℕ) : ℕ := if i < burst then 0 else n

/-- A client at a node at round 7, whose wall clock goes on by a day at every moment. -/
def stalling (ops : AlgoOps) (burst n : ℕ) : Session where
  ops
  env :=
    { (session atRound7).env with
      unixSecs := fun moment => 86400 * moment
      instant := fun moment => pollAt burst n (moment / ops.momentsPerRequest) }

end LocalNode

/-- The state in which the bucket has been polled. -/
def World.polledFirst (c : Session) (s : World) (l : RateLimiter) : World :=
  { s with
    dailyBudget := s.dailyBudget.map fun b => (b.check (s.reading c)).2
    rateLimiter := some (l.poll (s.pollTime c)).2
    moment := s.moment + (if s.dailyBudget.isSome then 1 else 0) + 1 }

/-- What the limits do where the budget is not spent: the first poll of a bucket that is to reject
decides. -/
theorem applyRateLimit_of_unspent (operation : String) (hfuel : 1 ≤ c.env.fuel)
    (hrejects : c.rejects = true) (hspent : ¬ s.Spent c) {l : RateLimiter}
    (hl : s.rateLimiter = some l) :
    applyRateLimit c operation s =
      if (l.poll (s.pollTime c)).1 = 0 then
        (.ok (), (s.polledFirst c l).charged (s.dailyBudget.map fun _ => s.reading c))
      else refuse (.rateLimited operation (l.poll (s.pollTime c)).1) (s.polledFirst c l) := by
  obtain ⟨n, hn⟩ : ∃ n, c.env.fuel = n + 1 := ⟨c.env.fuel - 1, by omega⟩
  -- a bucket that is to reject is polled once: the poll grants the token or refuses the request
  have htoken : ∀ u : World, u.rateLimiter = some l →
      takeToken c operation u = if (l.poll (c.env.instant u.moment)).1 = 0
        then (.ok (), u.polled l (c.env.instant u.moment))
        else refuse (.rateLimited operation (l.poll (c.env.instant u.moment)).1)
          (u.polled l (c.env.instant u.moment)) := by
    intro u hu
    unfold takeToken
    rw [hn]
    split_ifs with hzero
    · exact loop_pollOnce_granted n hu hzero
    · exact loop_pollOnce_refused n hu hzero hrejects
  -- with a budget the wall clock is read first, so the poll is one moment later
  rcases hb : s.dailyBudget with _ | b
  · have htime : s.pollTime c = c.env.instant s.moment := by
      unfold World.pollTime
      rw [hb]
      rfl
    have hpolled : s.polledFirst c l = s.polled l (c.env.instant s.moment) := by
      unfold World.polledFirst World.polled
      rw [htime, hb]
      rfl
    rw [applyRateLimit_of_none c operation hb, bind_apply, htoken s hl, hpolled, htime]
    split_ifs <;> rfl
  · have hleft : (b.check (c.env.unixSecs s.moment)).1 = .ok () := by
      rw [DailyBudget.check_ok_iff]
      by_contra hle
      exact hspent ⟨b, hb, not_lt.mp hle⟩
    have htime : s.pollTime c = c.env.instant (s.moment + 1) := by
      unfold World.pollTime
      rw [hb]
      rfl
    have hpolled : s.polledFirst c l
        = (s.checked b (c.env.unixSecs s.moment)).polled l (c.env.instant (s.moment + 1)) := by
      unfold World.polledFirst World.polled World.checked
      rw [htime, hb]
      rfl
    rw [applyRateLimit_of_some c operation hb, hleft]
    show ((takeToken c operation >>= fun _ => charge (some (c.env.unixSecs s.moment)))
      (s.checked b (c.env.unixSecs s.moment))) = _
    have hasked := htoken (s.checked b (c.env.unixSecs s.moment)) hl
    have hmoment : (s.checked b (c.env.unixSecs s.moment)).moment = s.moment + 1 := rfl
    rw [hmoment] at hasked
    rw [bind_apply, hasked, hpolled, htime]
    split_ifs <;> rfl

/-- `i` requests were made, and left the bucket `l`; the budget's window is over. -/
structure Stalled (c : Session) (i : ℕ) (l : RateLimiter) (w : World) : Prop where
  moment : w.moment = c.ops.momentsPerRequest * i
  rateLimiter : w.rateLimiter = some l
  unspent : ∀ b, w.dailyBudget = some b → (b.roll (w.reading c)).spent = 0

section Stalling

variable {ops : AlgoOps} {limit : RateLimitConfig} {burst n i : ℕ} {l : RateLimiter} {w : World}

theorem stalling_status (ops : AlgoOps) (burst n : ℕ) (t : World) :
    (rtBlockOn (LocalNode.stalling ops burst n) "algod call" LocalNode.atRound7.statusCall t)
      = (.ok (.ok ⟨7⟩), t.record (.exchange .status .ok)) := by
  have hblock : (LocalNode.stalling ops burst n).block "algod call" LocalNode.atRound7.statusCall
      t.moment = (.ok (.ok ⟨7⟩), .exchange .status .ok) := by
    unfold Session.block
    rcases htimeout : (LocalNode.stalling ops burst n).ops.timeout with _ | limit
    · rfl
    · exact if_pos (Nat.zero_le limit)
  unfold rtBlockOn
  rw [hblock]

theorem AlgoOps.momentsPerRequest_pos (ops : AlgoOps) : 0 < ops.momentsPerRequest := by
  unfold momentsPerRequest
  split_ifs <;> decide

theorem stalling_isSome (hs : (LocalNode.stalling ops burst n).Configured w) :
    w.dailyBudget.isSome = ops.config.dailyBudget.isSome := by
  rw [← Option.isSome_map (f := DailyBudget.max), hs.budget, Option.isSome_map]
  rfl

theorem stalling_pollTime (hs : (LocalNode.stalling ops burst n).Configured w)
    (h : Stalled (LocalNode.stalling ops burst n) i l w) :
    w.pollTime (LocalNode.stalling ops burst n) = LocalNode.pollAt burst n i := by
  have hsome := stalling_isSome hs
  have hmoment :
      (w.moment + if w.dailyBudget.isSome then 1 else 0) / ops.momentsPerRequest = i := by
    rw [h.moment, hsome]
    show (ops.momentsPerRequest * i + _) / ops.momentsPerRequest = i
    unfold AlgoOps.momentsPerRequest
    split_ifs <;> omega
  show LocalNode.pollAt burst n
    ((w.moment + if w.dailyBudget.isSome then 1 else 0) / ops.momentsPerRequest) = _
  rw [hmoment]

/-- The state after one more request, whether it was let out or refused. -/
theorem Stalled.next {u : World} (hs : (LocalNode.stalling ops burst n).Configured w)
    (h : Stalled (LocalNode.stalling ops burst n) i l w)
    (hmoment : u.moment = (w.polledFirst (LocalNode.stalling ops burst n) l).moment + 1)
    (hbucket : u.rateLimiter = (w.polledFirst (LocalNode.stalling ops burst n) l).rateLimiter)
    (hstart : ∀ b, u.dailyBudget = some b →
      b.windowStartUnix ≤ w.reading (LocalNode.stalling ops burst n)) :
    Stalled (LocalNode.stalling ops burst n) (i + 1) (l.poll (LocalNode.pollAt burst n i)).2 u := by
  have hlast : w.moment = ops.momentsPerRequest * i := h.moment
  have hnext : u.moment = ops.momentsPerRequest * i + ops.momentsPerRequest := by
    have hsome := stalling_isSome hs
    rw [hmoment, ← hlast]
    show w.moment + (if w.dailyBudget.isSome then 1 else 0) + 1 + 1 = _
    unfold AlgoOps.momentsPerRequest
    rw [hsome]
    split_ifs <;> rfl
  refine ⟨hnext.trans (Nat.mul_succ _ _).symm, ?_, ?_⟩
  · rw [hbucket, ← stalling_pollTime hs h]
    rfl
  · intro b hb
    -- a day has gone by since the window was looked at, so the next look finds it over
    refine DailyBudget.roll_day_later (hstart b hb) ?_
    show 86400 * w.moment + 86400 ≤ 86400 * u.moment
    have hmoments := ops.momentsPerRequest_pos
    omega

/-- The windows of the budget start at most at the reading of the request. -/
theorem polledFirst_windowStart_le {u : World} {b : DailyBudget}
    (hu : u.dailyBudget = (w.polledFirst c l).dailyBudget ∨
      u = (w.polledFirst c l).charged (w.dailyBudget.map fun _ => w.reading c))
    (hb : u.dailyBudget = some b) : b.windowStartUnix ≤ w.reading c := by
  rcases hfirst : w.dailyBudget with _ | b₀
  · have hnone : (w.polledFirst c l).dailyBudget = none := congrArg (Option.map _) hfirst
    rcases hu with hu | rfl
    · rw [hu, hnone] at hb
      exact absurd hb (by simp)
    · rw [World.charged_of_none _ hnone] at hb
      exact absurd hb (by simp)
  · have hsome : (w.polledFirst c l).dailyBudget = some (b₀.check (w.reading c)).2 :=
      congrArg (Option.map _) hfirst
    rcases hu with hu | rfl
    · rw [hu, hsome] at hb
      rw [← Option.some.inj hb, DailyBudget.check_snd]
      exact DailyBudget.roll_windowStart_le _ _
    · rw [hfirst, Option.map_some, World.charged_of_some hsome] at hb
      rw [← Option.some.inj hb]
      exact DailyBudget.roll_windowStart_le _ _

theorem Stalled.not_spent
    (hbudget : ∀ budget, ops.config.dailyBudget = some budget → 0 < budget.maxRequestsPerDay)
    (hs : (LocalNode.stalling ops burst n).Configured w)
    (h : Stalled (LocalNode.stalling ops burst n) i l w) :
    ¬ w.Spent (LocalNode.stalling ops burst n) := by
  rintro ⟨b, hb, hle⟩
  have hmax := hs.budget
  rw [hb] at hmax
  obtain ⟨budget, hconfig, hmax⟩ := Option.map_eq_some_iff.mp hmax.symm
  have hpos := hbudget budget hconfig
  rw [h.unspent b hb] at hle
  omega

/-- One more round is asked for. It polls the bucket, which lets the request out if it asks for no
wait. -/
theorem stalled_round (hlimit : ops.config.rateLimit = some limit) (hmode : limit.mode = .reject)
    (hbudget : ∀ budget, ops.config.dailyBudget = some budget → 0 < budget.maxRequestsPerDay)
    (hs : (LocalNode.stalling ops burst n).Configured w)
    (h : Stalled (LocalNode.stalling ops burst n) i l w) :
    Stalled (LocalNode.stalling ops burst n) (i + 1) (l.poll (LocalNode.pollAt burst n i)).2
        (Operation.round.run (LocalNode.stalling ops burst n) w).2 ∧
      ((l.poll (LocalNode.pollAt burst n i)).1 = 0 →
        (Operation.round.run (LocalNode.stalling ops burst n) w).2.sent = w.sent ++ [.status]) := by
  set c := LocalNode.stalling ops burst n with hc
  have hrejects : c.rejects = true := Session.rejects_iff.mpr ⟨limit, hlimit, hmode⟩
  have hlimits := applyRateLimit_of_unspent "algod call" le_rfl hrejects (h.not_spent hbudget hs)
    h.rateLimiter
  rw [stalling_pollTime hs h] at hlimits
  have halgod : ∀ url token, c.env.newAlgod url token = .ok LocalNode.atRound7 := fun _ _ => rfl
  rw [round_snd halgod]
  by_cases hzero : (l.poll (LocalNode.pollAt burst n i)).1 = 0
  · -- the request is let out, and the node answers
    rw [if_pos hzero] at hlimits
    have hsend : (sendOnce "algod call" LocalNode.atRound7.statusCall).run c w
        = mapErr (fun e => .text s!"runtime error: {e.display}")
          (rtBlockOn c "algod call" LocalNode.atRound7.statusCall) _ := bind_of_ok hlimits
    rw [mapErr_apply, hc, stalling_status, ← hc] at hsend
    dsimp only at hsend
    rw [callWithRetry_snd (by rw [CallKind.operation, hsend]; simp), CallKind.operation, hsend]
    refine ⟨h.next hs rfl rfl fun b hb => ?_, fun _ => World.record_sent _ _⟩
    exact polledFirst_windowStart_le (Or.inr rfl) hb
  · -- the bucket refuses, and nothing is sent
    rw [if_neg hzero] at hlimits
    have hsend : (sendOnce "algod call" LocalNode.atRound7.statusCall).run c w
        = refuse (.rateLimited "algod call" (l.poll (LocalNode.pollAt burst n i)).1)
          (w.polledFirst c l) := bind_of_err hlimits
    rw [callWithRetry_snd (by rw [CallKind.operation, hsend]; simp [refuse]), CallKind.operation,
      hsend]
    refine ⟨h.next hs rfl rfl fun b hb => ?_, fun hnot => absurd hnot hzero⟩
    exact polledFirst_windowStart_le (u := w.polledFirst c l) (Or.inl rfl) hb

end Stalling

section Stuck

variable {ops : AlgoOps} {limit : RateLimitConfig} {burst n : ℕ}

/-- Every number of rounds can be asked for. -/
theorem exists_stalled (burst n : ℕ) (hlimit : ops.config.rateLimit = some limit)
    (hmode : limit.mode = .reject)
    (hbudget : ∀ budget, ops.config.dailyBudget = some budget → 0 < budget.maxRequestsPerDay)
    (i : ℕ) :
    ∃ w, (LocalNode.stalling ops burst n).Reachable w ∧
      Stalled (LocalNode.stalling ops burst n) i
        (stateAfter RateLimiter.poll (.new limit 0)
          ((List.range i).map (LocalNode.pollAt burst n))) w := by
  induction i with
  | zero =>
    refine ⟨_, .start 0 0 0 0 0, rfl, ?_, ?_⟩
    · show ops.config.rateLimit.map _ = _
      rw [hlimit]
      rfl
    · intro b hb
      obtain ⟨budget, -, rfl⟩ := Option.map_eq_some_iff.mp hb
      unfold DailyBudget.roll
      split_ifs <;> rfl
  | succ i ih =>
    obtain ⟨w, hreach, hstalled⟩ := ih
    refine ⟨_, hreach.run .round, ?_⟩
    have hnext := (stalled_round hlimit hmode hbudget hreach.configured hstalled).1
    rw [List.range_succ, List.map_append, stateAfter_append]
    exact hnext

theorem map_pollAt (burst n k : ℕ) : (List.range (burst + k)).map (LocalNode.pollAt burst n)
    = List.replicate burst 0 ++ List.replicate k n := by
  rw [List.range_add, List.map_append, List.map_map]
  congr 1
  · refine List.eq_replicate_iff.mpr ⟨by simp, fun t ht => ?_⟩
    obtain ⟨i, hi, rfl⟩ := List.mem_map.mp ht
    exact if_pos (List.mem_range.mp hi)
  · refine List.eq_replicate_iff.mpr ⟨by simp, fun t ht => ?_⟩
    obtain ⟨i, -, rfl⟩ := List.mem_map.mp ht
    exact if_neg (not_lt.mpr (Nat.le_add_right burst i))

/-- A bucket that never asks for a wait is only left by taking a token. -/
theorem RateLimiter.Waited.eq_of_stuck {l l' : RateLimiter} (h : l.Waited l')
    (hstuck : ∀ now, (l.poll now).1 = 0) : l' = l := by
  rcases h.cases_head with heq | ⟨l₁, ⟨now, hwait, -⟩, -⟩
  · exact heq.symm
  · exact absurd (hstuck now) hwait

/-- A governed run without a request leaves such a bucket as it is. -/
theorem rateLimiter_of_run_nil {l : RateLimiter} (h : (governor c).Run s [] t)
    (hl : s.rateLimiter = some l) (hstuck : ∀ now, (l.poll now).1 = 0) :
    t.rateLimiter = some l := by
  -- along the run every change is a quiet one, as the list of requests stays empty
  generalize hnil : ([] : List Request) = rs at h
  induction h with
  | refl => exact hl
  | @quiet s t u rs hst _ ih =>
    have hquiet : Quiet s t := hst
    have hbucket := hquiet.rateLimiter
    rw [hl] at hbucket
    refine ih ?_ hnil
    rcases ht : t.rateLimiter with _ | l' <;> rw [ht] at hbucket
    · cases hbucket
    · cases hbucket with
      | some hwaited => rw [hwaited.eq_of_stuck hstuck]
  | request _ _ _ _ => exact absurd hnil (by simp)
  | lost _ hlost _ _ => exact hlost.elim

/-- A governed run sends nothing from a bucket that stays empty and never asks for a wait. -/
theorem not_governed_of_stuck {w w' : World} {l : RateLimiter} {r : Request}
    (hrejects : c.rejects = true) (hl : w.rateLimiter = some l)
    (hstuck : ∀ now, (l.poll now).1 = 0)
    (hempty : ∀ moment, (l.refill (c.env.instant moment)).tokens < 1)
    (hsent : w'.sent = w.sent ++ [r]) : ¬ ∃ rs, Governed c w w' rs := by
  rintro ⟨rs, hgoverned⟩
  obtain rfl : rs = [r] := List.append_cancel_left (hgoverned.sent.symm.trans hsent)
  have hrun : (governor c).Run w ([] ++ r :: []) w' := hgoverned.metered
  obtain ⟨a, b, -, hbefore, hgrant, -⟩ := hrun.admitted
  -- no admission comes before the first one
  have hkept := rateLimiter_of_run_nil hbefore hl hstuck
  exact hgrant.2.2 ⟨hrejects, l, hkept, hempty _⟩

/-- Where a token does not come back in a whole number of nanoseconds, and the budget lets requests
through, some run of the handle is not governed. -/
theorem not_governs_of_not_dvd (limit : RateLimitConfig)
    (hlimit : ops.config.rateLimit = some limit)
    (hmode : limit.mode = .reject) (hdvd : ¬ limit.burst ∣ limit.periodNanos)
    (hbudget : ∀ budget, ops.config.dailyBudget = some budget → 0 < budget.maxRequestsPerDay) :
    ¬ ops.Governs := by
  intro hgoverns
  obtain ⟨n, j, stuck, hafter, hof, htokens, hwait, hlast⟩ := RateLimiter.exists_stuck hdvd
  obtain ⟨w, hreach, hstalled⟩ := exists_stalled limit.burst n hlimit hmode hbudget
    (limit.burst + (j + 1))
  rw [map_pollAt, hafter] at hstalled
  have hstuck := RateLimiter.poll_stuck_fst hof hwait
  obtain ⟨-, hsent⟩ := stalled_round hlimit hmode hbudget hreach.configured hstalled
  refine not_governed_of_stuck (Session.rejects_iff.mpr ⟨limit, hlimit, hmode⟩) hstalled.rateLimiter
    hstuck (fun moment => ?_) (hsent (hstuck _))
    (hgoverns _ (fun _ => rfl) w hreach ℕ .round rfl)
  -- no instant is after that of the last refill
  have hinstant : (LocalNode.stalling ops limit.burst n).env.instant moment ≤ stuck.lastRefill := by
    show LocalNode.pollAt limit.burst n _ ≤ _
    unfold LocalNode.pollAt
    rw [hlast]
    split_ifs
    · exact Nat.zero_le _
    · exact le_rfl
  exact lt_of_eq_of_lt (RateLimiter.refill_tokens_of_le hof hinstant) htokens

/-- A handle governs its requests exactly when its tokens are whole. -/
theorem AlgoOps.governs_iff (ops : AlgoOps) : ops.Governs ↔ ops.WholeTokens := by
  refine ⟨fun h => ?_, AlgoOps.WholeTokens.governs⟩
  by_contra hwhole
  unfold AlgoOps.WholeTokens at hwhole
  push Not at hwhole
  obtain ⟨⟨limit, hlimit, hmode, hdvd⟩, hbudget⟩ := hwhole
  refine not_governs_of_not_dvd limit hlimit hmode hdvd (fun b hb => ?_) h
  exact Nat.pos_of_ne_zero (hbudget b hb)

end Stuck

/-! ## Governed operations -/

namespace LocalNode

/-- A client of a node at round 7, with a bucket to reject and a daily budget of five requests. -/
def limited (limit : RateLimitConfig) : Session :=
  { session atRound7 with
    ops := { (session atRound7).ops with
      config := { AlgoChainConfig.default with
        rateLimit := some limit
        dailyBudget := some { maxRequestsPerDay := 5, dayStartOffsetSecs := 0 } } } }

/-- Its world at first. -/
def limitedWorld (limit : RateLimitConfig) : World := (limited limit).ops.start 0 86400 0 0 0

/-- The same client where no runtime can be built. -/
def starved : Session :=
  { limited ⟨1, 1000, .reject⟩ with
    env := { (limited ⟨1, 1000, .reject⟩).env with runtimeFailure := fun _ => some "no threads" } }

end LocalNode

end BlockchainOps.Algo
