import BlockchainOps.Algo.LimitCharges
import BlockchainOps.Lib.Rounds

/-!
# Governed runs

A run is governed if every request it sends has an admission of its own, which finds the budget
unspent and, where the bucket is to reject, a token in it, and if it is counted once and charged
once to the daily budget.

`blockSeed` sends a request that no limit sees. The other operations are governed in every run of a
handle exactly when one token comes back in a whole number of nanoseconds; where it does not, a
bucket that is to reject comes to a state in which the wait for the rest of a token rounds to
nothing, and admits every request (`Operation.governed_iff`).
-/

namespace BlockchainOps.Algo

open Effect Proc

variable {α : Type} {c : Session} {operation : String} {s t : World} {rs : List Request}

/-- The daily budget after some charges, each of which found it unspent, and any number of looks at
it that at most roll its window. -/
inductive Charged : ℕ → Option DailyBudget → Option DailyBudget → Prop
  | refl (o : Option DailyBudget) : Charged 0 o o
  | off {n : ℕ} : Charged n none none
  | look {n : ℕ} {b : DailyBudget} {o : Option DailyBudget} (now : ℕ)
      (h : Charged n (some (b.check now).2) o) : Charged n (some b) o
  | charge {n : ℕ} {b : DailyBudget} {o : Option DailyBudget} (now : ℕ)
      (hleft : (b.check now).1 = .ok ()) (h : Charged n (some ((b.check now).2.record now)) o) :
      Charged (n + 1) (some b) o

/-- The meter of governed requests: an admission finds the budget unspent and the bucket that is to
reject with a token, and no admitted request is lost. -/
def governor (c : Session) : Meter World Request where
  quiet := Quiet
  grant s t := Granted c s t ∧ ¬ s.Spent c ∧ ¬ s.Empty c
  send := (requestMeter c).send
  lost _ := False

/-- A run from `w` to `w'` that sends the requests `rs` is governed: each request has an admission
of its own before it, and is counted and charged once. -/
structure Governed (c : Session) (w w' : World) (rs : List Request) : Prop where
  sent : w'.sent = w.sent ++ rs
  metered : (governor c).Run w rs w'
  requestsMade : w'.requestsMade = w.requestsMade + UInt64.ofNat rs.length
  dailyBudget : Charged rs.length w.dailyBudget w'.dailyBudget

/-- Runtimes can always be built. -/
def Env.RuntimesBuild (e : Env) : Prop := ∀ moment, e.runtimeFailure moment = none

/-! ## What a governed run counts -/

namespace Charged

variable {n : ℕ} {o o' o'' : Option DailyBudget}

theorem eq_none (h : Charged n none o) : o = none := by
  cases h <;> rfl

theorem of_look (h : Option.Rel (fun b b' => b' = b ∨ ∃ now, b' = (b.check now).2) o o')
    (h' : Charged n o' o'') : Charged n o o'' := by
  cases h with
  | none => exact h'
  | some hlook =>
    rcases hlook with rfl | ⟨now, rfl⟩
    · exact h'
    · exact .look now h'

theorem of_charge
    (h : Option.Rel
      (fun b b' => ∃ now, (b.check now).1 = .ok () ∧ b' = (b.check now).2.record now) o o')
    (h' : Charged n o' o'') : Charged (n + 1) o o'' := by
  cases h with
  | none =>
    rw [h'.eq_none]
    exact .off
  | some hcharge =>
    obtain ⟨now, hleft, rfl⟩ := hcharge
    exact .charge now hleft h'

end Charged

/-- A governed run charges the budget once for each request. -/
theorem charged_of_run (h : (governor c).Run s rs t) :
    Charged rs.length s.dailyBudget t.dailyBudget := by
  induction h with
  | refl s => exact .refl _
  | @quiet s t u rs hquiet _ ih =>
    have hlook : Quiet s t := hquiet
    exact ih.of_look hlook.dailyBudget
  | @request s t t' u r rs hgrant hsend _ ih =>
    have hcharge : Granted c s t := hgrant.1
    obtain ⟨reply, rfl⟩ := hsend
    exact ih.of_charge hcharge.dailyBudget
  | lost _ hlost _ _ => exact hlost.elim

theorem iterate_add_one (n : ℕ) (x : UInt64) : (· + 1)^[n] x = x + UInt64.ofNat n := by
  induction n generalizing x with
  | zero => simp
  | succ n ih => rw [Function.iterate_succ_apply, ih, UInt64.ofNat_add, UInt64.add_assoc,
      UInt64.add_comm 1]; rfl

/-- A governed run counts each request once. -/
theorem requestsMade_of_run (h : (governor c).Run s rs t) :
    t.requestsMade = s.requestsMade + UInt64.ofNat rs.length := by
  rw [← iterate_add_one]
  refine h.iterate (fun _ hlost => hlost) (f := World.requestsMade) ?_ ?_ ?_
  · exact fun s t (hquiet : Quiet s t) => hquiet.requestsMade
  · intro s t hgrant
    have hgranted : Granted c s t := hgrant.1
    exact hgranted.requestsMade
  · rintro r s _ ⟨reply, rfl⟩
    rfl

theorem governed_of_run (hsent : t.sent = s.sent ++ rs) (h : (governor c).Run s rs t) :
    Governed c s t rs where
  sent := hsent
  metered := h
  requestsMade := requestsMade_of_run h
  dailyBudget := charged_of_run h

/-! ## Reading a block's seed -/

/-- Reading a block's seed is governed only where its request is not sent. -/
theorem blockSeed_governed_iff (blockRound : ℕ) (w : World) :
    (∃ rs, Governed c w (blockSeed c blockRound w).2 rs) ↔
      c.env.runtimeFailure w.moment ≠ none := by
  rw [blockSeed_snd]
  have hsent := block_sent c "algod call" (blockFut c blockRound) w.moment
  constructor
  · rintro ⟨rs, h⟩ hbuilt
    rw [if_pos hbuilt] at hsent
    have hall := h.sent
    have hmade := h.requestsMade
    rw [World.record_sent, hsent] at hall
    rw [World.record_requestsMade, ← List.append_cancel_left hall] at hmade
    have hone : w.requestsMade = w.requestsMade + 1 := hmade
    exact absurd hone (by simp)
  · intro hfailure
    rw [if_neg hfailure] at hsent
    have hsame : (w.record (c.block "algod call" (blockFut c blockRound) w.moment).2).sent
        = w.sent ++ [] := by
      rw [World.record_sent, hsent]
      rfl
    refine ⟨[], governed_of_run hsame (.quiet ?_ (.refl _))⟩
    exact ⟨hsame.trans (List.append_nil _), rfl, rel_budget_refl _, rel_waited_refl _⟩

/-! ## What an admission finds -/

/-- A bucket that is to reject and takes a token is not asked to wait. -/
theorem takeToken_ok (h : (takeToken c operation s).1 = .ok ()) (hrejects : c.rejects = true)
    {l : RateLimiter} (hl : s.rateLimiter = some l) : (l.poll (c.env.instant s.moment)).1 = 0 := by
  by_contra hwait
  rcases Nat.eq_zero_or_pos c.env.fuel with hfuel | hfuel
  · unfold takeToken at h
    rw [hfuel] at h
    exact absurd h (by simp [loop])
  · obtain ⟨wait, he⟩ := takeToken_of_wait operation hfuel hrejects hl hwait
    rw [he] at h
    exact absurd h (by simp)

/-- The first component of a program that returns came from a first part that returned. -/
theorem bind_ok_fst {σ ε β : Type} {x : Proc σ ε α} {f : α → Proc σ ε β} {r : σ} {b : β}
    (h : ((x >>= f) r).1 = .ok b) : ∃ a, (x r).1 = .ok a := by
  rw [bind_apply] at h
  rcases hrun : x r with ⟨a | e | w, u⟩
  · exact ⟨a, rfl⟩
  · rw [hrun] at h
    exact absurd h (by simp)
  · rw [hrun] at h
    exact absurd h (by simp)

/-- What the limits admit, found the budget unspent, and is not asked to wait. -/
theorem applyRateLimit_ok (h : (applyRateLimit c operation s).1 = .ok ()) :
    ¬ s.Spent c ∧ ¬ s.AsksToWait c := by
  rcases hb : s.dailyBudget with _ | b
  · rw [applyRateLimit_of_none c operation hb] at h
    obtain ⟨_, htoken⟩ := bind_ok_fst h
    constructor
    · rintro ⟨b, hsome, -⟩
      rw [hb] at hsome
      exact absurd hsome (by simp)
    · rintro ⟨hrejects, l, hl, hwait⟩
      refine hwait ?_
      have hzero := takeToken_ok htoken hrejects hl
      unfold World.pollTime
      rw [hb]
      exact hzero
  · rw [applyRateLimit_of_some c operation hb] at h
    rcases hcheck : (b.check (c.env.unixSecs s.moment)).1 with wait | _ <;> rw [hcheck] at h
    · exact absurd h (by simp [refuse])
    · have hleft := (b.check_ok_iff _).mp hcheck
      obtain ⟨_, htoken⟩ := bind_ok_fst h
      constructor
      · rintro ⟨b', hsome, hle⟩
        rw [hb] at hsome
        cases hsome
        exact absurd hleft (not_lt.mpr hle)
      · rintro ⟨hrejects, l, hl, hwait⟩
        refine hwait ?_
        have hzero := takeToken_ok htoken hrejects (s := s.checked b _) hl
        unfold World.pollTime
        rw [hb]
        exact hzero

/-! ## The states of a client -/

/-- The state of a new handle: its bucket is full, and its budget and its counter may be primed. -/
def AlgoOps.start (ops : AlgoOps) (instant unixSecs primed : ℕ) (counted : UInt64) (moment : ℕ) :
    World where
  rateLimiter := ops.config.rateLimit.map fun limit => .new limit instant
  dailyBudget := ops.config.dailyBudget.map fun budget => .new budget unixSecs primed
  requestsMade := counted
  appCreators := .new []
  log := []
  moment

/-- The states that operations lead to from that of a new handle. -/
inductive Session.Reachable (c : Session) : World → Prop
  | start (instant unixSecs primed : ℕ) (counted : UInt64) (moment : ℕ) :
      Reachable c (c.ops.start instant unixSecs primed counted moment)
  | run {α : Type} (op : Operation α) {w : World} (h : Reachable c w) : Reachable c (op.run c w).2

/-- A bucket of the configuration `limit`: on the grid, if there is one. -/
def RateLimiter.Regular (limit : RateLimitConfig) (l : RateLimiter) : Prop :=
  Of limit l ∧ ∀ grain, limit.periodNanos = limit.burst * grain → OnGrid grain l

theorem RateLimiter.regular_poll {limit : RateLimitConfig} {l : RateLimiter} (h : l.Regular limit)
    (now : ℕ) : (l.poll now).2.Regular limit :=
  ⟨of_poll l now h.1, fun _ hgrain => onGrid_poll hgrain h.1 (h.2 _ hgrain) now⟩

theorem RateLimiter.Waited.regular {limit : RateLimitConfig} {l l' : RateLimiter}
    (hwaited : l.Waited l') (h : l.Regular limit) : l'.Regular limit := by
  induction hwaited with
  | refl => exact h
  | tail _ hpoll ih =>
    obtain ⟨now, -, rfl⟩ := hpoll
    exact regular_poll ih now

/-- The limits are those of the handle's configuration. -/
structure Session.Configured (c : Session) (w : World) : Prop where
  bucket : ∀ l, w.rateLimiter = some l →
    ∃ limit, c.ops.config.rateLimit = some limit ∧ l.Regular limit
  budget : w.dailyBudget.map DailyBudget.max
    = c.ops.config.dailyBudget.map DailyBudgetConfig.maxRequestsPerDay

theorem map_max_of_rel {r : DailyBudget → DailyBudget → Prop} {o o' : Option DailyBudget}
    (h : Option.Rel r o o') (hmax : ∀ b b', r b b' → b'.max = b.max) :
    o'.map DailyBudget.max = o.map DailyBudget.max := by
  cases h with
  | none => rfl
  | some hr => exact congrArg some (hmax _ _ hr)

theorem Quiet.configured (h : Quiet s t) (hs : c.Configured s) : c.Configured t := by
  obtain ⟨-, -, hbudget, hbucket⟩ := h
  constructor
  · intro l hl
    rw [hl] at hbucket
    rcases hs' : s.rateLimiter with _ | l₀ <;> rw [hs'] at hbucket
    · cases hbucket
    · obtain ⟨limit, hlimit, hregular⟩ := hs.bucket l₀ hs'
      cases hbucket with
      | some hwaited => exact ⟨limit, hlimit, hwaited.regular hregular⟩
  · rw [← hs.budget]
    apply map_max_of_rel hbudget
    rintro b _ (rfl | ⟨now, rfl⟩)
    · rfl
    · simp

theorem Granted.configured (h : Granted c s t) (hs : c.Configured s) : c.Configured t := by
  have hbudget := h.dailyBudget
  have hbucket := h.rateLimiter
  constructor
  · intro l hl
    rw [hl] at hbucket
    rcases hs' : s.rateLimiter with _ | l₀ <;> rw [hs'] at hbucket
    · cases hbucket
    · obtain ⟨limit, hlimit, hregular⟩ := hs.bucket l₀ hs'
      cases hbucket with
      | some hpolled =>
        obtain ⟨l₁, now, hwaited, -, -, rfl⟩ := hpolled
        exact ⟨limit, hlimit, RateLimiter.regular_poll (hwaited.regular hregular) now⟩
  · rw [← hs.budget]
    apply map_max_of_rel hbudget
    rintro b _ ⟨now, -, rfl⟩
    simp

theorem Session.Configured.record (hs : c.Configured s) (e : Event) : c.Configured (s.record e) :=
  ⟨hs.bucket, hs.budget⟩

/-- A metered run keeps to the configuration. -/
theorem configured_of_run (h : (requestMeter c).Run s rs t) (hs : c.Configured s) :
    c.Configured t := by
  refine (h.strengthen (n := requestMeter c) (I := c.Configured) ?_ ?_ ?_ (fun _ h => h) hs).2
  · exact fun s t hs hquiet => ⟨hquiet, Quiet.configured hquiet hs⟩
  · exact fun s t hs hgrant => ⟨hgrant, Granted.configured hgrant hs⟩
  · rintro r s _ hs ⟨reply, rfl⟩
    exact ⟨⟨reply, rfl⟩, hs.record _⟩

theorem Session.Reachable.configured {w : World} (h : c.Reachable w) : c.Configured w := by
  induction h with
  | start instant unixSecs primed counted moment =>
    constructor
    · intro l hl
      obtain ⟨limit, hlimit, rfl⟩ := Option.map_eq_some_iff.mp hl
      exact ⟨limit, hlimit, RateLimiter.of_new limit instant,
        fun _ hgrain => RateLimiter.onGrid_new hgrain instant⟩
    · show (c.ops.config.dailyBudget.map _).map _ = _
      rw [Option.map_map]
      rfl
  | @run α op w _ ih =>
    by_cases hop : op.isBlockSeed = true
    · cases op with
      | blockSeed blockRound =>
        show c.Configured (blockSeed c blockRound w).2
        rw [blockSeed_snd]
        exact ih.record _
      | _ => exact absurd hop (by simp [Operation.isBlockSeed])
    · obtain ⟨rs, hrun⟩ := op.respects c (by simpa using hop) w
      exact configured_of_run hrun ih

/-! ## Handles whose requests are governed -/

/-- Every operation but `blockSeed` is governed, in every run of the handle: wherever runtimes can
be built, whatever the clocks say and the nodes answer. -/
def AlgoOps.Governs (ops : AlgoOps) : Prop :=
  ∀ env : Env, env.RuntimesBuild → ∀ w, Session.Reachable ⟨env, ops⟩ w →
    ∀ (α : Type) (op : Operation α), op.isBlockSeed = false →
      ∃ rs, Governed ⟨env, ops⟩ w (op.run ⟨env, ops⟩ w).2 rs

/-- One token of a bucket that is to reject comes back in a whole number of nanoseconds; or the
budget lets no request through. -/
def AlgoOps.WholeTokens (ops : AlgoOps) : Prop :=
  (∀ limit, ops.config.rateLimit = some limit → limit.mode = .reject →
    limit.burst ∣ limit.periodNanos) ∨
  ∃ budget, ops.config.dailyBudget = some budget ∧ budget.maxRequestsPerDay = 0

theorem Session.rejects_iff :
    c.rejects = true ↔ ∃ limit, c.ops.config.rateLimit = some limit ∧ limit.mode = .reject := by
  unfold Session.rejects
  rcases c.ops.config.rateLimit with _ | limit <;> simp

/-- With whole tokens an admission finds a token in a bucket that is to reject. -/
theorem Granted.not_empty (h : Granted c s t) (hs : c.Configured s) (hwhole : c.ops.WholeTokens) :
    ¬ s.Spent c ∧ ¬ s.Empty c := by
  obtain ⟨operation, happlied⟩ := h.applied
  obtain ⟨hspent, hasks⟩ := applyRateLimit_ok (congrArg Prod.fst happlied)
  refine ⟨hspent, ?_⟩
  rintro ⟨hrejects, l, hl, htokens⟩
  rcases hwhole with hwhole | ⟨budget, hbudget, hzero⟩
  · obtain ⟨limit, hlimit, hmode⟩ := Session.rejects_iff.mp hrejects
    obtain ⟨limit', hlimit', hof, hgrid⟩ := hs.bucket l hl
    obtain rfl : limit' = limit := Option.some.inj (hlimit'.symm.trans hlimit)
    obtain ⟨grain, hgrain⟩ := hwhole limit' hlimit hmode
    refine hasks ⟨hrejects, l, hl, fun hzero => ?_⟩
    rcases (RateLimiter.poll_fst_eq_zero_iff l _).mp hzero with htoken | hwait
    · exact absurd htoken (not_le.mpr htokens)
    · exact RateLimiter.untilToken_ne_zero hgrain (RateLimiter.of_refill hof _)
        (RateLimiter.onGrid_refill hgrain hof (hgrid grain hgrain) _) (not_le.mpr htokens) hwait
  · -- a budget of no requests is always spent
    have hmax := hs.budget
    rw [hbudget, Option.map_some, hzero] at hmax
    obtain ⟨b, hb, hb0⟩ := Option.map_eq_some_iff.mp hmax
    exact hspent ⟨b, hb, by rw [hb0]; exact Nat.zero_le _⟩

theorem AlgoOps.WholeTokens.governs {ops : AlgoOps} (h : ops.WholeTokens) : ops.Governs := by
  intro env hruntimes w hw α op hop
  obtain ⟨rs, hrun⟩ := op.respects ⟨env, ops⟩ hop w
  refine ⟨rs, governed_of_run (sent_of_run hrun) ?_⟩
  refine (hrun.strengthen (n := governor ⟨env, ops⟩) (I := Session.Configured ⟨env, ops⟩)
    ?_ ?_ ?_ ?_ hw.configured).1
  · exact fun s t hs hquiet => ⟨hquiet, Quiet.configured hquiet hs⟩
  · intro s t hs hgrant
    have hgranted : Granted ⟨env, ops⟩ s t := hgrant
    exact ⟨⟨hgranted, hgranted.not_empty hs h⟩, hgranted.configured hs⟩
  · rintro r s _ hs ⟨reply, rfl⟩
    exact ⟨⟨reply, rfl⟩, hs.record _⟩
  · exact fun s hlost => hlost (hruntimes s.moment)

/-! ## What a call leaves behind -/

/-- A call whose first attempt is not answered with an error of the node makes no other. -/
theorem callWithRetry_snd {kind : CallKind} {call : NodeCall α}
    (h : ∀ e, ((sendOnce kind.operation call).run c s).1 ≠ .ok (.error e)) :
    ((callWithRetry kind call).run c s).2 = ((sendOnce kind.operation call).run c s).2 := by
  show (loop _ (maxRetries + 1) 0 s).2 = _
  rcases hrun : (sendOnce kind.operation call).run c s with ⟨(e | a) | e | w, t⟩
  · exact absurd (congrArg Prod.fst hrun) (h e)
  · refine (loop_snd_of_first _ ?_).trans ?_
    · intro g hg
      rw [Confined.run_bind, bind_of_ok hrun] at hg
      exact absurd hg (by simp)
    · rw [Confined.run_bind, bind_of_ok hrun]
      rfl
  · refine (loop_snd_of_first _ ?_).trans ?_
    · intro g hg
      rw [Confined.run_bind, bind_of_err hrun] at hg
      exact absurd hg (by simp)
    · rw [Confined.run_bind, bind_of_err hrun]
  · refine (loop_snd_of_first _ ?_).trans ?_
    · intro g hg
      rw [Confined.run_bind, bind_of_stop hrun] at hg
      exact absurd hg (by simp)
    · rw [Confined.run_bind, bind_of_stop hrun]

/-- Asking for the round is one call. -/
theorem round_snd {client : Algod} (halgod : ∀ url token, c.env.newAlgod url token = .ok client)
    (s : World) :
    (Operation.round.run c s).2 = ((callWithRetry .algod client.statusCall).run c s).2 := by
  have hclient : algodClient.run c s = (.ok client, s) := by
    show (orBail "failed to construct Algod client" (c.env.newAlgod _ _)).run c s = _
    rw [halgod]
    rfl
  show (Algo.round.run c s).2 = _
  unfold Algo.round
  rw [Confined.run_bind, bind_of_ok hclient]
  exact (bind_pure_snd _ _ _).trans (mapErr_snd _ _ _)

/-- An admitted request for which no runtime can be built is counted, and not sent. -/
theorem round_not_governed {client : Algod}
    (halgod : ∀ url token, c.env.newAlgod url token = .ok client)
    (h : applyRateLimit c "algod call" s = (.ok (), t))
    (hfailure : c.env.runtimeFailure t.moment ≠ none) :
    ¬ ∃ rs, Governed c s (Operation.round.run c s).2 rs := by
  have hsend : (sendOnce "algod call" client.statusCall).run c s
      = mapErr (fun e => .text s!"runtime error: {e.display}")
        (rtBlockOn c "algod call" client.statusCall) t := bind_of_ok h
  obtain ⟨e, he⟩ := Option.ne_none_iff_exists'.mp hfailure
  have hblock : rtBlockOn c "algod call" client.statusCall t
      = (.err (.text s!"failed to build tokio runtime: {e}"), t.record (.unsent e)) := by
    unfold rtBlockOn Session.block
    rw [he]
  rw [mapErr_apply, hblock] at hsend
  have hlast : (Operation.round.run c s).2 = t.record (.unsent e) := by
    rw [round_snd halgod]
    refine (callWithRetry_snd ?_).trans (congrArg Prod.snd hsend)
    intro e' he'
    rw [CallKind.operation, hsend] at he'
    exact absurd he' (by simp)
  rintro ⟨rs, hgoverned⟩
  have hadmitted := (applyRateLimit_triple c "algod call" s) s rfl
  rw [h] at hadmitted
  have hgrant : Admitted c s t := hadmitted.1
  have hall := hgoverned.sent
  have hmade := hgoverned.requestsMade
  rw [hlast, World.record_sent, hgrant.sent] at hall
  rw [hlast, World.record_requestsMade, hgrant.requestsMade,
    ← List.append_cancel_left hall] at hmade
  have hone : s.requestsMade + 1 = s.requestsMade + 0 := hmade
  exact absurd hone (by simp)

end BlockchainOps.Algo
