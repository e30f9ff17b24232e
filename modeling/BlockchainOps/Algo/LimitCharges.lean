import BlockchainOps.Algo.Operations
import BlockchainOps.Algo.RateLimiterWaits

/-!
# What the limits charge

A request that a limit refuses is charged to none of them: the budget at most rolls to the window
of the clock reading, and the bucket at most refills. One that is admitted is charged once. Which
limit refuses is decided by the budget first (`limits_charged`).
-/

namespace BlockchainOps.Algo

open Effect Proc

variable {c : Session} {operation : String} {s t : World}

/-! ## States of the limits -/

/-- The clock reading that the limits are applied with. -/
def World.reading (c : Session) (s : World) : ℕ := c.env.unixSecs s.moment

/-- The daily budget is spent in the window of the reading. -/
def World.Spent (c : Session) (s : World) : Prop :=
  ∃ b, s.dailyBudget = some b ∧ b.max ≤ (b.roll (s.reading c)).spent

/-- The time at which the bucket is polled first: the clock may be read for the budget before. -/
def World.pollTime (c : Session) (s : World) : ℕ :=
  c.env.instant (s.moment + if s.dailyBudget.isSome then 1 else 0)

/-- The bucket is to reject, and holds less than a token. -/
def World.Empty (c : Session) (s : World) : Prop :=
  c.rejects = true ∧ ∃ l, s.rateLimiter = some l ∧ (l.refill (s.pollTime c)).tokens < 1

/-- The bucket is to reject, and asks for a wait. -/
def World.AsksToWait (c : Session) (s : World) : Prop :=
  c.rejects = true ∧ ∃ l, s.rateLimiter = some l ∧ (l.poll (s.pollTime c)).1 ≠ 0

theorem World.AsksToWait.empty (h : s.AsksToWait c) : s.Empty c := by
  obtain ⟨hrejects, l, hl, hwait⟩ := h
  exact ⟨hrejects, l, hl, (RateLimiter.poll_of_wait hwait).1⟩

/-- Some refills lead from one bucket to the other. -/
def RateLimiter.Refilled : RateLimiter → RateLimiter → Prop :=
  Relation.ReflTransGen fun l l' => ∃ now, l' = l.refill now

/-- Polls that ask for a wait only refill. -/
theorem RateLimiter.Waited.refilled {l l' : RateLimiter} (h : l.Waited l') : l.Refilled l' := by
  induction h with
  | refl => exact .refl
  | tail _ hpoll ih =>
    obtain ⟨now, hwait, rfl⟩ := hpoll
    exact ih.tail ⟨now, congrArg Prod.snd (RateLimiter.poll_of_wait hwait).2⟩

theorem rel_refilled {o o' : Option RateLimiter} (h : Option.Rel RateLimiter.Waited o o') :
    Option.Rel RateLimiter.Refilled o o' := by
  cases h with
  | none => exact .none
  | some hwaited => exact .some hwaited.refilled

/-! ## The bucket -/

/-- A bucket that blocks refuses nothing. -/
theorem takeToken_ne_err (hblocks : c.rejects = false) (e : Error) (s : World) :
    (takeToken c operation s).1 ≠ .err e := by
  have htriple : Triple (fun _ => True) (takeToken c operation) (fun _ _ => True)
      (fun e _ => e = none) := by
    apply Triple.loop (I := fun _ _ => True)
    · intro _ t _
      rcases hl : t.rateLimiter with _ | l
      · rw [pollOnce_of_none c operation hl]
        trivial
      · rw [pollOnce_of_some c operation hl]
        dsimp only
        rw [hblocks]
        split_ifs
        · trivial
        · contradiction
        · trivial
    · intro _ t _
      rfl
  have hends := htriple s trivial
  intro herr
  rcases hrun : takeToken c operation s with ⟨o, t⟩
  rw [hrun] at hends herr
  cases herr
  have hnone : some e = none := hends
  exact absurd hnone (by simp)

/-- What the bucket refuses, it asked to wait for at the first poll. -/
theorem takeToken_err {e : Error} (h : (takeToken c operation s).1 = .err e) :
    c.rejects = true ∧ ∃ l, s.rateLimiter = some l ∧ (l.poll (c.env.instant s.moment)).1 ≠ 0 := by
  have hrejects : c.rejects = true := by
    by_contra hblocks
    exact takeToken_ne_err (by simpa using hblocks) e s h
  refine ⟨hrejects, ?_⟩
  unfold takeToken at h
  rcases hfuel : c.env.fuel with _ | n
  · rw [hfuel] at h
    exact absurd h (by simp [loop])
  rw [hfuel] at h
  rcases hl : s.rateLimiter with _ | l
  · have hloop : loop (fun _ : Unit => pollOnce c operation) (n + 1) () s = (.ok (), s) :=
      bind_of_ok (pollOnce_of_none c operation hl)
    rw [hloop] at h
    exact absurd h (by simp)
  · refine ⟨l, rfl, ?_⟩
    intro hzero
    rw [loop_pollOnce_granted n hl hzero] at h
    exact absurd h (by simp)

/-- A bucket that asks to wait refuses the request. -/
theorem takeToken_of_wait (operation : String) (hfuel : 1 ≤ c.env.fuel)
    (hrejects : c.rejects = true) {l : RateLimiter} (hl : s.rateLimiter = some l)
    (hwait : (l.poll (c.env.instant s.moment)).1 ≠ 0) :
    ∃ wait, (takeToken c operation s).1 = .err (.typed (.rateLimited operation wait)) := by
  obtain ⟨n, hn⟩ : ∃ n, c.env.fuel = n + 1 := ⟨c.env.fuel - 1, by omega⟩
  refine ⟨(l.poll (c.env.instant s.moment)).1, ?_⟩
  unfold takeToken
  rw [hn, loop_pollOnce_refused n hl hwait hrejects]
  rfl

/-! ## The limits -/

/-- The error of a request that a spent budget refuses. -/
def IsBudgetError (e : Error) : Prop := ∃ wait offset, e = .typed (.dailyBudgetExceeded wait offset)

/-- The error of a request that the bucket refuses. -/
def IsBucketError (operation : String) (e : Error) : Prop :=
  ∃ wait, e = .typed (.rateLimited operation wait)

/-- What one application of the limits does. Where `s.Spent c` does not hold and the bucket does
not ask to wait, nothing is refused. -/
structure LimitsCharged (c : Session) (operation : String) (s : World) (o : Outcome Error Unit)
    (t : World) : Prop where
  refused : ∀ e, o = .err e →
    t.requestsMade = s.requestsMade ∧
    Option.Rel (fun b b' => b' = b.roll (s.reading c)) s.dailyBudget t.dailyBudget ∧
    Option.Rel RateLimiter.Refilled s.rateLimiter t.rateLimiter ∧
    (IsBudgetError e ↔ s.Spent c) ∧
    (¬ s.Spent c → (IsBucketError operation e ↔ s.Empty c))
  admitted : o = .ok () →
    t.requestsMade = s.requestsMade + 1 ∧
    Option.Rel (fun b b' => b' = { b.roll (s.reading c) with
      spent := (b.roll (s.reading c)).spent + 1 }) s.dailyBudget t.dailyBudget
  spent : s.Spent c → ∃ e, o = .err e ∧ IsBudgetError e
  waits : 1 ≤ c.env.fuel → ¬ s.Spent c → s.AsksToWait c →
    ∃ e, o = .err e ∧ IsBucketError operation e

theorem not_isBudgetError {e : Error} (h : IsBucketError operation e) : ¬ IsBudgetError e := by
  obtain ⟨wait, rfl⟩ := h
  rintro ⟨wait', offset, heq⟩
  have hkind := congrArg AlgoError.kind (Error.typed.inj heq)
  exact absurd hkind (by simp [AlgoError.rateLimited, AlgoError.dailyBudgetExceeded])

/-- Rolling twice to one time is rolling once. -/
theorem DailyBudget.roll_roll (b : DailyBudget) (now : ℕ) : (b.roll now).roll now = b.roll now := by
  by_cases h : now < b.windowStartUnix ∨ b.windowEnd ≤ now
  · have hroll : b.roll now = { b with
        windowStartUnix := windowStartFor now b.dayStartOffsetSecs, spent := 0 } := if_pos h
    rw [hroll]
    unfold roll
    dsimp only
    split_ifs <;> rfl
  · have hroll : b.roll now = b := if_neg h
    rw [hroll, hroll]

/-- The bucket is asked in the state `s`, after the budget was asked in the state `r`, whose limits
are then charged at the time `now`. -/
theorem bucket_charged {r : World} (now : Option ℕ) (hasked : BudgetAsked r s)
    (hrolled : Option.Rel (fun b b' => b' = b.roll (r.reading c)) r.dailyBudget s.dailyBudget)
    (hcharge : ∀ u : World, u.dailyBudget = s.dailyBudget →
      Option.Rel (fun b b' => b' = { b.roll (r.reading c) with
        spent := (b.roll (r.reading c)).spent + 1 }) r.dailyBudget (u.charged now).dailyBudget)
    (hspent : ¬ r.Spent c) (htime : r.pollTime c = c.env.instant s.moment) :
    LimitsCharged c operation r ((do takeToken c operation; charge now) s).1
      ((do takeToken c operation; charge now) s).2 := by
  have hends := takeToken_triple c operation s s rfl
  have hlimiter := hasked.rateLimiter
  have hwaits : 1 ≤ c.env.fuel → r.AsksToWait c →
      ∃ wait, (takeToken c operation s).1 = .err (.typed (.rateLimited operation wait)) := by
    rintro hfuel ⟨hrejects, l, hl, hwait⟩
    rw [htime] at hwait
    exact takeToken_of_wait operation hfuel hrejects (hlimiter.trans hl) hwait
  have herr : ∀ e, (takeToken c operation s).1 = .err e → r.AsksToWait c := by
    intro e he
    obtain ⟨hrejects, l, hl, hwait⟩ := takeToken_err he
    rw [← htime] at hwait
    exact ⟨hrejects, l, hlimiter.symm.trans hl, hwait⟩
  rw [bind_apply]
  rcases hrun : takeToken c operation s with ⟨_ | e | w, t⟩
  · rw [hrun] at hends hwaits
    have htaken : TokenTaken c s t := hends
    refine ⟨?_, ?_, fun h => absurd h hspent, ?_⟩
    · intro e he
      exact absurd he (by simp [charge])
    · intro _
      refine ⟨?_, hcharge t htaken.dailyBudget⟩
      show t.requestsMade + 1 = _
      rw [htaken.requestsMade, hasked.requestsMade]
    · intro hfuel _ hasks
      obtain ⟨wait, hwait⟩ := hwaits hfuel hasks
      exact absurd hwait (by simp)
  · rw [hrun] at hends herr
    have hrefused : TokenRefused operation s t e := hends
    obtain ⟨wait, he, -⟩ := hrefused.log
    have hbucket : IsBucketError operation e := ⟨wait, he⟩
    refine ⟨?_, fun h => absurd h (by simp), fun h => absurd h hspent, ?_⟩
    · intro e' he'
      rw [← Outcome.err.inj he']
      refine ⟨?_, ?_, ?_, ?_, ?_⟩
      · exact hrefused.requestsMade.trans hasked.requestsMade
      · show Option.Rel _ r.dailyBudget t.dailyBudget
        rw [hrefused.dailyBudget]
        exact hrolled
      · have hwaited := hrefused.waited
        rw [hlimiter] at hwaited
        exact rel_refilled hwaited
      · exact iff_of_false (not_isBudgetError hbucket) hspent
      · intro _
        exact iff_of_true hbucket (herr e rfl).empty
    · intro _ _ _
      exact ⟨e, rfl, hbucket⟩
  · rw [hrun] at hwaits
    refine ⟨?_, fun h => absurd h (by simp), fun h => absurd h hspent, ?_⟩
    · intro e he
      exact absurd he (by simp)
    · intro hfuel _ hasks
      obtain ⟨wait, hwait⟩ := hwaits hfuel hasks
      exact absurd hwait (by simp)

/-- A limit that refuses a request charges nothing for it, and a request that is admitted is charged
once, in every state of the limits. -/
theorem limits_charged (c : Session) (operation : String) (s : World)
    (hmax : ∀ b, s.dailyBudget = some b → b.max < 2 ^ 32) :
    LimitsCharged c operation s (applyRateLimit c operation s).1
      (applyRateLimit c operation s).2 := by
  rcases hb : s.dailyBudget with _ | b
  · have hasked : BudgetAsked s s := ⟨rfl, rfl, rfl, by rw [hb]; exact .none⟩
    have hspent : ¬ s.Spent c := by
      rintro ⟨b, hsome, -⟩
      rw [hb] at hsome
      exact absurd hsome (by simp)
    have htime : s.pollTime c = c.env.instant s.moment := by
      unfold World.pollTime
      rw [hb]
      rfl
    rw [applyRateLimit_of_none c operation hb]
    apply bucket_charged none hasked (by rw [hb]; exact .none) _ hspent htime
    intro u hu
    rw [hb, World.charged_of_none none (hu.trans hb)]
    exact .none
  · have hasked : BudgetAsked s (s.checked b (s.reading c)) :=
      ⟨rfl, rfl, rfl, by rw [hb]; exact .some (Or.inr ⟨_, rfl⟩)⟩
    have hrolled : Option.Rel (fun b b' => b' = b.roll (s.reading c)) s.dailyBudget
        (s.checked b (s.reading c)).dailyBudget := by
      rw [hb]
      exact .some (b.check_snd _)
    have htime : s.pollTime c = c.env.instant (s.checked b (s.reading c)).moment := by
      unfold World.pollTime
      rw [hb]
      rfl
    rw [applyRateLimit_of_some c operation hb]
    rcases hcheck : (b.check (c.env.unixSecs s.moment)).1 with wait | _
    · have hspent : s.Spent c := by
        refine ⟨b, hb, ?_⟩
        by_contra hleft
        have hok := (b.check_ok_iff (c.env.unixSecs s.moment)).mpr (not_le.mp hleft)
        rw [hcheck] at hok
        exact absurd hok (by simp)
      have hbudget : IsBudgetError (.typed (.dailyBudgetExceeded wait b.dayStartOffsetSecs)) :=
        ⟨wait, _, rfl⟩
      refine ⟨?_, fun h => absurd h (by simp [refuse]), fun _ => ⟨_, rfl, hbudget⟩,
        fun _ h => absurd hspent h⟩
      intro e he
      rw [← Outcome.err.inj he]
      refine ⟨rfl, hrolled, ?_, iff_of_true hbudget hspent, fun h => absurd hspent h⟩
      show Option.Rel _ s.rateLimiter s.rateLimiter
      cases s.rateLimiter with
      | none => exact .none
      | some l => exact .some .refl
    · have hleft := (b.check_ok_iff (c.env.unixSecs s.moment)).mp hcheck
      have hspent : ¬ s.Spent c := by
        rintro ⟨b', hsome, hle⟩
        rw [hb] at hsome
        cases hsome
        exact absurd hleft (not_lt.mpr hle)
      apply bucket_charged _ hasked hrolled _ hspent htime
      intro u hu
      have hmaxB := hmax b hb
      have hone : satAddU32 (b.roll (s.reading c)).spent 1 = (b.roll (s.reading c)).spent + 1 := by
        have hlt : (b.roll (s.reading c)).spent < b.max := hleft
        unfold satAddU32
        omega
      have hrecord : (b.check (s.reading c)).2.record (s.reading c)
          = { b.roll (s.reading c) with spent := (b.roll (s.reading c)).spent + 1 } := by
        rw [b.check_snd]
        unfold DailyBudget.record
        dsimp only
        rw [b.roll_roll, hone]
      rw [hb, World.charged_of_some (b := (b.check (s.reading c)).2) hu]
      exact .some hrecord

namespace LocalNode

/-- A client whose bucket holds one token, gets one a second, and rejects. -/
def rejecting : Session :=
  { session silent with
    ops := { (session silent).ops with
      config := { AlgoChainConfig.default with rateLimit := some ⟨1, 1000, .reject⟩ } } }

/-- Its world at first, with a budget of five requests. -/
def freshWorld : World := { world 5 with rateLimiter := some (.new ⟨1, 1000, .reject⟩ 0) }

end LocalNode

open LocalNode in
/-- Of two requests in a row the first is admitted, and charged once. The second finds the bucket
empty and the budget unspent: it is refused by the bucket, and charged to neither. -/
theorem limits_charged_two_requests :
    let first := applyRateLimit rejecting "algod call" freshWorld
    let second := applyRateLimit rejecting "algod call" first.2
    (LimitsCharged rejecting "algod call" freshWorld first.1 first.2 ∧ first.1 = .ok () ∧
      first.2.requestsMade = 1 ∧ first.2.dailyBudget.map DailyBudget.spent = some 1) ∧
    (LimitsCharged rejecting "algod call" first.2 second.1 second.2 ∧
      second.1 = .err (.typed (.rateLimited "algod call" 999999998)) ∧
      second.2.requestsMade = 1 ∧ second.2.dailyBudget.map DailyBudget.spent = some 1) := by
  intro first second
  have hmax : ∀ b, freshWorld.dailyBudget = some b → b.max < 2 ^ 32 := by
    intro b hb
    rw [← Option.some.inj hb]
    decide
  have hcharged := limits_charged rejecting "algod call" freshWorld hmax
  have hok : first.1 = .ok () := by decide +kernel
  have hbudget : first.2.dailyBudget = some ⟨5, 0, 86400, 1⟩ := by decide +kernel
  have hmax' : ∀ b, first.2.dailyBudget = some b → b.max < 2 ^ 32 := by
    intro b hb
    rw [← Option.some.inj (hbudget.symm.trans hb)]
    decide
  exact ⟨⟨hcharged, hok, (hcharged.admitted hok).1, by decide +kernel⟩,
    limits_charged rejecting "algod call" first.2 hmax', by decide +kernel, by decide +kernel,
    by decide +kernel⟩

end BlockchainOps.Algo
