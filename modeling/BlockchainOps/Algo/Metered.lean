import Mathlib.Logic.Relation
import BlockchainOps.Algo.Outbound
import BlockchainOps.Lib.Confined
import BlockchainOps.Lib.Metering
import BlockchainOps.Lib.Triple

/-!
# The metered client

`requestMeter` says what it is for the requests of a client to be governed: each is sent right
after an admission of its own, which finds the budget unspent and the bucket with a token, and
charges both and the counter. A `Client` is a program whose every run is governed so.
`sendOnce`, which applies the limits and then makes one request, is one, and everything written in
terms of it is one by construction.
-/

namespace BlockchainOps.Algo

open Effect Proc

variable {α : Type} {c : Session} {s t : World}

/-! ## The meter -/

/-- Some polls, each of which asked for a wait, lead from one bucket to the other. -/
def RateLimiter.Waited : RateLimiter → RateLimiter → Prop :=
  Relation.ReflTransGen fun l l' => ∃ now, (l.poll now).1 ≠ 0 ∧ l' = (l.poll now).2

/-- One request is admitted: the budget had one left and is charged one, the bucket granted a
token, at the first poll if it is to refuse, and the counter goes up by one. -/
structure Admitted (c : Session) (s t : World) : Prop where
  sent : t.sent = s.sent
  requestsMade : t.requestsMade = s.requestsMade + 1
  dailyBudget : Option.Rel
    (fun b b' => ∃ now, (b.check now).1 = .ok () ∧ b' = (b.check now).2.record now)
    s.dailyBudget t.dailyBudget
  rateLimiter : Option.Rel
    (fun l l' => ∃ l₀ now, l.Waited l₀ ∧ (c.rejects = true → l₀ = l) ∧ (l₀.poll now).1 = 0 ∧
      l' = (l₀.poll now).2)
    s.rateLimiter t.rateLimiter

/-- The limits were applied, and admitted a request. -/
structure Granted (c : Session) (s t : World) : Prop extends Admitted c s t where
  applied : ∃ operation, applyRateLimit c operation s = (.ok (), t)

/-- No request is admitted or sent: the budget at most rolls, the bucket at most refills. -/
structure Quiet (s t : World) : Prop where
  sent : t.sent = s.sent
  requestsMade : t.requestsMade = s.requestsMade
  dailyBudget : Option.Rel (fun b b' => b' = b ∨ ∃ now, b' = (b.check now).2)
    s.dailyBudget t.dailyBudget
  rateLimiter : Option.Rel RateLimiter.Waited s.rateLimiter t.rateLimiter

/-- The meter of a client's requests. An admitted request is lost where no runtime can be
built for it. -/
def requestMeter (c : Session) : Meter World Request where
  quiet := Quiet
  grant := Granted c
  send request s t := ∃ reply, t = s.record (.exchange request reply)
  lost s := c.env.runtimeFailure s.moment ≠ none

instance requestMeter_refl (c : Session) : Std.Refl (requestMeter c).Reaches := inferInstance
instance requestMeter_trans (c : Session) : IsTrans World (requestMeter c).Reaches := inferInstance

/-- A program of a client: in every session, every run of it is metered. -/
abbrev Client : Type → Type := Confined (fun c => (requestMeter c).Reaches) Error

/-! ## What the limits do -/

/-- Polls that took no token: the first one decides where the bucket is to refuse. -/
structure Polled (c : Session) (s t : World) : Prop where
  log : t.log = s.log
  requestsMade : t.requestsMade = s.requestsMade
  dailyBudget : t.dailyBudget = s.dailyBudget
  waited : Option.Rel RateLimiter.Waited s.rateLimiter t.rateLimiter
  rejects : c.rejects = true → t.rateLimiter = s.rateLimiter

/-- Polls of which the last took a token. -/
structure TokenTaken (c : Session) (s t : World) : Prop where
  log : t.log = s.log
  requestsMade : t.requestsMade = s.requestsMade
  dailyBudget : t.dailyBudget = s.dailyBudget
  rateLimiter : Option.Rel
    (fun l l' => ∃ l₀ now, l.Waited l₀ ∧ (c.rejects = true → l₀ = l) ∧ (l₀.poll now).1 = 0 ∧
      l' = (l₀.poll now).2)
    s.rateLimiter t.rateLimiter

/-- A request that the bucket refused, after polls that took no token. -/
structure TokenRefused (operation : String) (s t : World) (e : Error) : Prop where
  log : ∃ wait, e = .typed (.rateLimited operation wait) ∧
    t.log = s.log ++ [.refused (.rateLimited operation wait)]
  requestsMade : t.requestsMade = s.requestsMade
  dailyBudget : t.dailyBudget = s.dailyBudget
  waited : Option.Rel RateLimiter.Waited s.rateLimiter t.rateLimiter

theorem rel_budget_refl (o : Option DailyBudget) :
    Option.Rel (fun b b' => b' = b ∨ ∃ now, b' = (b.check now).2) o o := by
  cases o with
  | none => exact .none
  | some b => exact .some (Or.inl rfl)

theorem rel_waited_refl (o : Option RateLimiter) : Option.Rel RateLimiter.Waited o o := by
  cases o with
  | none => exact .none
  | some l => exact .some .refl

theorem Polled.refl (c : Session) (s : World) : Polled c s s where
  log := rfl
  requestsMade := rfl
  dailyBudget := rfl
  waited := rel_waited_refl _
  rejects := fun _ => rfl

/-- Without a bucket every request may proceed. -/
theorem pollOnce_of_none (c : Session) (operation : String) (hl : s.rateLimiter = none) :
    pollOnce c operation s = (.ok (.inr ()), s) := by
  unfold pollOnce
  simp only [bind_apply, get_apply, hl, pure_apply]

/-- One poll, where there is a bucket. -/
theorem pollOnce_of_some (c : Session) (operation : String) {l : RateLimiter}
    (hl : s.rateLimiter = some l) :
    pollOnce c operation s =
      let polled := l.poll (c.env.instant s.moment)
      let t := { s with rateLimiter := some polled.2, moment := s.moment + 1 }
      if polled.1 = 0 then (.ok (.inr ()), t)
      else if c.rejects then refuse (.rateLimited operation polled.1) t
      else (.ok (.inl ()), t) := by
  unfold pollOnce
  simp only [bind_apply, get_apply, hl, askClock, pollLimiter, modify_apply, pure_apply]
  split_ifs <;> rfl

/-- One poll after polls that took no token. -/
theorem pollOnce_triple (c : Session) (operation : String) (s : World) :
    Triple (Polled c s) (pollOnce c operation)
      (fun r => Sum.elim (fun _ => Polled c s) (fun _ => TokenTaken c s) r)
      (fun e t => match e with
        | some e => TokenRefused operation s t e
        | none => Polled c s t) := by
  intro t h
  have hwaited := h.waited
  rcases hl : t.rateLimiter with _ | l
  · have hnone : s.rateLimiter = none := by
      rw [hl] at hwaited
      cases hs : s.rateLimiter with
      | none => rfl
      | some l => rw [hs] at hwaited; cases hwaited
    rw [pollOnce_of_none c operation hl]
    exact ⟨h.log, h.requestsMade, h.dailyBudget, by rw [hl, hnone]; exact .none⟩
  · obtain ⟨l₀, hl₀, hpolls⟩ : ∃ l₀, s.rateLimiter = some l₀ ∧ l₀.Waited l := by
      rw [hl] at hwaited
      cases hs : s.rateLimiter with
      | none => rw [hs] at hwaited; cases hwaited
      | some l₀ => rw [hs] at hwaited; cases hwaited with | some hw => exact ⟨l₀, rfl, hw⟩
    rw [pollOnce_of_some c operation hl]
    dsimp only
    split_ifs with hzero hreject
    · refine ⟨h.log, h.requestsMade, h.dailyBudget, ?_⟩
      rw [hl₀]
      refine .some ⟨l, _, hpolls, fun hr => ?_, hzero, rfl⟩
      have hfirst := h.rejects hr
      rw [hl, hl₀] at hfirst
      exact Option.some.inj hfirst
    · have hmore := hpolls.tail ⟨c.env.instant t.moment, hzero, rfl⟩
      exact ⟨⟨_, rfl, by rw [World.record_log, h.log]⟩, h.requestsMade, h.dailyBudget,
        by rw [hl₀]; exact .some hmore⟩
    · have hmore := hpolls.tail ⟨c.env.instant t.moment, hzero, rfl⟩
      exact ⟨h.log, h.requestsMade, h.dailyBudget, by rw [hl₀]; exact .some hmore,
        fun hr => absurd hr hreject⟩

/-- The bucket grants a token or refuses the request; or the thread does not wake up. -/
theorem takeToken_triple (c : Session) (operation : String) (s : World) :
    Triple (fun t => t = s) (takeToken c operation) (fun _ => TokenTaken c s)
      (fun e t => match e with
        | some e => TokenRefused operation s t e
        | none => Polled c s t) := by
  unfold takeToken
  refine (Triple.loop (I := fun _ => Polled c s) ?_ ?_ _ ()).pre ?_
  · exact fun _ => pollOnce_triple c operation s
  · exact fun _ t h => h
  · intro t ht
    rw [ht]
    exact Polled.refl c s

/-- The errors of the limits. -/
inductive Refusal (operation : String) : AlgoError → Prop
  | budget (wait offset : ℕ) : Refusal operation (.dailyBudgetExceeded wait offset)
  | bucket (wait : Duration) : Refusal operation (.rateLimited operation wait)

/-- What the limits leave behind when they refuse a request, or when the thread never wakes up. -/
structure NotAdmitted (operation : String) (s t : World) (e : Option Error) : Prop where
  quiet : Quiet s t
  log : match e with
    | some e => ∃ a, e = .typed a ∧ Refusal operation a ∧ t.log = s.log ++ [.refused a]
    | none => t.log = s.log

/-- Without a budget only the bucket is asked. -/
theorem applyRateLimit_of_none (c : Session) (operation : String) (hb : s.dailyBudget = none) :
    applyRateLimit c operation s = (do takeToken c operation; charge none) s := by
  have hcheck : checkBudget none s = (.ok (), s) := by
    unfold checkBudget
    simp only [bind_apply, get_apply, hb, pure_apply]
  unfold applyRateLimit
  simp only [bind_apply, get_apply, hb, pure_apply, hcheck]

/-- The state in which the bucket is asked, after the budget was. -/
def World.checked (s : World) (b : DailyBudget) (now : ℕ) : World :=
  { s with dailyBudget := some (b.check now).2, moment := s.moment + 1 }

/-- A budget is asked first, about the time at which the request is made. -/
theorem applyRateLimit_of_some (c : Session) (operation : String) {b : DailyBudget}
    (hb : s.dailyBudget = some b) :
    applyRateLimit c operation s =
      match (b.check (c.env.unixSecs s.moment)).1 with
      | .ok () => (do takeToken c operation; charge (some (c.env.unixSecs s.moment)))
          (s.checked b (c.env.unixSecs s.moment))
      | .error wait => refuse (.dailyBudgetExceeded wait b.dayStartOffsetSecs)
          (s.checked b (c.env.unixSecs s.moment)) := by
  unfold applyRateLimit
  simp only [bind_apply, get_apply, hb, askClock, pure_apply]
  unfold checkBudget
  simp only [bind_apply, get_apply, modify_apply]
  cases (b.check (c.env.unixSecs s.moment)).1 with
  | ok _ => rfl
  | error wait => rfl

/-- What the bucket makes of a request: a token and a charge, or a refusal. -/
theorem takeToken_charge_triple (c : Session) (operation : String) (now : Option ℕ) (s : World) :
    Triple (fun t => t = s) (do takeToken c operation; charge now)
      (fun _ t => ∃ u, TokenTaken c s u ∧ t = u.charged now)
      (fun e t => match e with
        | some e => TokenRefused operation s t e
        | none => Polled c s t) := by
  refine (takeToken_triple c operation s).bind fun _ => ?_
  intro t h
  exact ⟨t, h, rfl⟩

/-- The budget was asked, and at most rolled. -/
structure BudgetAsked (r s : World) : Prop where
  log : s.log = r.log
  requestsMade : s.requestsMade = r.requestsMade
  rateLimiter : s.rateLimiter = r.rateLimiter
  dailyBudget : Option.Rel (fun b b' => b' = b ∨ ∃ now, b' = (b.check now).2)
    r.dailyBudget s.dailyBudget

theorem BudgetAsked.quiet {r : World} (h : BudgetAsked r s) (hsent : t.sent = s.sent)
    (hmade : t.requestsMade = s.requestsMade) (hbudget : t.dailyBudget = s.dailyBudget)
    (hwaited : Option.Rel RateLimiter.Waited s.rateLimiter t.rateLimiter) : Quiet r t where
  sent := hsent.trans (World.sent_congr h.log)
  requestsMade := hmade.trans h.requestsMade
  dailyBudget := by
    rw [hbudget]
    exact h.dailyBudget
  rateLimiter := by
    rw [← h.rateLimiter]
    exact hwaited

theorem TokenRefused.notAdmitted {operation : String} {r : World} {e : Error}
    (h : TokenRefused operation s t e) (hasked : BudgetAsked r s) :
    NotAdmitted operation r t (some e) := by
  obtain ⟨wait, he, hlog⟩ := h.log
  have hsent : t.sent = s.sent := by
    rw [World.sent_of_log hlog]
    exact List.append_nil _
  rw [hasked.log] at hlog
  exact ⟨hasked.quiet hsent h.requestsMade h.dailyBudget h.waited, _, he, .bucket wait, hlog⟩

theorem Polled.notAdmitted {r : World} (operation : String) (h : Polled c s t)
    (hasked : BudgetAsked r s) : NotAdmitted operation r t none := by
  exact ⟨hasked.quiet (World.sent_congr h.log) h.requestsMade h.dailyBudget h.waited,
    h.log.trans hasked.log⟩

/-- The limits admit a request and charge it, or they refuse it, or the thread never wakes up. -/
theorem applyRateLimit_triple (c : Session) (operation : String) (s : World) :
    Triple (fun t => t = s) (applyRateLimit c operation)
      (fun _ t => Admitted c s t ∧ t.log = s.log) (fun e t => NotAdmitted operation s t e) := by
  refine Triple.of_eq ?_
  rcases hb : s.dailyBudget with _ | b
  · have hasked : BudgetAsked s s := ⟨rfl, rfl, rfl, by rw [hb]; exact .none⟩
    rw [applyRateLimit_of_none c operation hb]
    refine (takeToken_charge_triple c operation none s).post ?_ ?_ s rfl
    · rintro _ _ ⟨u, hu, rfl⟩
      have hnone : u.dailyBudget = none := hu.dailyBudget.trans hb
      refine ⟨⟨?_, ?_, ?_, hu.rateLimiter⟩, hu.log⟩
      · exact World.sent_congr hu.log
      · exact congrArg (· + 1) hu.requestsMade
      · rw [hb, World.charged_of_none none hnone]
        exact .none
    · intro e t h
      cases e with
      | none => exact h.notAdmitted operation hasked
      | some e => exact h.notAdmitted hasked
  · rw [applyRateLimit_of_some c operation hb]
    set now := c.env.unixSecs s.moment with hnow
    have hasked : BudgetAsked s (s.checked b now) :=
      ⟨rfl, rfl, rfl, by rw [hb]; exact .some (Or.inr ⟨now, rfl⟩)⟩
    rcases hcheck : (b.check now).1 with wait | _
    · have hlog : (World.record (.refused (.dailyBudgetExceeded wait b.dayStartOffsetSecs))
          (s.checked b now)).log
          = s.log ++ [.refused (.dailyBudgetExceeded wait b.dayStartOffsetSecs)] := rfl
      refine ⟨hasked.quiet ?_ rfl rfl (rel_waited_refl _), _, rfl, .budget _ _, hlog⟩
      rw [World.record_sent]
      exact List.append_nil _
    · refine (takeToken_charge_triple c operation (some now) (s.checked b now)).post ?_ ?_ _ rfl
      · rintro _ _ ⟨u, hu, rfl⟩
        have hsome : u.dailyBudget = some (b.check now).2 := hu.dailyBudget
        refine ⟨⟨?_, ?_, ?_, hu.rateLimiter⟩, hu.log⟩
        · exact World.sent_congr hu.log
        · exact congrArg (· + 1) hu.requestsMade
        · rw [hb, World.charged_of_some hsome]
          exact .some ⟨now, hcheck, rfl⟩
      · intro e t h
        cases e with
        | none => exact h.notAdmitted operation hasked
        | some e => exact h.notAdmitted hasked

/-! ## One request -/

/-- A request that the limits admitted and that a runtime then drives. -/
theorem reaches_of_granted {u : World} (operation : String) (fut : Fut α)
    (h : Granted c s t)
    (hu : u = t.record (c.block operation fut t.moment).2) : (requestMeter c).Reaches s u := by
  rcases hfail : c.env.runtimeFailure t.moment with _ | e
  · obtain ⟨reply, hevent⟩ : ∃ reply, (c.block operation fut t.moment).2
        = .exchange fut.request reply := by
      have hsent := block_sent c operation fut t.moment
      rw [if_pos hfail] at hsent
      rcases hevent : (c.block operation fut t.moment).2 with e | e | ⟨request, reply⟩
      · rw [hevent] at hsent; cases hsent
      · rw [hevent] at hsent; cases hsent
      · rw [hevent] at hsent
        cases hsent
        exact ⟨reply, rfl⟩
    exact .of_request h ⟨reply, by rw [hu, hevent]⟩
  · have hsent := block_sent c operation fut t.moment
    rw [if_neg (by rw [hfail]; simp)] at hsent
    have hquiet : Quiet t u := by
      rw [hu]
      refine ⟨?_, rfl, rel_budget_refl _, rel_waited_refl _⟩
      rw [World.record_sent, hsent]
      exact List.append_nil _
    have hlost : (requestMeter c).lost t := by
      show c.env.runtimeFailure t.moment ≠ none
      rw [hfail]
      simp
    exact trans_of _ (.of_lost h hlost) (.of_quiet hquiet)

/-- Apply the limits, then make the request on a runtime of its own. -/
def sendOnce (operation : String) (fut : Fut α) : Client α where
  run c := do
    applyRateLimit c operation
    mapErr (fun e => .text s!"runtime error: {e.display}") (rtBlockOn c operation fut)
  respects c := by
    refine Respects.of_triple fun s => ?_
    refine ((applyRateLimit_triple c operation s).with_run.post (fun _ _ h => h) fun e t h =>
      Meter.Reaches.of_quiet h.quiet).bind fun _ => ?_
    rintro t ⟨hrun, hadmitted, -⟩
    refine Triple.ends_of_last (reaches_of_granted operation fut ⟨hadmitted, operation, hrun⟩ ?_)
    rw [mapErr_snd, rtBlockOn_snd]

end BlockchainOps.Algo
