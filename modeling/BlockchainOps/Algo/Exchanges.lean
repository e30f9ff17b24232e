import BlockchainOps.Algo.Attempts
import BlockchainOps.Lib.Rounds

/-!
# The exchanges of a call

What the run of a call leaves behind, request by request. Every attempt is at the request of the
call. Where the call returns, its last attempt was answered with the value it returns, at a moment
of the run (`Answer`); otherwise no attempt was answered, and the call was given up or its thread
never wakes up (`callWithRetry_ends`).
-/

namespace BlockchainOps.Algo

open Effect Proc

variable {α : Type} {c : Session} {kind : CallKind} {operation : String} {s t : World}

/-! ## Waiting for the limits -/

/-- What the limits may do: time passes, and the thread may never wake up. -/
structure Waits (s : World) (o : Outcome Error α) (t : World) : Prop where
  moment : s.moment ≤ t.moment
  stop : ∀ w, o = .stop w → w = .fuel

theorem takeToken_waits (c : Session) (operation : String) (s : World) :
    Waits s (takeToken c operation s).1 (takeToken c operation s).2 := by
  apply loop_ends (I := fun (_ : Unit) t => s.moment ≤ t.moment) (Q := Waits s)
  · intro _ t ht
    rcases hl : t.rateLimiter with _ | l
    · rw [pollOnce_of_none c operation hl]
      exact .done ⟨ht, fun w h => by simp at h⟩
    · rw [pollOnce_of_some c operation hl]
      have hnext : s.moment ≤ t.moment + 1 := by omega
      dsimp only
      split_ifs
      · exact .done ⟨hnext, fun w h => by simp at h⟩
      · have hrefused : s.moment ≤ t.moment + 1 + 1 := by omega
        exact .err ⟨hrefused, fun w h => by simp at h⟩
      · exact .next hnext
  · intro _ t ht
    refine ⟨ht, ?_⟩
    intro w hw
    cases hw
    rfl
  · exact le_refl _

theorem takeToken_charge_waits (c : Session) (operation : String) (now : Option ℕ) (s : World) :
    Waits s ((do takeToken c operation; charge now) s).1
      ((do takeToken c operation; charge now) s).2 := by
  have hwaits := takeToken_waits c operation s
  rw [bind_apply]
  rcases hrun : takeToken c operation s with ⟨_ | e | w, t⟩ <;> rw [hrun] at hwaits
  · exact ⟨hwaits.moment, fun w h => by simp [charge] at h⟩
  · exact ⟨hwaits.moment, fun w h => by simp at h⟩
  · exact ⟨hwaits.moment, fun w' h => hwaits.stop w' (by simpa using h)⟩

theorem applyRateLimit_waits (c : Session) (operation : String) (s : World) :
    Waits s (applyRateLimit c operation s).1 (applyRateLimit c operation s).2 := by
  rcases hb : s.dailyBudget with _ | b
  · rw [applyRateLimit_of_none c operation hb]
    exact takeToken_charge_waits c operation none s
  · rw [applyRateLimit_of_some c operation hb]
    have hchecked : (s.checked b (c.env.unixSecs s.moment)).moment = s.moment + 1 := rfl
    cases (b.check (c.env.unixSecs s.moment)).1 with
    | ok _ =>
      have hwaits := takeToken_charge_waits c operation (some (c.env.unixSecs s.moment))
        (s.checked b (c.env.unixSecs s.moment))
      refine ⟨le_trans ?_ hwaits.moment, hwaits.stop⟩
      omega
    | error wait =>
      have hmoment : s.moment ≤ s.moment + 1 + 1 := by omega
      exact ⟨hmoment, fun w h => by simp [refuse] at h⟩

/-! ## One attempt -/

/-- The node answered, and well. -/
def Event.answered : Event → Bool
  | .exchange _ .ok => true
  | .refused _ | .unsent _ | .exchange _ _ => false

/-- An attempt at a request that was not answered. -/
structure Event.Lost (request : Request) (e : Event) : Prop where
  sent : ∀ r, e.sent = some r → r = request
  answered : e.answered = false

/-- A request of a call was settled with this result, at a moment between two worlds. -/
structure Settles (call : NodeCall α) (s : World) (r : Except NodeError α) (t : World) : Prop where
  settled : ∃ after, call.settle (t.moment - 1) = .done after r
  moment : s.moment < t.moment

/-- An attempt that was not answered and is not to be retried. -/
structure Event.Final (kind : CallKind) (request : Request) (e : Event) : Prop
    extends e.Lost request where
  retryable : e.retryable kind = false

/-- What an attempt ends in, and what is noted of it. -/
def BlockEnds (kind : CallKind) (call : NodeCall α) (moment : ℕ) :
    Outcome Error (Except NodeError α) × Event → Prop
  | (.ok r, e) => e = .exchange call.request (replyOf r) ∧
      ∃ after, call.settle moment = .done after r
  | (_, e) => e.Final kind call.request

theorem final_exchange {request : Request} {reply : Reply}
    (hanswered : (Event.exchange request reply).answered = false)
    (hretryable : (Event.exchange request reply).retryable kind = false) :
    (Event.exchange request reply).Final kind request where
  sent := fun _ h => (Option.some.inj h).symm
  answered := hanswered
  retryable := hretryable

theorem block_ends {call : NodeCall α} (hreply : call.reply = replyOf) (c : Session)
    (kind : CallKind) (operation : String) (moment : ℕ) :
    BlockEnds kind call moment (c.block operation call moment) := by
  unfold Session.block
  rcases c.env.runtimeFailure moment with _ | e
  · rcases hsettle : call.settle moment with ⟨after, r⟩ | _ | _ <;> rcases c.ops.timeout with _ | limit
    case done.none => exact ⟨congrArg _ (congrFun hreply r), after, hsettle⟩
    case done.some =>
      dsimp only
      split_ifs
      · exact ⟨congrArg _ (congrFun hreply r), after, hsettle⟩
      · exact final_exchange rfl rfl
    all_goals exact final_exchange rfl rfl
  · exact ⟨⟨fun _ h => by simp [Event.sent] at h, rfl⟩, rfl⟩

/-- How one attempt ends. -/
def AttemptEnds (kind : CallKind) (call : NodeCall α) (s : World) :
    Outcome Error (Except NodeError α) → World → Prop
  | .ok r, t => t.log = s.log ++ [.exchange call.request (replyOf r)] ∧ Settles call s r t
  | .err _, t => s.moment ≤ t.moment ∧
      ∃ last, t.log = s.log ++ [last] ∧ last.Final kind call.request
  | .stop w, t => s.moment ≤ t.moment ∧ ((t.log = s.log ∧ w = .fuel) ∨
      ∃ last, t.log = s.log ++ [last] ∧ last.Final kind call.request)

/-- An attempt may be preceded by a wait that is not noted. -/
theorem AttemptEnds.after {call : NodeCall α} {u : World} {o : Outcome Error (Except NodeError α)}
    (h : AttemptEnds kind call t o u) (hlog : t.log = s.log) (hmoment : s.moment ≤ t.moment) :
    AttemptEnds kind call s o u := by
  unfold AttemptEnds at h ⊢
  rw [hlog] at h
  cases o with
  | ok r => exact ⟨h.1, h.2.settled, lt_of_le_of_lt hmoment h.2.moment⟩
  | err e => exact ⟨le_trans hmoment h.1, h.2⟩
  | stop w => exact ⟨le_trans hmoment h.1, h.2⟩

theorem rtBlockOn_ends {call : NodeCall α} (hreply : call.reply = replyOf) (c : Session)
    (kind : CallKind) (operation : String) (f : Error → Error) (s : World) :
    AttemptEnds kind call s (mapErr f (rtBlockOn c operation call) s).1
      (mapErr f (rtBlockOn c operation call) s).2 := by
  have hends := block_ends hreply c kind operation s.moment
  have hnext : s.moment ≤ s.moment + 1 := by omega
  rw [mapErr_apply]
  unfold rtBlockOn
  rcases hblock : c.block operation call s.moment with ⟨r | e | w, event⟩ <;> rw [hblock] at hends
  · obtain ⟨rfl, hsettled⟩ := hends
    exact ⟨rfl, hsettled, Nat.lt_succ_self _⟩
  · exact ⟨hnext, event, rfl, hends⟩
  · -- inside a runtime a panic is an error
    cases w with
    | panic =>
      cases c.env.inRuntime with
      | true => exact ⟨hnext, event, rfl, hends⟩
      | false => exact ⟨hnext, Or.inr ⟨event, rfl, hends⟩⟩
    | crash => exact ⟨hnext, Or.inr ⟨event, rfl, hends⟩⟩
    | fuel => exact ⟨hnext, Or.inr ⟨event, rfl, hends⟩⟩

/-- A refused request is noted as one that was not answered. -/
theorem NotAdmitted.final {e : Error} (h : NotAdmitted operation s t (some e)) (request : Request) :
    ∃ last, t.log = s.log ++ [last] ∧ last.Final kind request := by
  obtain ⟨a, -, -, hlog⟩ := h.log
  exact ⟨.refused a, hlog, ⟨fun _ h => by simp [Event.sent] at h, rfl⟩, rfl⟩

theorem sendOnce_ends {call : NodeCall α} (hreply : call.reply = replyOf) (c : Session)
    (kind : CallKind) (operation : String) (s : World) :
    AttemptEnds kind call s ((sendOnce operation call).run c s).1
      ((sendOnce operation call).run c s).2 := by
  have hwaits := applyRateLimit_waits c operation s
  have hlimits := applyRateLimit_triple c operation s s rfl
  show AttemptEnds kind call s ((applyRateLimit c operation >>= fun _ => _) s).1
    ((applyRateLimit c operation >>= fun _ => _) s).2
  rw [bind_apply]
  rcases hrun : applyRateLimit c operation s with ⟨_ | e | w, t⟩ <;> rw [hrun] at hwaits hlimits
  · exact (rtBlockOn_ends hreply c kind operation _ t).after hlimits.2 hwaits.moment
  · have hrefused : NotAdmitted operation s t (some e) := hlimits
    exact ⟨hwaits.moment, hrefused.final call.request⟩
  · have hstarved : NotAdmitted operation s t none := hlimits
    exact ⟨hwaits.moment, Or.inl ⟨hstarved.log, hwaits.stop w rfl⟩⟩

/-! ## Calls -/

/-- All calls were answered: each attempt was, or is to be retried, and no call used up its
retries. -/
structure CallsAnswered (kind : CallKind) (events : List Event) : Prop where
  answered : ∀ e ∈ events, e.answered = true ∨ e.retryable kind = true
  retried : ∀ run, run <:+: events → (∀ e ∈ run, e.retryable kind = true) → run.length ≤ maxRetries

theorem CallsAnswered.part {inner events : List Event} (h : CallsAnswered kind events)
    (hinner : inner <:+: events) : CallsAnswered kind inner where
  answered := fun e he => h.answered e (hinner.subset he)
  retried := fun run hrun => h.retried run (hrun.trans hinner)

/-- Where nothing is retried it is enough that each attempt was answered. -/
theorem CallsAnswered.of_answered {events : List Event} (h : ∀ e ∈ events, e.answered = true) :
    CallsAnswered kind events where
  answered := fun e he => Or.inl (h e he)
  retried := by
    intro run hrun hretryable
    cases run with
    | nil => exact Nat.zero_le _
    | cons e run =>
      have hanswered := h e (hrun.subset List.mem_cons_self)
      have hretry := hretryable e List.mem_cons_self
      rcases e with a | text | ⟨request, _ | _ | _ | _ | _⟩ <;>
        simp [Event.answered, Event.retryable] at hanswered hretry

theorem not_callsAnswered_of_final {events : List Event} {last : Event} {request : Request}
    (h : last.Final kind request) : ¬ CallsAnswered kind (events ++ [last]) := by
  intro hanswered
  rcases hanswered.answered last (by simp) with hok | hretry
  · rw [h.answered] at hok
    exact absurd hok (by simp)
  · rw [h.retryable] at hretry
    exact absurd hretry (by simp)

theorem Exhausted.not_callsAnswered {events : List Event} (h : Exhausted kind events) :
    ¬ CallsAnswered kind events := by
  intro hanswered
  obtain ⟨tail, hsuffix, hlength, hretryable⟩ := h
  have hle := hanswered.retried tail hsuffix.isInfix hretryable
  omega

/-- The attempts of a call, one more of which was not answered. -/
theorem lost_concat {events : List Event} {last : Event} {request : Request}
    (h : ∀ e ∈ events, e.Lost request) (hlast : last.Lost request) :
    ∀ e ∈ events ++ [last], e.Lost request := by
  intro e he
  rcases List.mem_append.mp he with hmem | hmem
  · exact h e hmem
  · rw [List.mem_singleton.mp hmem]
    exact hlast

/-- How a call ends that makes these attempts. -/
def CallEnds (kind : CallKind) (call : NodeCall α) (events : List Event) (s : World) :
    Outcome Error α → World → Prop
  | .ok a, t => (∃ retried, events = retried ++ [.exchange call.request .ok] ∧
      ∀ e ∈ retried, e.Lost call.request) ∧ Settles call s (.ok a) t
  | .err _, t => (∀ e ∈ events, e.Lost call.request) ∧ ¬ CallsAnswered kind events ∧
      s.moment ≤ t.moment
  | .stop w, t => (∀ e ∈ events, e.Lost call.request) ∧ (w = .fuel ∨ ¬ CallsAnswered kind events) ∧
      s.moment ≤ t.moment

/-- Every attempt of a call is at its request; it returns what the last one was answered, or is
given up with none answered. -/
theorem callWithRetry_ends {call : NodeCall α} (hreply : call.reply = replyOf) (c : Session)
    (kind : CallKind) (s : World) :
    ∃ events, ((callWithRetry kind call).run c s).2.log = s.log ++ events ∧
      CallEnds kind call events s ((callWithRetry kind call).run c s).1
        ((callWithRetry kind call).run c s).2 := by
  apply loop_ends
    (I := fun attempt t => ∃ events, t.log = s.log ++ events ∧ Retrying kind attempt events ∧
      (∀ e ∈ events, e.Lost call.request) ∧ s.moment ≤ t.moment)
    (Q := fun o t => ∃ events, t.log = s.log ++ events ∧ CallEnds kind call events s o t)
  · rintro attempt t ⟨events, hlog, hretrying, hlost, hmoment⟩
    have hends := sendOnce_ends hreply c kind kind.operation t
    show RoundEnds _ _ (((sendOnce kind.operation call).run c >>= fun _ => _) t)
    rw [bind_apply]
    rcases hrun : (sendOnce kind.operation call).run c t with ⟨r | e | w, u⟩ <;> rw [hrun] at hends
    · obtain ⟨hnoted, hsettles⟩ := hends
      have hsince : u.log = s.log ++ (events ++ [.exchange call.request (replyOf r)]) := by
        rw [hnoted, hlog, List.append_assoc]
      have hlater : s.moment < u.moment := lt_of_le_of_lt hmoment hsettles.moment
      cases r with
      | ok a => exact .done ⟨_, hsince, ⟨events, rfl, hlost⟩, hsettles.settled, hlater⟩
      | error e =>
        have hlast : (Event.exchange call.request (.failed e)).Lost call.request :=
          ⟨fun _ h => (Option.some.inj h).symm, rfl⟩
        have hall := lost_concat hlost hlast
        dsimp only
        split_ifs with hretry
        · exact .next ⟨_, hsince, hretrying.concat hretry.1 hretry.2, hall, hlater.le⟩
        · refine .err ⟨_, hsince, hall, ?_, hlater.le⟩
          by_cases hretryable : isRetryableFor kind e = true
          · have hretried : (Event.exchange call.request (.failed e)).retryable kind = true :=
              hretryable
            apply (hretrying.exhausted hretried _).not_callsAnswered
            by_contra hlt
            exact hretry ⟨by omega, hretryable⟩
          · have hfinal : (Event.exchange call.request (.failed e)).Final kind call.request :=
              ⟨hlast, by simpa [Event.retryable] using hretryable⟩
            exact not_callsAnswered_of_final hfinal
    · obtain ⟨hlater, last, hnoted, hfinal⟩ := hends
      have hsince : u.log = s.log ++ (events ++ [last]) := by
        rw [hnoted, hlog, List.append_assoc]
      exact .err ⟨_, hsince, lost_concat hlost hfinal.toLost, not_callsAnswered_of_final hfinal,
        le_trans hmoment hlater⟩
    · obtain ⟨hlater, ⟨hsame, hfuel⟩ | ⟨last, hnoted, hfinal⟩⟩ := hends
      · exact .stop ⟨events, hsame.trans hlog, hlost, Or.inl hfuel, le_trans hmoment hlater⟩
      · have hsince : u.log = s.log ++ (events ++ [last]) := by
          rw [hnoted, hlog, List.append_assoc]
        exact .stop ⟨_, hsince, lost_concat hlost hfinal.toLost,
          Or.inr (not_callsAnswered_of_final hfinal), le_trans hmoment hlater⟩
  · rintro attempt t ⟨events, hlog, hretrying, hlost, hmoment⟩
    exact ⟨events, hlog, hlost, Or.inl rfl, hmoment⟩
  · exact ⟨[], (List.append_nil _).symm, ⟨rfl, Nat.zero_le _, by simp⟩, by simp, le_refl _⟩

theorem algodCall_ends (call : NodeCall α) (hreply : call.reply = replyOf) (c : Session)
    (s : World) :
    ∃ events, ((algodCall call).run c s).2.log = s.log ++ events ∧
      CallEnds .algod call events s ((algodCall call).run c s).1 ((algodCall call).run c s).2 :=
  callWithRetry_ends hreply c .algod s

/-- A call whose error is rewritten ends as the call does. -/
theorem context_ends (call : NodeCall α) (hreply : call.reply = replyOf) (c : Session)
    (what : String) (s : World) :
    ∃ events, ((context what (algodCall call)).run c s).2.log = s.log ++ events ∧
      CallEnds .algod call events s ((context what (algodCall call)).run c s).1
        ((context what (algodCall call)).run c s).2 := by
  have hends := algodCall_ends call hreply c s
  show ∃ events, (mapErr _ ((algodCall call).run c) s).2.log = _ ∧
    CallEnds .algod call events s (mapErr _ ((algodCall call).run c) s).1
      (mapErr _ ((algodCall call).run c) s).2
  rw [mapErr_apply]
  rcases hrun : (algodCall call).run c s with ⟨a | e | w, t⟩ <;> rw [hrun] at hends <;> exact hends

/-- A call that returns returns what the node answered last. -/
theorem algodCall_ok {call : NodeCall α} (hreply : call.reply = replyOf) {a : α}
    (h : (algodCall call).run c s = (.ok a, t)) : Settles call s (.ok a) t := by
  obtain ⟨events, -, hends⟩ := algodCall_ends call hreply c s
  rw [h] at hends
  exact hends.2

theorem context_ok {call : NodeCall α} (hreply : call.reply = replyOf) {what : String} {a : α}
    (h : (context what (algodCall call)).run c s = (.ok a, t)) : Settles call s (.ok a) t := by
  obtain ⟨events, -, hends⟩ := context_ends call hreply c what s
  rw [h] at hends
  exact hends.2

/-- Every attempt of a call that is sent is its request. -/
theorem CallEnds.request {call : NodeCall α} {events : List Event} {o : Outcome Error α}
    (h : CallEnds kind call events s o t) :
    ∀ e ∈ events, ∀ r, e.sent = some r → r = call.request := by
  intro e he r hr
  cases o with
  | ok a =>
    obtain ⟨⟨retried, rfl, hlost⟩, -⟩ := h
    rcases List.mem_append.mp he with hmem | hlast
    · exact (hlost e hmem).sent r hr
    · rw [List.mem_singleton.mp hlast] at hr
      exact (Option.some.inj hr).symm
  | err e' => exact (h.1 e he).sent r hr
  | stop w => exact (h.1 e he).sent r hr

/-- Time passes during a call. -/
theorem CallEnds.moment {call : NodeCall α} {events : List Event} {o : Outcome Error α}
    (h : CallEnds kind call events s o t) : s.moment ≤ t.moment := by
  cases o with
  | ok a => exact h.2.moment.le
  | err e => exact h.2.2
  | stop w => exact h.2.2

/-- A request is answered at most once in a call, and only in one that makes it. -/
theorem CallEnds.count_le {call : NodeCall α} {events : List Event} {o : Outcome Error α}
    (h : CallEnds kind call events s o t) (request : Request) :
    events.count (.exchange request .ok) ≤ if request = call.request then 1 else 0 := by
  have hlost : ∀ lost : List Event, (∀ e ∈ lost, e.Lost call.request) →
      lost.count (.exchange request .ok) = 0 := by
    intro lost hall
    apply List.count_eq_zero.mpr
    intro hmem
    exact absurd (hall _ hmem).answered (by simp [Event.answered])
  cases o with
  | ok a =>
    obtain ⟨⟨retried, rfl, hall⟩, -⟩ := h
    rw [List.count_append, hlost retried hall, List.count_singleton]
    split_ifs with heq hrequest hrequest
    · exact le_refl _
    · exfalso
      apply hrequest
      have hsame : Event.exchange call.request .ok = .exchange request .ok := by simpa using heq
      cases hsame
      rfl
    · omega
    · exact le_refl _
  | err e => rw [hlost events h.1]; omega
  | stop w => rw [hlost events h.1]; omega

theorem CallEnds.count_eq_zero {call : NodeCall α} {events : List Event} {o : Outcome Error α}
    (h : CallEnds kind call events s o t) {request : Request} (hother : request ≠ call.request) :
    events.count (.exchange request .ok) = 0 := by
  have hle := h.count_le request
  rw [if_neg hother] at hle
  exact Nat.le_zero.mp hle

end BlockchainOps.Algo
