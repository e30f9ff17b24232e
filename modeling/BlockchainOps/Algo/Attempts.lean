import BlockchainOps.Algo.Client

/-!
# The last attempt of a call

`report` is the error that a call returns when a given attempt was its last one. `Answers` says of a
program that makes calls of one kind that an error it returns is the report of its last attempt, up
to a rewriting `f`, and otherwise a text of its own. It holds of a call (`callWithRetry_answers`) and
is kept by every way to put programs together.
-/

namespace BlockchainOps.Algo

open Effect Proc

variable {α β γ : Type} {c : Session} {kind : CallKind} {f : Error → Error}

/-! ## Attempts -/

/-- The node answered, with whatever status. -/
def Reply.served : Reply → Bool
  | .ok => true
  | .failed e => e.failure ≠ .transport
  | .timedOut _ | .unsettled | .panicked => false

def Event.served : Event → Bool
  | .exchange _ reply => reply.served
  | .refused _ | .unsent _ => false

/-- The attempts made between two moments. -/
def attempts (s t : World) : List Event := t.log.drop s.log.length

theorem attempts_of_log {s t : World} {events : List Event} (h : t.log = s.log ++ events) :
    attempts s t = events := by
  unfold attempts
  rw [h, List.drop_left]

/-- The error of a call that ends with this attempt. A panic is one where it is caught. -/
def CallKind.report (c : Session) (kind : CallKind) : Event → Option Error
  | .refused e => some (.typed e)
  | .unsent e => some (.text s!"runtime error: failed to build tokio runtime: {e}")
  | .exchange _ .ok => none
  | .exchange _ (.failed e) => some (giveUp kind maxRetries e)
  | .exchange _ (.timedOut limit) =>
    some (.text s!"runtime error: {kind.operation} exceeded timeout of {limit.debug}")
  | .exchange _ .unsettled => none
  | .exchange _ .panicked =>
    if c.env.inRuntime then some (.text "runtime error: rt_block_on thread panicked") else none

/-- A call ends with this attempt, and returns its report. -/
structure CallKind.Reports (c : Session) (kind : CallKind) (last : Event) (e : Error) : Prop where
  report : kind.report c last = some e
  refusal : ∀ a, last = .refused a → Refusal kind.operation a

/-- The attempt is one to be retried. -/
def Event.retryable (kind : CallKind) : Event → Bool
  | .exchange _ (.failed e) => isRetryableFor kind e
  | .refused _ | .unsent _ | .exchange _ _ => false

/-- The last attempts used up the retries of a call. -/
def Exhausted (kind : CallKind) (events : List Event) : Prop :=
  ∃ tail, tail <:+ events ∧ tail.length = maxRetries + 1 ∧
    ∀ event ∈ tail, event.retryable kind = true

/-- A call gave up with its last attempt, and its error was rewritten. -/
structure GaveUp (c : Session) (kind : CallKind) (f : Error → Error) (events : List Event)
    (last : Event) (report e : Error) : Prop where
  ends : events.getLast? = some last
  reports : kind.Reports c last report
  error : e = f report
  exhausted : last.retryable kind = true → Exhausted kind events

/-- How a run that makes these attempts may end. An error is that of a call that gave up, or a
text. A thread may also never return, after an answer or while it waits for one. -/
def EndsWith (c : Session) (kind : CallKind) (f : Error → Error) (events : List Event) :
    Outcome Error α → Prop
  | .ok _ => events.getLast? >>= kind.report c = none
  | .err e => (∃ last report, GaveUp c kind f events last report e) ∨
    (events.getLast? >>= kind.report c = none ∧ ∃ msg, e = .text msg)
  | .stop _ => ∀ last, events.getLast? = some last → last.served = true ∨ kind.report c last = none

/-- Every run of the program logs its attempts, and returns what the last one calls for. -/
def Answers (c : Session) (kind : CallKind) (f : Error → Error) (x : Proc World Error α) : Prop :=
  ∀ s, ∃ events, (x s).2.log = s.log ++ events ∧ EndsWith c kind f events (x s).1

theorem Exhausted.append {events : List Event} (h : Exhausted kind events) (earlier : List Event) :
    Exhausted kind (earlier ++ events) := by
  obtain ⟨tail, hsuffix, hlength, hretryable⟩ := h
  exact ⟨tail, hsuffix.trans (List.suffix_append _ _), hlength, hretryable⟩

/-- Earlier attempts do not matter once there are others. -/
theorem EndsWith.append {events : List Event} {o : Outcome Error α} (h : EndsWith c kind f events o)
    (hne : events ≠ []) (earlier : List Event) : EndsWith c kind f (earlier ++ events) o := by
  have hlast : (earlier ++ events).getLast? = events.getLast? :=
    List.getLast?_append_of_ne_nil earlier hne
  cases o with
  | ok a =>
    show (earlier ++ events).getLast? >>= _ = none
    rw [hlast]
    exact h
  | err e =>
    rcases h with ⟨last, report, hgave⟩ | ⟨hnone, htext⟩
    · refine Or.inl ⟨last, report, hlast.trans hgave.ends, hgave.reports, hgave.error, ?_⟩
      intro hretryable
      exact (hgave.exhausted hretryable).append earlier
    · exact Or.inr ⟨by rw [hlast]; exact hnone, htext⟩
  | stop w =>
    intro last h'
    rw [hlast] at h'
    exact h last h'

/-- A part that makes no attempt may still return a text of its own. -/
theorem Answers.of_log {x : Proc World Error α} (hlog : ∀ s, (x s).2.log = s.log)
    (herr : ∀ s e, (x s).1 = .err e → ∃ msg, e = .text msg) : Answers c kind f x := by
  intro s
  refine ⟨[], by rw [hlog, List.append_nil], ?_⟩
  rcases hx : (x s).1 with a | e | w
  · rfl
  · exact Or.inr ⟨rfl, herr s e hx⟩
  · intro last h
    simp at h

/-- The attempts of the second part decide, if there are any. -/
theorem Answers.bind {x : Proc World Error α} {g : α → Proc World Error β}
    (hx : Answers c kind f x) (hg : ∀ a, Answers c kind f (g a)) : Answers c kind f (x >>= g) := by
  intro s
  obtain ⟨events, hlog, hends⟩ := hx s
  rw [bind_apply]
  rcases hrun : x s with ⟨a | e | w, t⟩
  · rw [hrun] at hlog hends
    obtain ⟨events', hlog', hends'⟩ := hg a t
    refine ⟨events ++ events', ?_, ?_⟩
    · show (g a t).2.log = _
      rw [hlog', hlog, List.append_assoc]
    · show EndsWith c kind f (events ++ events') (g a t).1
      by_cases hnil : events' = []
      · have hnone : events.getLast? >>= kind.report c = none := hends
        rw [hnil] at hends' ⊢
        rw [List.append_nil]
        rcases hga : (g a t).1 with b | e | w
        · exact hnone
        · rw [hga] at hends'
          rcases hends' with ⟨last, report, hgave⟩ | ⟨-, htext⟩
          · exact absurd hgave.ends (by simp)
          · exact Or.inr ⟨hnone, htext⟩
        · intro last hlast
          rw [hlast] at hnone
          exact Or.inr hnone
      · exact hends'.append hnil events
  · rw [hrun] at hlog hends
    exact ⟨events, hlog, hends⟩
  · rw [hrun] at hlog hends
    exact ⟨events, hlog, hends⟩

/-! ## One attempt -/

/-- How one request may end that leaves this note. -/
def SentWith (c : Session) (kind : CallKind) (event : Event) :
    Outcome Error (Except NodeError α) → Prop
  | .ok r => ∃ request, event = .exchange request (replyOf r)
  | .err e => kind.Reports c event e ∧ event.retryable kind = false
  | .stop _ => kind.report c event = none

variable {call : NodeCall α}

/-- A request that settled is noted with the reply it got. -/
theorem sentWith_settled (hreply : call.reply = replyOf) (value : Except NodeError α) :
    SentWith c kind (.exchange call.request (call.reply value)) (.ok value) := by
  rw [hreply]
  exact ⟨call.request, rfl⟩

theorem rtBlockOn_sentWith (hreply : call.reply = replyOf) (w : World) :
    SentWith c kind (c.block kind.operation call w.moment).2
      (mapErr (fun e => .text s!"runtime error: {e.display}")
        (rtBlockOn c kind.operation call) w).1 := by
  rw [mapErr_apply]
  unfold rtBlockOn Session.block
  rcases c.env.runtimeFailure w.moment with _ | e
  · rcases call.settle w.moment with ⟨after, value⟩ | _ | _ <;> rcases c.ops.timeout with _ | limit
    case done.none => exact sentWith_settled hreply value
    case done.some =>
      dsimp only
      split_ifs
      · exact sentWith_settled hreply value
      · exact ⟨⟨rfl, by simp⟩, rfl⟩
    case never.none => rfl
    case never.some => exact ⟨⟨rfl, by simp⟩, rfl⟩
    -- whether a panic is caught depends on where the future ran
    all_goals
      rcases hin : c.env.inRuntime with _ | _
      · show (if c.env.inRuntime then some _ else none) = none
        rw [hin]; rfl
      · have hreport : (if c.env.inRuntime then
            some (Error.text "runtime error: rt_block_on thread panicked") else none)
            = some (.text "runtime error: rt_block_on thread panicked") := if_pos hin
        exact ⟨⟨hreport, by simp⟩, rfl⟩
  · exact ⟨⟨rfl, by simp⟩, rfl⟩

/-- One attempt is noted, unless the thread never wakes up before it. -/
theorem sendOnce_triple (hreply : call.reply = replyOf) (s : World) :
    Triple (fun t => t = s) ((sendOnce kind.operation call).run c)
      (fun r t => ∃ request, t.log = s.log ++ [.exchange request (replyOf r)])
      (fun e t => match e with
        | some e => ∃ last, t.log = s.log ++ [last] ∧ kind.Reports c last e ∧
          last.retryable kind = false
        | none => t.log = s.log ∨ ∃ last, t.log = s.log ++ [last] ∧ kind.report c last = none) := by
  refine ((applyRateLimit_triple c kind.operation s).post (fun _ _ h => h) fun e t h => ?_).bind
    fun _ => ?_
  · cases e with
    | none => exact Or.inl h.log
    | some e =>
      obtain ⟨a, he, hrefusal, hlog⟩ := h.log
      refine ⟨.refused a, hlog, ⟨congrArg some he.symm, fun a' ha' => ?_⟩, rfl⟩
      rw [← Event.refused.inj ha']
      exact hrefusal
  · rintro t ⟨-, hlog⟩
    have hsent : SentWith c kind _ _ := rtBlockOn_sentWith hreply t
    have hsnd := mapErr_snd (fun e : Error => Error.text s!"runtime error: {e.display}")
      (rtBlockOn c kind.operation call) t
    rw [rtBlockOn_snd] at hsnd
    set last := (c.block kind.operation call t.moment).2
    generalize mapErr (fun e : Error => Error.text s!"runtime error: {e.display}")
      (rtBlockOn c kind.operation call) t = run at hsent hsnd ⊢
    rcases run with ⟨o, u⟩
    have hu : u.log = s.log ++ [last] := by
      have hrecord : u = t.record last := hsnd
      rw [hrecord, World.record_log, hlog]
    cases o with
    | ok r =>
      obtain ⟨request, hlast⟩ := hsent
      exact ⟨request, by rw [← hlast]; exact hu⟩
    | err e => exact ⟨last, hu, hsent⟩
    | stop w => exact Or.inr ⟨last, hu, hsent⟩

/-! ## Calls -/

/-- The attempts made since `s` are as `p` says. -/
def World.Since (s : World) (p : List Event → Prop) (t : World) : Prop :=
  ∃ events, t.log = s.log ++ events ∧ p events

/-- A round of the retry loop that does not retry gives up with the report of its attempt. -/
theorem giveUp_of_not_retried {attempt : ℕ} {e : NodeError}
    (h : ¬ (attempt < maxRetries ∧ isRetryableFor kind e = true)) :
    giveUp kind attempt e = giveUp kind maxRetries e := by
  unfold giveUp
  by_cases hretryable : isRetryableFor kind e = true
  · have hle : maxRetries ≤ attempt := by
      by_contra hlt
      exact h ⟨by omega, hretryable⟩
    rw [if_pos ⟨hle, hretryable⟩, if_pos ⟨le_refl _, hretryable⟩]
  · rw [if_neg (fun h => hretryable h.2), if_neg (fun h => hretryable h.2)]

theorem Event.served_of_retryable {event : Event} (h : event.retryable kind = true) :
    event.served = true := by
  rcases event with a | text | ⟨request, _ | e | limit | _ | _⟩
  case exchange.failed =>
    have hretryable : isRetryableFor kind e = true := h
    unfold isRetryableFor NodeError.httpStatus at hretryable
    show decide (e.failure ≠ .transport) = true
    cases hfailure : e.failure with
    | http status => rfl
    | undecoded => rfl
    | transport => simp [hfailure] at hretryable
  all_goals exact absurd h (by simp [Event.retryable])

/-- The attempts of a call that is still retrying. -/
structure Retrying (kind : CallKind) (attempt : ℕ) (events : List Event) : Prop where
  length : events.length = attempt
  le : attempt ≤ maxRetries
  retryable : ∀ event ∈ events, event.retryable kind = true

theorem Retrying.served {attempt : ℕ} {events : List Event} (h : Retrying kind attempt events) :
    ∀ last, events.getLast? = some last → last.served = true := by
  intro last hlast
  exact Event.served_of_retryable (h.retryable last (List.mem_of_getLast? hlast))

/-- The call retries after a failure that is to be retried. -/
theorem Retrying.concat {attempt : ℕ} {events : List Event} (h : Retrying kind attempt events)
    (hlt : attempt < maxRetries) {event : Event} (hevent : event.retryable kind = true) :
    Retrying kind (attempt + 1) (events ++ [event]) where
  length := by
    rw [List.length_append, h.length]
    rfl
  le := hlt
  retryable := by
    intro e he
    rcases List.mem_append.mp he with hmem | hlast
    · exact h.retryable e hmem
    · rw [List.mem_singleton.mp hlast]
      exact hevent

/-- The call has no retries left after a failure that is to be retried, or it would retry. -/
theorem Retrying.exhausted {attempt : ℕ} {events : List Event} (h : Retrying kind attempt events)
    {event : Event} (hevent : event.retryable kind = true) (hle : maxRetries ≤ attempt) :
    Exhausted kind (events ++ [event]) := by
  refine ⟨events ++ [event], List.suffix_rfl, ?_, ?_⟩
  · have hlength := h.length
    have hattempt := h.le
    rw [List.length_append, List.length_singleton]
    omega
  · intro e he
    rcases List.mem_append.mp he with hmem | hlast
    · exact h.retryable e hmem
    · rw [List.mem_singleton.mp hlast]
      exact hevent

/-- A call returns what its last attempt was answered, or gives up with the report of it. -/
theorem callWithRetry_triple (hreply : call.reply = replyOf) (s : World) :
    Triple (fun t => t = s) ((callWithRetry kind call).run c)
      (fun _ => s.Since fun events => ∃ request, events.getLast? = some (.exchange request .ok))
      (fun e => s.Since fun events => match e with
        | some e => ∃ last, GaveUp c kind id events last e e
        | none => ∀ last, events.getLast? = some last →
          last.served = true ∨ kind.report c last = none) := by
  show Triple _ (Proc.loop _ _ _) _ _
  refine (Triple.loop (I := fun attempt => s.Since (Retrying kind attempt)) ?_ ?_ _ _).pre ?_
  · rintro attempt t ⟨events, hlog, hretrying⟩
    refine (((sendOnce_triple hreply t).post (fun _ _ h => h) fun e u h => ?_).bind fun r => ?_) t rfl
    · cases e with
      | none =>
        rcases h with hsame | ⟨last, hu, hreport⟩
        · exact ⟨events, hsame.trans hlog, fun last hlast => Or.inl (hretrying.served last hlast)⟩
        · refine ⟨events ++ [last], by rw [hu, hlog, List.append_assoc], fun last' hlast => ?_⟩
          rw [List.getLast?_concat] at hlast
          exact Or.inr (Option.some.inj hlast ▸ hreport)
      | some e =>
        obtain ⟨last, hu, hreports, hretryable⟩ := h
        refine ⟨events ++ [last], by rw [hu, hlog, List.append_assoc], last,
          List.getLast?_concat, hreports, rfl, ?_⟩
        intro h
        exact absurd h (by rw [hretryable]; simp)
    · rintro u ⟨request, hu⟩
      have hsince : u.log = s.log ++ (events ++ [.exchange request (replyOf r)]) := by
        rw [hu, hlog, List.append_assoc]
      cases r with
      | ok a => exact ⟨_, hsince, request, List.getLast?_concat⟩
      | error e =>
        dsimp only
        split_ifs with hretry
        · exact ⟨_, hsince, hretrying.concat hretry.1 hretry.2⟩
        · have hreport : kind.report c (.exchange request (.failed e))
              = some (giveUp kind attempt e) := congrArg some (giveUp_of_not_retried hretry).symm
          refine ⟨_, hsince, _, List.getLast?_concat, ⟨hreport, fun a ha => by simp at ha⟩, rfl, ?_⟩
          intro hretryable
          apply hretrying.exhausted hretryable
          by_contra hlt
          exact hretry ⟨by omega, hretryable⟩
  · rintro attempt t ⟨events, hlog, hretrying⟩
    exact ⟨events, hlog, fun last hlast => Or.inl (hretrying.served last hlast)⟩
  · rintro t rfl
    exact ⟨[], (List.append_nil _).symm, rfl, Nat.zero_le _, by simp⟩

/-- The answers of a call whose error is rewritten. -/
theorem mapErr_callWithRetry_answers (hreply : call.reply = replyOf) (f : Error → Error) :
    Answers c kind f (mapErr f ((callWithRetry kind call).run c)) := by
  intro s
  have hends : Ends _ _ ((callWithRetry kind call).run c s) := callWithRetry_triple hreply s s rfl
  rw [mapErr_apply]
  rcases hrun : (callWithRetry kind call).run c s with ⟨a | e | w, t⟩
  · rw [hrun] at hends
    obtain ⟨events, hlog, request, hlast⟩ := hends
    refine ⟨events, hlog, ?_⟩
    show events.getLast? >>= kind.report c = none
    rw [hlast]
    rfl
  · rw [hrun] at hends
    obtain ⟨events, hlog, last, hgave⟩ := hends
    exact ⟨events, hlog, Or.inl ⟨last, e, hgave.ends, hgave.reports, rfl, hgave.exhausted⟩⟩
  · rw [hrun] at hends
    exact hends

/-! ## Parts that make no attempt -/

/-- A program that makes no attempt, and whose errors are texts. -/
def Local (x : Client α) : Prop :=
  ∀ c (log : List Event), Triple (fun t => t.log = log) (x.run c) (fun _ t => t.log = log)
    (fun e t => t.log = log ∧ ∀ error, e = some error → ∃ msg, error = .text msg)

namespace Local

theorem pure (a : α) : Local (pure a) := fun _ _ => Triple.pure fun _ h => h

theorem bail (message : String) : Local (bail message : Client α) :=
  fun _ _ => Triple.raise fun _ h => ⟨h, fun _ he => ⟨message, (Option.some.inj he).symm⟩⟩

theorem bind {x : Client α} {g : α → Client β} (hx : Local x) (hg : ∀ a, Local (g a)) :
    Local (x >>= g) :=
  fun c log => (hx c log).bind fun a => hg a c log

theorem read (g : Session → World → α) : Local (Confined.read g : Client α) :=
  fun _ log => (Triple.get (Q := fun _ (t : World) => t.log = log) fun _ h => h).bind fun _ =>
    Triple.pure fun _ h => h

theorem orBail (what : String) (r : Except String α) : Local (orBail what r) := by
  cases r with
  | ok a => exact pure a
  | error e => exact bail _

theorem require (message : String) (o : Option α) : Local (require message o) := by
  cases o with
  | some a => exact pure a
  | none => exact bail message

theorem forEach {g : α → Client β} (hg : ∀ a, Local (g a)) (as : List α) :
    Local (Confined.forEach g as) :=
  fun c log => Triple.forEach (I := fun _ (t : World) => t.log = log) (fun a _ => hg a c log) as

theorem answers {x : Client α} (hx : Local x) : Answers c kind f (x.run c) := by
  apply Answers.of_log
  · intro s
    have hends := hx c s.log s rfl
    rcases hrun : x.run c s with ⟨a | e | w, t⟩
    · rw [hrun] at hends; exact hends
    · rw [hrun] at hends; exact hends.1
    · rw [hrun] at hends; exact hends.1
  · intro s e he
    have hends := hx c s.log s rfl
    rcases hrun : x.run c s with ⟨o, t⟩
    rw [hrun] at hends he
    cases he
    exact hends.2 e rfl

end Local

theorem algodClient_local : Local algodClient :=
  (Local.read _).bind fun _ => (Local.read _).bind fun _ => .orBail _ _

theorem indexerClient_local : Local indexerClient :=
  (Local.read _).bind fun _ => (Local.read _).bind fun _ => .orBail _ _

theorem parseAddress_local (address : String) : Local (parseAddress address) :=
  (Local.read _).bind fun _ => .orBail _ _

theorem requireAddress_local : Local requireAddress :=
  ((Local.read _).bind fun _ => .require _ _).bind fun address => parseAddress_local address

/-! ## Programs that make calls of one kind -/

/-- What a program answers in every session. -/
def Answered (kind : CallKind) (f : Error → Error) (x : Client α) : Prop :=
  ∀ c, Answers c kind f (x.run c)

namespace Answered

theorem of_local {x : Client α} (hx : Local x) : Answered kind f x := fun _ => hx.answers

theorem bind {x : Client α} {g : α → Client β} (hx : Answered kind f x)
    (hg : ∀ a, Answered kind f (g a)) : Answered kind f (x >>= g) :=
  fun c => (hx c).bind fun a => hg a c

/-- A guard before the rest of a program. -/
theorem guard {p : Prop} [Decidable p] {message : String} {rest : Unit → Client α}
    (hrest : Answered kind f (rest ())) :
    Answered kind f (if p then bail message >>= rest else rest ()) := by
  split_ifs
  · exact (of_local (Local.bail message)).bind fun _ => hrest
  · exact hrest

/-- The answers of the rounds are those of the loop; it may also run out of rounds. -/
theorem loop {step : γ → Client (γ ⊕ β)} (hstep : ∀ g, Answered kind f (step g))
    (fuel : Session → ℕ) (g : γ) : Answered kind f (Confined.loop step fuel g) := by
  intro c
  show Answers c kind f (Proc.loop _ (fuel c) g)
  generalize fuel c = n
  induction n generalizing g with
  | zero => exact Answers.of_log (fun _ => rfl) fun _ _ h => by simp [Proc.loop] at h
  | succ n ih =>
    apply (hstep g c).bind
    intro r
    cases r with
    | inl g' => exact ih g'
    | inr b => exact (Local.pure b).answers

end Answered

end BlockchainOps.Algo
