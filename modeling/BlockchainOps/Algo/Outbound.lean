import BlockchainOps.Algo.Algonaut
import BlockchainOps.Algo.Handle
import BlockchainOps.Lib.Effect

/-!
# Outbound requests

Every request a client makes is to pass `applyRateLimit`, which asks the daily budget and the
token bucket and charges them, and then runs on a fresh runtime (`rtBlockOn`) under the client's
timeout.

The state is what the clones of a handle share: the bucket, the budget, the request counter and
the cached application creators. It also keeps a log of the attempts to make a request, which no
code reads, and counts the moments at which clocks, nodes and runtimes are asked.
-/

namespace BlockchainOps.Algo

open Effect Proc

/-! ## The `Debug` form of a duration -/

/-- A number with up to `width` decimals, without the zeros at their end. -/
def fmtDecimal (integer fraction width : ℕ) (unit : String) : String :=
  let digits := (List.range width).map fun i =>
    Nat.digitChar (fraction / 10 ^ (width - 1 - i) % 10)
  let shown := (digits.reverse.dropWhile (· = '0')).reverse
  if shown.isEmpty then s!"{integer}{unit}" else s!"{integer}.{String.ofList shown}{unit}"

def Duration.debug (d : Duration) : String :=
  if 1000000000 ≤ d then fmtDecimal (d / 1000000000) (d % 1000000000) 9 "s"
  else if 1000000 ≤ d then fmtDecimal (d / 1000000) (d % 1000000) 6 "ms"
  else if 1000 ≤ d then fmtDecimal (d / 1000) (d % 1000) 3 "µs"
  else fmtDecimal d 0 1 "ns"

example : Duration.debug 1500000000 = "1.5s" := by decide

/-! ## The world of a client -/

/-- An HTTP response of a plain GET: the status and its text, and the body or why it could not
be read. -/
structure HttpResponse where
  status : ℕ
  statusText : String
  body : Except String String

/-- Why a plain GET got no response: whether connecting failed or timed out, and the error. -/
structure SendError where
  unreachable : Bool
  text : String

/-- What is outside the client: other packages, the nodes, the clocks, the runtimes. What can
change over time depends on the moment it is asked at. -/
structure Env where
  keys : KeyPrims
  base64 : Base64
  algonaut : Algonaut
  /-- `Algod::new` and `Indexer::new`, of an URL and a token. -/
  newAlgod : String → String → Except String Algod
  newIndexer : String → String → Except String Indexer
  /-- A plain GET: URL, name and value of the token header. -/
  httpGet : String → String → String → ℕ → Settled (Except SendError HttpResponse)
  /-- `serde_json::from_str`. -/
  parseJson : String → Except String Json
  /-- `serde_json::from_slice` of a block, reading the seed in its header. -/
  readBlockSeed : String → Except String String
  unixSecs : ℕ → ℕ
  instant : ℕ → ℕ
  uuid : ℕ → Wire.Field 16
  /-- Why no runtime could be built, if so. -/
  runtimeFailure : ℕ → Option String
  /-- Whether the caller is inside a runtime. -/
  inRuntime : Bool
  /-- How many rounds a loop is given. -/
  fuel : ℕ

/-- A client at work: its handle and what is outside it. -/
structure Session where
  env : Env
  ops : AlgoOps

/-- An attempt to make a request. -/
inductive Event
  /-- A limit refused it. -/
  | refused (e : AlgoError)
  /-- It was admitted, but no runtime could be built for it. -/
  | unsent (e : String)
  | exchange (request : Request) (reply : Reply)
deriving DecidableEq

/-- The request of an attempt that was sent. -/
def Event.sent : Event → Option Request
  | .exchange request _ => some request
  | .refused _ | .unsent _ => none

/-- What the clones of a handle share, the attempts made, and the present moment. -/
structure World where
  rateLimiter : Option RateLimiter
  dailyBudget : Option DailyBudget
  requestsMade : UInt64
  appCreators : Mutex (List (ℕ × String))
  log : List Event
  moment : ℕ

namespace World

/-- The requests sent so far. -/
def sent (w : World) : List Request := w.log.filterMap Event.sent

theorem sent_congr {v w : World} (h : v.log = w.log) : v.sent = w.sent := by
  unfold sent
  rw [h]

theorem sent_of_log {v w : World} {events : List Event} (h : v.log = w.log ++ events) :
    v.sent = w.sent ++ events.filterMap Event.sent := by
  unfold sent
  rw [h, List.filterMap_append]

/-- Note an attempt. -/
def record (e : Event) (w : World) : World := { w with log := w.log ++ [e], moment := w.moment + 1 }

@[simp] theorem record_rateLimiter (e : Event) (w : World) :
    (w.record e).rateLimiter = w.rateLimiter := rfl
@[simp] theorem record_dailyBudget (e : Event) (w : World) :
    (w.record e).dailyBudget = w.dailyBudget := rfl
@[simp] theorem record_requestsMade (e : Event) (w : World) :
    (w.record e).requestsMade = w.requestsMade := rfl
@[simp] theorem record_log (e : Event) (w : World) : (w.record e).log = w.log ++ [e] := rfl

@[simp] theorem record_sent (e : Event) (w : World) :
    (w.record e).sent = w.sent ++ e.sent.toList := by
  rw [sent_of_log (record_log e w)]
  cases h : e.sent <;> simp [h]

end World

variable {α : Type}

/-! ## Limits -/

/-- Ask a clock at the present moment, and go on to the next. -/
def askClock (clock : ℕ → ℕ) : Proc World Error ℕ := fun w =>
  (.ok (clock w.moment), { w with moment := w.moment + 1 })

/-- Give up an attempt that a limit refuses. -/
def refuse (e : AlgoError) : Proc World Error α := fun w => (.err (.typed e), w.record (.refused e))

/-- Step 1: the daily budget, peeked at before the bucket is touched. -/
def checkBudget (now : Option ℕ) : Proc World Error Unit := do
  match (← get).dailyBudget, now with
  | some daily, some now =>
    modify fun w => { w with dailyBudget := some (daily.check now).2 }
    match (daily.check now).1 with
    | .ok () => pure ()
    | .error wait => refuse (.dailyBudgetExceeded wait daily.dayStartOffsetSecs)
  | _, _ => pure ()

/-- Poll the bucket. -/
def pollLimiter (limiter : RateLimiter) (now : ℕ) : Proc World Error Duration := do
  modify fun w => { w with rateLimiter := some (limiter.poll now).2 }
  pure (limiter.poll now).1

/-- Whether an empty bucket refuses a request. -/
def Session.rejects (c : Session) : Bool :=
  c.ops.config.rateLimit.any fun limit => limit.mode = .reject

/-- One poll of the bucket: a wait refuses the request, or the thread sleeps it out. -/
def pollOnce (c : Session) (operation : String) : Proc World Error (Unit ⊕ Unit) := do
  match (← get).rateLimiter with
  | none => pure (.inr ())
  | some limiter =>
    let now ← askClock c.env.instant
    let wait ← pollLimiter limiter now
    if wait = 0 then pure (.inr ())
    else if c.rejects then refuse (.rateLimited operation wait)
    else pure (.inl ())

/-- Step 2: the token bucket, polled until it asks for no wait. -/
def takeToken (c : Session) (operation : String) : Proc World Error Unit :=
  loop (fun _ : Unit => pollOnce c operation) c.env.fuel ()

/-- The world after a request has been charged to the budget and the counter. -/
def World.charged (now : Option ℕ) (w : World) : World :=
  { w with
    dailyBudget := match w.dailyBudget, now with
      | some daily, some now => some (daily.record now)
      | daily, _ => daily
    requestsMade := w.requestsMade + 1 }

theorem World.charged_of_none {w : World} (now : Option ℕ) (h : w.dailyBudget = none) :
    (w.charged now).dailyBudget = none := by
  unfold World.charged
  rw [h]

theorem World.charged_of_some {w : World} {b : DailyBudget} {now : ℕ}
    (h : w.dailyBudget = some b) : (w.charged (some now)).dailyBudget = some (b.record now) := by
  unfold World.charged
  rw [h]

/-- Step 3: charge the budget and the counter. -/
def charge (now : Option ℕ) : Proc World Error Unit := modify (World.charged now)

/-- Apply the limits before a request, then charge it against them. The wall clock is read once,
and only for a budget. -/
def applyRateLimit (c : Session) (operation : String) : Proc World Error Unit := do
  let now ← match (← get).dailyBudget with
    | some _ => do
      let now ← askClock c.env.unixSecs
      pure (some now)
    | none => pure none
  checkBudget now
  takeToken c operation
  charge now

/-! ## Runtimes -/

/-- Drive a future on a fresh runtime, under the client's timeout: what the attempt ends in, and
what is noted of it. -/
def Session.block (c : Session) (operation : String) (fut : Fut α) (moment : ℕ) :
    Outcome Error α × Event :=
  match c.env.runtimeFailure moment with
  | some e => (.err (.text s!"failed to build tokio runtime: {e}"), .unsent e)
  | none =>
    let timedOut (limit : Duration) : Outcome Error α × Event :=
      (.err (.text s!"{operation} exceeded timeout of {limit.debug}"),
        .exchange fut.request (.timedOut limit))
    match fut.settle moment, c.ops.timeout with
    | .panics, _ => (.stop .panic, .exchange fut.request .panicked)
    | .never, none => (.stop .fuel, .exchange fut.request .unsettled)
    | .never, some limit => timedOut limit
    | .done _ value, none => (.ok value, .exchange fut.request (fut.reply value))
    | .done after value, some limit =>
      if after ≤ limit then (.ok value, .exchange fut.request (fut.reply value))
      else timedOut limit

/-- Inside a runtime the future runs on a thread of its own, which may panic. -/
def rtBlockOn (c : Session) (operation : String) (fut : Fut α) : Proc World Error α := fun w =>
  let (outcome, event) := c.block operation fut w.moment
  match outcome, c.env.inRuntime with
  | .stop .panic, true => (.err (.text "rt_block_on thread panicked"), w.record event)
  | outcome, _ => (outcome, w.record event)

theorem rtBlockOn_snd (c : Session) (operation : String) (fut : Fut α) (w : World) :
    (rtBlockOn c operation fut w).2 = w.record (c.block operation fut w.moment).2 := by
  unfold rtBlockOn
  rcases c.block operation fut w.moment with ⟨outcome, event⟩
  dsimp only
  split <;> rfl

/-- An attempt that was admitted sends its request, unless no runtime can be built. -/
theorem block_sent (c : Session) (operation : String) (fut : Fut α) (moment : ℕ) :
    (c.block operation fut moment).2.sent =
      if c.env.runtimeFailure moment = none then some fut.request else none := by
  unfold Session.block
  rcases c.env.runtimeFailure moment with _ | e
  · rw [if_pos rfl]
    rcases fut.settle moment with ⟨after, value⟩ | _ | _ <;> rcases c.ops.timeout with _ | limit
    case done.some => dsimp only; split_ifs <;> rfl
    all_goals rfl
  · rw [if_neg (by simp)]
    rfl

end BlockchainOps.Algo
