import BlockchainOps.Algo.Metered

/-!
# Calls of the client

`callWithRetry` is the call path of the client: each attempt passes the limits and is then sent,
and a retryable error is retried up to three times. The operations of the client are written with
it and with the steps below, so every run of them is metered.
-/

namespace BlockchainOps.Algo

open Effect

variable {α : Type}

/-! ## Calls -/

/-- Which kind of request a retried call makes. -/
inductive CallKind
  | algod
  | indexerRead
deriving DecidableEq, Repr

def CallKind.operation : CallKind → String
  | .algod => "algod call"
  | .indexerRead => "indexer search"

def retryableStatusCodes : List ℕ := [408, 425, 429, 502, 503, 504]

def indexerReadRetryableStatusCodes : List ℕ := [500]

def isRetryableFor (kind : CallKind) (e : NodeError) : Bool :=
  match e.httpStatus with
  | some status =>
    status ∈ retryableStatusCodes
      || (kind = .indexerRead && status ∈ indexerReadRetryableStatusCodes)
  | none => false

def maxRetries : ℕ := 3

/-- The error of a call that is given up. -/
def giveUp (kind : CallKind) (attempt : ℕ) (e : NodeError) : Error :=
  if maxRetries ≤ attempt ∧ isRetryableFor kind e = true then
    .typed (.transient kind.operation e.text)
  else
    match e.httpStatus with
    | some status => .typed (.http kind.operation status e.text)
    | none => .text e.text

/-- The retry loop of a call; a retryable error is retried after a sleep. -/
def callWithRetry (kind : CallKind) (call : NodeCall α) : Client α :=
  Confined.loop (fun attempt : ℕ => do
    match ← sendOnce kind.operation call with
    | .ok value => pure (.inr value)
    | .error e =>
      if attempt < maxRetries ∧ isRetryableFor kind e = true then pure (.inl (attempt + 1))
      else Confined.raise (giveUp kind attempt e))
    (fun _ => maxRetries + 1) 0

def algodCall (call : NodeCall α) : Client α := callWithRetry .algod call

def indexerCall (call : NodeCall α) : Client α := callWithRetry .indexerRead call

/-! ## The steps of a program -/

/-- What is outside the client. -/
def env : Client Env := Confined.read fun c _ => c.env

/-- The handle. -/
def handle : Client AlgoOps := Confined.read fun c _ => c.ops

/-- `bail!`. -/
def bail (message : String) : Client α := Confined.raise (.text message)

/-- The result of a part, handed over as a value. -/
def resultOf (x : Client α) : Client (Except Error α) := Confined.attempt x

/-- `map_err` to a text with the error at its end. -/
def context (what : String) (x : Client α) : Client α :=
  Confined.mapErr (fun e => .text s!"{what}: {e.display}") x

/-- A result of the library or of the serializer, under such a text. -/
def orBail (what : String) (r : Except String α) : Client α :=
  match r with
  | .ok a => pure a
  | .error e => bail s!"{what}: {e}"

/-- A value that must be there. -/
def require (message : String) (o : Option α) : Client α :=
  match o with
  | some a => pure a
  | none => bail message

/-- Ask at the present moment, and go on to the next. -/
def ask (f : Env → ℕ → α) : Client α where
  run c w := (.ok (f c.env w.moment), { w with moment := w.moment + 1 })
  respects _ _ := Meter.Reaches.of_quiet
    ⟨rfl, rfl, rel_budget_refl _, rel_waited_refl _⟩

def algodClient : Client Algod := do
  let config := (← handle).config
  orBail "failed to construct Algod client"
    ((← env).newAlgod s!"{config.clientApiUrl}:{config.clientApiPort}" (config.token.getD ""))

def indexerClient : Client Indexer := do
  let config := (← handle).config
  orBail "failed to construct Indexer client"
    ((← env).newIndexer s!"{config.indexerApiUrl}:{config.indexerApiPort}" (config.token.getD ""))

def parseAddress (address : String) : Client Address := do
  orBail "invalid address" ((← env).algonaut.parseAddress address)

def addressStr : Client String := do
  require "This operation needs an address" (← handle).address

def requireAddress : Client Address := do
  parseAddress (← addressStr)

/-- The seed of the account. -/
def privateKeyBytes : Client (Wire.Field 32) :=
  Confined.lift fun c => c.ops.privateKeyBytes c.env.keys

/-- A note of random bytes. -/
def uniqueNote : Client Bytes := do
  let id ← ask fun env moment => env.uuid moment
  pure id.1

/-- `now_unix_secs`. -/
def nowUnixSecs : Client ℕ := ask fun env moment => env.unixSecs moment

/-- The address of an application. -/
def contractAddress (appId : ℕ) : Client String :=
  Confined.lift fun c =>
    byteKeyToAddress c.env.keys.toAddressPrims
      (c.env.keys.sha512_256 (utf8 "appID" ++ Wire.beBytes 8 appId))

end BlockchainOps.Algo
