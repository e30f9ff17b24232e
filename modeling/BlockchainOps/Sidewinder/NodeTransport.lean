import BlockchainOps.Lib.Text
import BlockchainOps.Sidewinder.Client
import BlockchainOps.Sidewinder.NodeTypes

/-!
# The requests of a Sidewinder client

A client makes one HTTP request for each method, on a fresh runtime, over plain HTTP with a bearer
token or over mutual TLS. `sendOnce` is one attempt; `send` repeats it while the node looks
unreachable. What a node answers is left to the methods.

What is outside the client is a state that answers a request and moves on (`NodeEnv`): the node,
the network and the machine. The client's own state is a log of what it tried and how long it
paused, which no code reads.
-/

namespace BlockchainOps.Sidewinder

open Effect Proc

/-! ## Errors of the client -/

def SidewinderError.unreachable (operation message : String) : SidewinderError :=
  { kind := .hostUnreachable, operation, status := none, message }

def SidewinderError.unauthorized (operation message : String) : SidewinderError :=
  { kind := .unauthorized, operation, status := some 401, message }

def SidewinderError.identityRefused (operation message : String) : SidewinderError :=
  { kind := .identityRefused, operation, status := none, message }

def SidewinderError.notFound (operation message : String) : SidewinderError :=
  { kind := .notFound, operation, status := some 404, message }

def SidewinderError.badRequest (operation message : String) : SidewinderError :=
  { kind := .badRequest, operation, status := some 400, message }

def SidewinderError.unexpectedStatus (operation : String) (status : ℕ) (message : String) :
    SidewinderError :=
  { kind := .unexpectedStatus, operation, status := some status, message }

/-- An error that is only a text. -/
def Error.text (message : String) : Error := .algo (.text message)

/-- What `looks_unreachable` searches for. -/
def nodeUnreachableMarks : List String :=
  ["tcp connect error", "connection refused", "connection reset", "timed out", "timeout",
    "dns error", "host unreachable", "error sending request"]

def looksUnreachable (message : String) : Bool :=
  nodeUnreachableMarks.any fun mark => Algo.containsText (Algo.toLowercase message) mark

/-! ## Error chains -/

/-- What an error of a chain is seen to be when it is downcast: an error of the TLS library, which
may be the `access_denied` alert, an I/O error, whose payload may be one, or neither. -/
inductive CauseKind
  | tls (accessDenied : Bool)
  | io (payloadAccessDenied : Bool)
  | other
deriving DecidableEq, Repr

def CauseKind.isAccessDenied : CauseKind → Bool
  | tls accessDenied => accessDenied
  | io payloadAccessDenied => payloadAccessDenied
  | other => false

structure Cause where
  text : String
  kind : CauseKind
deriving DecidableEq, Repr

/-- A failed call of the HTTP library: its error and the causes beneath it, outermost first. -/
structure ErrorChain where
  error : Cause
  causes : List Cause
deriving DecidableEq, Repr

/-- The error and every cause, joined; a text that is already there is not repeated. -/
def causeChain (e : ErrorChain) : String :=
  e.causes.foldl
    (fun chain cause =>
      if Algo.containsText chain cause.text then chain else chain ++ ": " ++ cause.text)
    e.error.text

/-- The peer sent the `access_denied` alert. -/
def refusedWithAccessDenied (e : ErrorChain) (chain : String) : Bool :=
  (e.error :: e.causes).any (fun cause => cause.kind.isAccessDenied)
    || Algo.containsText chain "received fatal alert: AccessDenied"

/-- Why one send failed. -/
inductive SendFailure
  /-- The node refused this client's identity. -/
  | identityRefused (chain : String)
  /-- The request could not be sent, or its response could not be read. -/
  | transport (chain : String)
  /-- Nothing was sent. -/
  | localError (e : Error)
deriving DecidableEq, Repr

/-- Only a client that presented a certificate can have had its identity refused. -/
def SendFailure.fromReqwest (e : ErrorChain) (mutualTls : Bool) : SendFailure :=
  if mutualTls && refusedWithAccessDenied e (causeChain e) then .identityRefused (causeChain e)
  else .transport (causeChain e)

/-! ## Clients -/

/-- How to reach a node. -/
structure SidewinderConfig where
  baseUrl : String
  token : String
deriving DecidableEq, Repr

/-- The base URL without slashes at its end. -/
def SidewinderConfig.trimmedBase (c : SidewinderConfig) : String :=
  String.ofList (c.baseUrl.toList.reverse.dropWhile (· = '/')).reverse

/-- A client with its endpoint. Over mutual TLS it has a TLS configuration. -/
structure NodeClient extends SidewinderClient where
  config : SidewinderConfig
  tls : Option Tls.ClientConfig

namespace NodeClient

def fromAlgoOps (algo : Algo.AlgoOps) (config : SidewinderConfig) : NodeClient where
  algo
  config
  tls := none

def mtls (algo : Algo.AlgoOps) (baseUrl : String) (tls : Tls.ClientConfig) : NodeClient where
  algo
  config := { baseUrl, token := "" }
  tls := some tls

def url (c : NodeClient) (path : String) : String := s!"{c.config.trimmedBase}{path}"

end NodeClient

inductive Method
  | get
  | post
deriving DecidableEq, Repr

/-- A request as it is handed to the HTTP library. The body comes with its content type. -/
structure HttpRequest where
  method : Method
  url : String
  bearer : Option String
  body : Option (String × Bytes)
  timeout : Option Algo.Duration
deriving DecidableEq, Repr

/-- The request for a path. A bearer token is sent only where there is no mutual TLS. -/
def NodeClient.request (c : NodeClient) (method : Method) (path : String) (body : Option Bytes)
    (authenticated : Bool) (timeout : Option Algo.Duration) : HttpRequest where
  method
  url := c.url path
  bearer := if authenticated && c.tls.isNone then some c.config.token else none
  body := body.map fun bytes => ("application/msgpack", bytes)
  timeout

/-! ## The world of a client -/

/-- How one attempt ends. -/
inductive Exchange
  /-- No runtime could be built. -/
  | noRuntime (e : String)
  /-- No HTTP client could be built. -/
  | noClient (e : ErrorChain)
  /-- The request could not be sent, or its response could not be read. -/
  | failed (e : ErrorChain)
  | served (status : ℕ) (body : Bytes)
  | panicked
  | never
deriving DecidableEq, Repr

/-- What is outside a client. -/
structure NodeEnv (ν : Type) where
  /-- Build an HTTP client with this TLS configuration and have it make the request. -/
  exchange : Option Tls.ClientConfig → HttpRequest → ν → Exchange × ν
  /-- Whether the caller is inside a runtime. -/
  inRuntime : Bool

/-- What a client does. -/
inductive NetEvent
  | tried (request : HttpRequest) (exchange : Exchange)
  | slept (d : Algo.Duration)
deriving DecidableEq, Repr

structure NetWorld (ν : Type) where
  node : ν
  log : List NetEvent

/-- A client at work. -/
structure NodeSession (ν : Type) where
  env : NodeEnv ν
  client : NodeClient

variable {ν : Type}

/-- What comes of an attempt. A panic inside a runtime is one of a thread of its own, and so is the
failure to build a runtime there. -/
def NodeSession.result (c : NodeSession ν) : Exchange → Outcome SendFailure (ℕ × Bytes)
  | .noRuntime e =>
    if c.env.inRuntime then .err (.localError (.text "rt_block_on thread panicked"))
    else .err (.localError (.text s!"failed to build tokio runtime: {e}"))
  | .noClient e => .err (.localError (.text s!"failed to build HTTP client: {causeChain e}"))
  | .failed e => .err (.fromReqwest e c.client.tls.isSome)
  | .served status body => .ok (status, body)
  | .panicked =>
    if c.env.inRuntime then .err (.localError (.text "rt_block_on thread panicked"))
    else .stop .panic
  | .never => .stop .fuel

/-- One attempt: drive a request on a fresh runtime. -/
def sendOnce (c : NodeSession ν) (request : HttpRequest) :
    Proc (NetWorld ν) SendFailure (ℕ × Bytes) := fun w =>
  let (exchange, node) := c.env.exchange c.client.tls request w.node
  (c.result exchange, { node, log := w.log ++ [.tried request exchange] })

/-- `std::thread::sleep`. -/
def sleep (d : Algo.Duration) : Proc (NetWorld ν) Error Unit :=
  modify fun w => { w with log := w.log ++ [.slept d] }

def maxSendRetries : ℕ := 3

def retryBaseMs : ℕ := 1000

/-- The pause before the attempt after attempt `k`. -/
def retryDelay (k : ℕ) : Algo.Duration := retryBaseMs * 2 ^ k * 1000000

/-- The error for a node that refused this client's identity. -/
def NodeClient.identityRefused (c : NodeClient) (operation chain : String) : SidewinderError :=
  let identity := c.algo.address.getD "(unknown address)"
  .identityRefused operation
    (s!"the node at {c.config.trimmedBase} refused this client's identity {identity}: it is not " ++
      "a permitted client there. Check that the account is opted in to the node's membership " ++
      "application and has the client permission bit set (a newly set bit is only seen at the " ++
      s!"node's next membership poll). Cause: {chain}")

/-- One round of sending. A served response is returned whatever its status; a refused identity is
final, since asking again cannot change the answer. -/
def sendRound (c : NodeSession ν) (operation : String) (request : HttpRequest) (attempt : ℕ) :
    Proc (NetWorld ν) Error (ℕ ⊕ (ℕ × Bytes)) := do
  match ← Proc.attempt (sendOnce c request) with
  | .ok pair => pure (.inr pair)
  | .error (.identityRefused chain) =>
    raise (.sidewinder (c.client.identityRefused operation chain))
  | .error (.localError e) => raise e
  | .error (.transport msg) =>
    if attempt < maxSendRetries ∧ looksUnreachable msg = true then do
      sleep (retryDelay attempt)
      pure (.inl (attempt + 1))
    else if looksUnreachable msg then raise (.sidewinder (.unreachable operation msg))
    else raise (.text msg)

/-- Send, and try again while the node looks unreachable. -/
def send (c : NodeSession ν) (operation : String) (request : HttpRequest) :
    Proc (NetWorld ν) Error (ℕ × Bytes) :=
  loop (sendRound c operation request) (maxSendRetries + 1) 0

/-! ## The methods -/

/-- What reading a response takes from other packages: a base64 engine, and the JSON parser at each
type that it is used at. -/
structure ResponsePrims where
  b64 : Base64
  parsePosted : Bytes → Except String PostTransactionResponseWire
  parsePending : Bytes → Except String PendingWire
  parseParams : Bytes → Except String SuggestedParamsWire
  parseNodeStatus : Bytes → Except String NodeStatusWire
  parseSchema : Bytes → Except String OperationSchemaWire
  parseError : Bytes → Except String ErrorWire

/-- Parse a JSON body into a wire type. -/
def parseJson {α : Type} (parse : Bytes → Except String α) (operation : String) (body : Bytes) :
    Except SidewinderError α :=
  (parse body).mapError fun e => .malformedResponse operation s!"bad JSON: {e}"

/-- The message in an error body if there is one, else the raw text. -/
def errorMessage (p : ResponsePrims) (body : Bytes) : String :=
  match p.parseError body with
  | .ok e => e.message
  | .error _ => Text.trim (Text.fromUtf8Lossy body)

/-- A result of this client, as the result of a method. -/
def answer {α : Type} (r : Except SidewinderError α) : Proc (NetWorld ν) Error α :=
  ofExcept (r.mapError .sidewinder)

/-- What the submission endpoint answers. -/
def submitFrom (p : ResponsePrims) (op : String) (status : ℕ) (body : Bytes) :
    Except SidewinderError String :=
  if status = 200 then do
    let posted ← parseJson p.parsePosted op body
    .ok posted.txId
  else if status = 400 then .error (.badRequest op (errorMessage p body))
  else if status = 401 then .error (.unauthorized op (errorMessage p body))
  else .error (.unexpectedStatus op status (errorMessage p body))

def submit (p : ResponsePrims) (c : NodeSession ν) (signedTxn : Bytes) :
    Proc (NetWorld ν) Error String := do
  let op := "submit"
  let (status, body) ← send c op
    (c.client.request .post "/v2/transactions" (some signedTxn) true none)
  answer (submitFrom p op status body)

/-- What the pending endpoint answers, for `status` and `watch`. -/
def pendingFrom (p : ResponsePrims) (op : String) (status : ℕ) (body : Bytes) :
    Except SidewinderError PendingTransaction :=
  if status = 200 then do
    let wire ← parseJson p.parsePending op body
    wire.intoPending p.b64 op
  else if status = 401 then .error (.unauthorized op (errorMessage p body))
  else if status = 404 then .error (.notFound op (errorMessage p body))
  else .error (.unexpectedStatus op status (errorMessage p body))

def status (p : ResponsePrims) (c : NodeSession ν) (txid : String) (proof : Bool) :
    Proc (NetWorld ν) Error PendingTransaction := do
  let op := "status"
  let path := s!"/v2/transactions/pending/{txid}?proof={proof}"
  let (status, body) ← send c op (c.client.request .get path none true none)
  answer (pendingFrom p op status body)

/-- The long-poll form of `status`. The timeout is longer than the node's window. -/
def watch (p : ResponsePrims) (c : NodeSession ν) (txid : String) (proof : Bool)
    (waitSecs : UInt64) : Proc (NetWorld ν) Error PendingTransaction := do
  let op := "watch"
  let path := s!"/v2/transactions/pending/{txid}?proof={proof}&wait={waitSecs}"
  let timeout := Algo.Duration.fromSecs (min (waitSecs.toNat + 30) (2 ^ 64 - 1))
  let (status, body) ← send c op (c.client.request .get path none true (some timeout))
  answer (pendingFrom p op status body)

def paramsFrom (p : ResponsePrims) (op : String) (status : ℕ) (body : Bytes) :
    Except SidewinderError SuggestedParams :=
  if status = 200 then do
    let wire ← parseJson p.parseParams op body
    wire.intoParams p.b64 op
  else if status = 401 then .error (.unauthorized op (errorMessage p body))
  else .error (.unexpectedStatus op status (errorMessage p body))

def params (p : ResponsePrims) (c : NodeSession ν) : Proc (NetWorld ν) Error SuggestedParams := do
  let op := "params"
  let (status, body) ← send c op
    (c.client.request .get "/v2/transactions/params" none true none)
  answer (paramsFrom p op status body)

def nodeStatusFrom (p : ResponsePrims) (op : String) (status : ℕ) (body : Bytes) :
    Except SidewinderError NodeStatus :=
  if status = 200 then do
    let wire ← parseJson p.parseNodeStatus op body
    wire.intoStatus p.b64 op
  else if status = 401 then .error (.unauthorized op (errorMessage p body))
  else .error (.unexpectedStatus op status (errorMessage p body))

def nodeStatus (p : ResponsePrims) (c : NodeSession ν) : Proc (NetWorld ν) Error NodeStatus := do
  let op := "node_status"
  let (status, body) ← send c op (c.client.request .get "/v2/status" none true none)
  answer (nodeStatusFrom p op status body)

/-- An operation that is not configured is none, and no error. -/
def operationsFrom (p : ResponsePrims) (op : String) (status : ℕ) (body : Bytes) :
    Except SidewinderError (Option OperationSchema) :=
  if status = 200 then do
    let wire ← parseJson p.parseSchema op body
    let schema ← wire.intoSchema p.b64 op
    .ok (some schema)
  else if status = 404 then .ok none
  else if status = 401 then .error (.unauthorized op (errorMessage p body))
  else .error (.unexpectedStatus op status (errorMessage p body))

def operations (p : ResponsePrims) (c : NodeSession ν) (typ : UInt32) :
    Proc (NetWorld ν) Error (Option OperationSchema) := do
  let op := "operations"
  let (status, body) ← send c op
    (c.client.request .get s!"/v2/operations/{typ}" none true none)
  answer (operationsFrom p op status body)

/-- A node that is not ready is an answer, and no error. -/
def healthFrom (p : ResponsePrims) (op : String) (status : ℕ) (body : Bytes) :
    Except SidewinderError Bool :=
  if status = 200 then .ok true
  else if status = 503 then .ok false
  else .error (.unexpectedStatus op status (errorMessage p body))

/-- Whether the node is serving. This is the one request without a token. -/
def health (p : ResponsePrims) (c : NodeSession ν) : Proc (NetWorld ν) Error Bool := do
  let op := "health"
  let (status, body) ← send c op (c.client.request .get "/health" none false none)
  answer (healthFrom p op status body)

/-- A raw request: whatever status is served is returned. -/
def get (c : NodeSession ν) (path : String) : Proc (NetWorld ν) Error (ℕ × Bytes) :=
  send c "get" (c.client.request .get path none true none)

/-- Build, sign and submit. -/
def submitTransaction (p : ResponsePrims) (wire : ClientPrims) (c : NodeSession ν)
    (request : TransactionRequest) : Proc (NetWorld ν) Error String := do
  let signed ← c.client.buildSignedTransaction wire request
  submit p c signed.bytes

end BlockchainOps.Sidewinder
