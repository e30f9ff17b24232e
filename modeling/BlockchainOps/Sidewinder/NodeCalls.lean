import BlockchainOps.Lib.Calls
import BlockchainOps.Sidewinder.NodeTransportTheorems

/-!
# The calls of a Sidewinder client

A method of the client is a call (`NodeCall`): it makes its one request and reads the last answer
(`run_eq_send`). From the runs of `send` follow what a call returns (`call_classified`) and what any
sequence of calls puts on the wire (`session_log`).
-/

namespace BlockchainOps.Sidewinder

open Effect Proc

variable {ν : Type} {c : NodeSession ν} {p : ResponsePrims} {call : NodeCall}

/-! ## Calls -/

/-- What a caller can ask of a node. -/
inductive NodeCall
  | submit (signedTxn : Bytes)
  | status (txid : String) (proof : Bool)
  | watch (txid : String) (proof : Bool) (waitSecs : UInt64)
  | params
  | nodeStatus
  | operations (typ : UInt32)
  | health
  | get (path : String)
deriving DecidableEq, Repr

/-- What the methods return. -/
inductive NodeReply
  | txId (id : String)
  | pending (p : PendingTransaction)
  | params (p : SuggestedParams)
  | nodeStatus (s : NodeStatus)
  | schema (s : Option OperationSchema)
  | health (ready : Bool)
  | raw (status : ℕ) (body : Bytes)
deriving DecidableEq, Repr

namespace NodeCall

/-- Call the method. -/
def run (p : ResponsePrims) (c : NodeSession ν) : NodeCall → Proc (NetWorld ν) Error NodeReply
  | submit signedTxn => do
    let id ← Sidewinder.submit p c signedTxn
    pure (.txId id)
  | status txid proof => do
    let pending ← Sidewinder.status p c txid proof
    pure (.pending pending)
  | watch txid proof waitSecs => do
    let pending ← Sidewinder.watch p c txid proof waitSecs
    pure (.pending pending)
  | params => do
    let params ← Sidewinder.params p c
    pure (.params params)
  | nodeStatus => do
    let nodeStatus ← Sidewinder.nodeStatus p c
    pure (.nodeStatus nodeStatus)
  | operations typ => do
    let schema ← Sidewinder.operations p c typ
    pure (.schema schema)
  | health => do
    let ready ← Sidewinder.health p c
    pure (.health ready)
  | get path => do
    let (code, body) ← Sidewinder.get c path
    pure (.raw code body)

/-- The name that the errors of a call carry. -/
def operation : NodeCall → String
  | submit _ => "submit"
  | status _ _ => "status"
  | watch _ _ _ => "watch"
  | params => "params"
  | nodeStatus => "node_status"
  | operations _ => "operations"
  | health => "health"
  | get _ => "get"

/-- The one request of a call. -/
def request (c : NodeClient) : NodeCall → HttpRequest
  | submit signedTxn => c.request .post "/v2/transactions" (some signedTxn) true none
  | status txid proof =>
    c.request .get s!"/v2/transactions/pending/{txid}?proof={proof}" none true none
  | watch txid proof waitSecs =>
    c.request .get s!"/v2/transactions/pending/{txid}?proof={proof}&wait={waitSecs}" none true
      (some (Algo.Duration.fromSecs (min (waitSecs.toNat + 30) (2 ^ 64 - 1))))
  | params => c.request .get "/v2/transactions/params" none true none
  | nodeStatus => c.request .get "/v2/status" none true none
  | operations typ => c.request .get s!"/v2/operations/{typ}" none true none
  | health => c.request .get "/health" none false none
  | get path => c.request .get path none true none

/-- What a call makes of a response. -/
def read (p : ResponsePrims) (call : NodeCall) (code : ℕ) (body : Bytes) :
    Except SidewinderError NodeReply :=
  match call with
  | submit _ => (submitFrom p "submit" code body).map .txId
  | status _ _ => (pendingFrom p "status" code body).map .pending
  | watch _ _ _ => (pendingFrom p "watch" code body).map .pending
  | params => (paramsFrom p "params" code body).map .params
  | nodeStatus => (nodeStatusFrom p "node_status" code body).map .nodeStatus
  | operations _ => (operationsFrom p "operations" code body).map .schema
  | health => (healthFrom p "health" code body).map .health
  | get _ => .ok (.raw code body)

/-- The statuses that a call does not take for an error. -/
def accepts : NodeCall → ℕ → Bool
  | operations _, code => code = 200 || code = 404
  | health, code => code = 200 || code = 503
  | get _, _ => true
  | submit _, code | status _ _, code | watch _ _ _, code | params, code | nodeStatus, code =>
    code = 200

/-- The kind of error that a response with this status can be. -/
def blame (call : NodeCall) (code : ℕ) : SidewinderErrorKind :=
  if call.accepts code then .malformedResponse
  else
    match call, code with
    | health, _ => .unexpectedStatus
    | submit _, 400 => .badRequest
    | status _ _, 404 => .notFound
    | watch _ _ _, 404 => .notFound
    | _, 401 => .unauthorized
    | _, _ => .unexpectedStatus

end NodeCall

/-! ## A call is one request and a reading of the last answer -/

/-- Handing a reply on does not change how the call ends. -/
theorem bind_answer {α : Type} (x : Proc (NetWorld ν) Error (ℕ × Bytes))
    (f : ℕ → Bytes → Except SidewinderError α) (g : α → NodeReply) :
    ((x >>= fun served => answer (f served.1 served.2)) >>= fun a => pure (g a))
      = x >>= fun served => answer ((f served.1 served.2).map g) := by
  rw [Proc.bind_assoc]
  congr 1
  funext served
  rcases f served.1 served.2 with e | a <;> rfl

theorem run_eq_send (p : ResponsePrims) (c : NodeSession ν) (call : NodeCall) :
    call.run p c = send c call.operation (call.request c.client) >>= fun served =>
      answer (call.read p served.1 served.2) := by
  cases call with
  | submit signedTxn => exact bind_answer _ (submitFrom p "submit") .txId
  | status txid proof => exact bind_answer _ (pendingFrom p "status") .pending
  | watch txid proof waitSecs => exact bind_answer _ (pendingFrom p "watch") .pending
  | params => exact bind_answer _ (paramsFrom p "params") .params
  | nodeStatus => exact bind_answer _ (nodeStatusFrom p "node_status") .nodeStatus
  | operations typ => exact bind_answer _ (operationsFrom p "operations") .schema
  | health => exact bind_answer _ (healthFrom p "health") .health
  | get path => rfl

/-! ## Reading an answer -/

theorem parseJson_malformed {α : Type} {parse : Bytes → Except String α} {operation : String}
    {body : Bytes} {e : SidewinderError} (h : parseJson parse operation body = .error e) :
    Malformed operation e := by
  obtain ⟨reason, -, rfl⟩ := Fallible.mapError_eq_error.mp h
  exact ⟨_, rfl⟩

/-- A parsed response that is then decoded fails with a malformed response. -/
theorem parseJson_bind_malformed {α β : Type} {parse : Bytes → Except String α}
    {operation : String} {body : Bytes} {f : α → Except SidewinderError β} {e : SidewinderError}
    (hf : ∀ a e, f a = .error e → Malformed operation e)
    (h : (parseJson parse operation body >>= f) = .error e) : Malformed operation e := by
  rcases Fallible.bind_eq_error.mp h with hparse | ⟨a, -, ha⟩
  · exact parseJson_malformed hparse
  · exact hf a e ha

/-- The error says what was asked, and classifies the response. -/
structure Classifies (call : NodeCall) (code : ℕ) (e : SidewinderError) : Prop where
  operation : e.operation = call.operation
  kind : e.kind = call.blame code
  status : e.status = if call.accepts code then none else some code

theorem classifies_of_malformed {code : ℕ} {e : SidewinderError}
    (haccepts : call.accepts code = true) (h : Malformed call.operation e) :
    Classifies call code e := by
  obtain ⟨message, rfl⟩ := h
  exact ⟨rfl, by simp [NodeCall.blame, haccepts, SidewinderError.malformedResponse],
    by rw [if_pos haccepts]; rfl⟩

/-- The error for a status that the call does not take. -/
theorem classifies_of_refused {code : ℕ} {message : String} {kind : SidewinderErrorKind}
    (haccepts : call.accepts code = false) (hblame : call.blame code = kind) :
    Classifies call code ⟨kind, call.operation, some code, message⟩ :=
  ⟨rfl, hblame.symm, by rw [haccepts]; rfl⟩

/-- What a call takes for a value came with a status that it takes; what it takes for an error is
classified by the status. -/
def Judges (call : NodeCall) (code : ℕ) {α : Type} (r : Except SidewinderError α) : Prop :=
  (∀ a, r = .ok a → call.accepts code = true) ∧ ∀ e, r = .error e → Classifies call code e

theorem Judges.of_accepted {code : ℕ} {α : Type} {r : Except SidewinderError α}
    (haccepts : call.accepts code = true) (h : ∀ e, r = .error e → Malformed call.operation e) :
    Judges call code r :=
  ⟨fun _ _ => haccepts, fun e he => classifies_of_malformed haccepts (h e he)⟩

theorem Judges.of_refused {code : ℕ} {α : Type} {message : String} {kind : SidewinderErrorKind}
    (haccepts : call.accepts code = false) (hblame : call.blame code = kind) :
    Judges call code (.error ⟨kind, call.operation, some code, message⟩ : Except _ α) := by
  refine ⟨fun a h => absurd h (by simp), fun e h => ?_⟩
  rw [← Except.error.inj h]
  exact classifies_of_refused haccepts hblame

theorem Judges.map {code : ℕ} {α : Type} {r : Except SidewinderError α} (h : Judges call code r)
    (f : α → NodeReply) : Judges call code (r.map f) := by
  rcases r with e | a
  · refine ⟨fun b hb => absurd hb (by simp [Except.map]), fun e' he => ?_⟩
    exact h.2 e' (congrArg Except.error (Except.error.inj he))
  · exact ⟨fun _ _ => h.1 a rfl, fun e he => absurd he (by simp [Except.map])⟩

theorem submitFrom_judges (p : ResponsePrims) (signedTxn : Bytes) (code : ℕ) (body : Bytes) :
    Judges (.submit signedTxn) code (submitFrom p "submit" code body) := by
  unfold submitFrom
  split_ifs with h200 h400 h401
  · apply Judges.of_accepted (by simp [NodeCall.accepts, h200])
    exact fun e => parseJson_bind_malformed fun _ _ h => absurd h (by simp)
  · subst h400
    exact Judges.of_refused rfl rfl
  · subst h401
    exact Judges.of_refused rfl rfl
  · apply Judges.of_refused
    · simp [NodeCall.accepts, h200]
    · simp [NodeCall.blame, NodeCall.accepts, h200, h400]

/-- The two calls of the pending endpoint read its responses alike. -/
theorem pendingFrom_judges (p : ResponsePrims) (code : ℕ) (body : Bytes)
    (hcall : (∃ txid proof, call = .status txid proof) ∨
      ∃ txid proof waitSecs, call = .watch txid proof waitSecs) :
    Judges call code (pendingFrom p call.operation code body) := by
  have haccepts : call.accepts code = decide (code = 200) := by
    rcases hcall with ⟨_, _, rfl⟩ | ⟨_, _, _, rfl⟩ <;> rfl
  have hblame : code ≠ 200 → call.blame code =
      if code = 401 then .unauthorized else if code = 404 then .notFound
      else .unexpectedStatus := by
    intro h200
    rcases hcall with ⟨_, _, rfl⟩ | ⟨_, _, _, rfl⟩ <;> unfold NodeCall.blame <;>
      rw [haccepts, decide_eq_false h200] <;> split_ifs <;> simp_all
  unfold pendingFrom
  split_ifs with h200 h401 h404
  · apply Judges.of_accepted (by rw [haccepts, decide_eq_true h200])
    exact fun e => parseJson_bind_malformed fun _ _ h => malformed_pending h
  · subst h401
    exact Judges.of_refused haccepts (hblame h200)
  · subst h404
    exact Judges.of_refused haccepts (hblame h200)
  · apply Judges.of_refused
    · rw [haccepts, decide_eq_false h200]
    · rw [hblame h200, if_neg h401, if_neg h404]

theorem paramsFrom_judges (p : ResponsePrims) (code : ℕ) (body : Bytes) :
    Judges .params code (paramsFrom p "params" code body) := by
  unfold paramsFrom
  split_ifs with h200 h401
  · apply Judges.of_accepted (by simp [NodeCall.accepts, h200])
    exact fun e => parseJson_bind_malformed fun _ _ h => malformed_params h
  · subst h401
    exact Judges.of_refused rfl rfl
  · apply Judges.of_refused
    · simp [NodeCall.accepts, h200]
    · simp [NodeCall.blame, NodeCall.accepts, h200]

theorem nodeStatusFrom_judges (p : ResponsePrims) (code : ℕ) (body : Bytes) :
    Judges .nodeStatus code (nodeStatusFrom p "node_status" code body) := by
  unfold nodeStatusFrom
  split_ifs with h200 h401
  · apply Judges.of_accepted (by simp [NodeCall.accepts, h200])
    exact fun e => parseJson_bind_malformed fun _ _ h => malformed_nodeStatus h
  · subst h401
    exact Judges.of_refused rfl rfl
  · apply Judges.of_refused
    · simp [NodeCall.accepts, h200]
    · simp [NodeCall.blame, NodeCall.accepts, h200]

theorem operationsFrom_judges (p : ResponsePrims) (typ : UInt32) (code : ℕ) (body : Bytes) :
    Judges (.operations typ) code (operationsFrom p "operations" code body) := by
  unfold operationsFrom
  split_ifs with h200 h404 h401
  · apply Judges.of_accepted (by simp [NodeCall.accepts, h200])
    refine fun e => parseJson_bind_malformed fun w e' h => ?_
    rcases Fallible.bind_eq_error.mp h with hschema | ⟨_, -, hok⟩
    · exact malformed_schema hschema
    · exact absurd hok (by simp)
  · apply Judges.of_accepted (by simp [NodeCall.accepts, h404])
    exact fun e h => absurd h (by simp)
  · subst h401
    exact Judges.of_refused rfl rfl
  · apply Judges.of_refused
    · simp [NodeCall.accepts, h200, h404]
    · simp [NodeCall.blame, NodeCall.accepts, h200, h404]

theorem healthFrom_judges (p : ResponsePrims) (code : ℕ) (body : Bytes) :
    Judges .health code (healthFrom p "health" code body) := by
  unfold healthFrom
  split_ifs with h200 h503
  · apply Judges.of_accepted (by simp [NodeCall.accepts, h200])
    exact fun e h => absurd h (by simp)
  · apply Judges.of_accepted (by simp [NodeCall.accepts, h503])
    exact fun e h => absurd h (by simp)
  · apply Judges.of_refused
    · simp [NodeCall.accepts, h200, h503]
    · simp [NodeCall.blame, NodeCall.accepts, h200, h503]

/-- Every call reads its responses so. -/
theorem read_judges (p : ResponsePrims) (call : NodeCall) (code : ℕ) (body : Bytes) :
    Judges call code (call.read p code body) := by
  cases call with
  | submit signedTxn => exact (submitFrom_judges p signedTxn code body).map _
  | status txid proof => exact (pendingFrom_judges p code body (Or.inl ⟨_, _, rfl⟩)).map _
  | watch txid proof waitSecs =>
    exact (pendingFrom_judges p code body (Or.inr ⟨_, _, _, rfl⟩)).map _
  | params => exact (paramsFrom_judges p code body).map _
  | nodeStatus => exact (nodeStatusFrom_judges p code body).map _
  | operations typ => exact (operationsFrom_judges p typ code body).map _
  | health => exact (healthFrom_judges p code body).map _
  | get path => exact ⟨fun _ _ => rfl, fun e h => absurd h (by simp [NodeCall.read])⟩

/-! ## How a call ends -/

/-- What a call returns when this exchange was its last. -/
def NodeSession.returns (p : ResponsePrims) (c : NodeSession ν) (call : NodeCall) (x : Exchange) :
    Outcome Error NodeReply :=
  match c.conclude call.operation x with
  | .ok (code, body) =>
    match call.read p code body with
    | .ok reply => .ok reply
    | .error e => .err (.sidewinder e)
  | .err e => .err e
  | .stop why => .stop why

/-- The runs of a call are those of its request. -/
theorem call_run (p : ResponsePrims) (c : NodeSession ν) (call : NodeCall) (w : NetWorld ν) :
    ∃ n ≤ maxSendRetries,
      (∀ k < n, c.retries (c.exchangeAt (call.request c.client) w.node k) = true) ∧
      (c.retries (c.exchangeAt (call.request c.client) w.node n) = true → n = maxSendRetries) ∧
      call.run p c w = (c.returns p call (c.exchangeAt (call.request c.client) w.node n),
        c.worldAfter (call.request c.client) w n) := by
  obtain ⟨n, hn, hretried, hlast, hsend⟩ := send_run c call.operation (call.request c.client) w
  refine ⟨n, hn, hretried, hlast, ?_⟩
  rw [run_eq_send, bind_apply, hsend]
  unfold NodeSession.returns
  rcases c.conclude call.operation (c.exchangeAt (call.request c.client) w.node n) with
    ⟨code, body⟩ | e | why
  · unfold answer
    dsimp only
    rcases call.read p code body with e | reply <;> rfl
  · rfl
  · rfl

/-- Why a call whose last exchange was attempt `n` returns a classified error. -/
inductive Explains (c : NodeSession ν) (call : NodeCall) (n : ℕ) :
    Exchange → SidewinderError → Prop
  /-- Over mutual TLS the node sent the alert that refuses this client's identity. -/
  | refused {e : ErrorChain} (mutualTls : c.client.tls.isSome = true)
      (alert : refusedWithAccessDenied e (causeChain e) = true) :
      Explains c call n (.failed e) (c.client.identityRefused call.operation (causeChain e))
  /-- The last of four attempts failed, and one of the causes looks like an unreachable host. -/
  | unreachable {e : ErrorChain} (exhausted : n = maxSendRetries)
      (cause : ∃ cause ∈ e.error :: e.causes, looksUnreachable cause.text = true) :
      Explains c call n (.failed e) (.unreachable call.operation (causeChain e))
  | served {code : ℕ} {body : Bytes} {e : SidewinderError} (classified : Classifies call code e) :
      Explains c call n (.served code body) e

/-- How a call ends whose last exchange was attempt `n`. -/
inductive CallEnds (p : ResponsePrims) (c : NodeSession ν) (call : NodeCall) (n : ℕ)
    (x : Exchange) : Outcome Error NodeReply → Prop
  /-- A value is read off a response with a status that the call takes. -/
  | ok {code : ℕ} {body : Bytes} {reply : NodeReply} (served : x = .served code body)
      (accepts : call.accepts code = true) (read : call.read p code body = .ok reply) :
      CallEnds p c call n x (.ok reply)
  | classified {e : SidewinderError} (explains : Explains c call n x e) :
      CallEnds p c call n x (.err (.sidewinder e))
  /-- Any other error is a text, and no response was served. -/
  | other {message : String} (unserved : ∀ code body, x ≠ .served code body) :
      CallEnds p c call n x (.err (.text message))
  | stop {why : Stop} (unserved : ∀ code body, x ≠ .served code body) :
      CallEnds p c call n x (.stop why)

/-- The last exchange of a call, which is not tried again, decides how the call ends. -/
theorem callEnds (p : ResponsePrims) (c : NodeSession ν) (call : NodeCall) {n : ℕ} {x : Exchange}
    (hlast : c.retries x = true → n = maxSendRetries) : CallEnds p c call n x (c.returns p call x) := by
  have hends := concludes c call.operation x
  unfold NodeSession.returns
  generalize c.conclude call.operation x = o at hends
  cases hends with
  | served code body =>
    dsimp only
    rcases hread : call.read p code body with e | reply
    · exact .classified (.served ((read_judges p call code body).2 e hread))
    · exact .ok rfl ((read_judges p call code body).1 reply hread) hread
  | refused mutualTls alert => exact .classified (.refused mutualTls alert)
  | unreachable retried cause => exact .classified (.unreachable (hlast retried) cause)
  | other final unserved message => exact .other unserved
  | stop final unserved why => exact .stop unserved

/-- Every run of a call makes its one request up to four times and ends by its last exchange: a
value is read off a response with a status that the call takes; a classified error names the call,
and is a refused identity, four attempts on a host that looks unreachable, or a response with a
status that has this kind of error; with any other error no response was served. -/
theorem call_classified (p : ResponsePrims) (c : NodeSession ν) (call : NodeCall)
    (w : NetWorld ν) :
    ∃ n ≤ maxSendRetries,
      (call.run p c w).2 = c.worldAfter (call.request c.client) w n ∧
      CallEnds p c call n (c.exchangeAt (call.request c.client) w.node n) (call.run p c w).1 := by
  obtain ⟨n, hn, -, hlast, hrun⟩ := call_run p c call w
  refine ⟨n, hn, ?_, ?_⟩
  · rw [hrun]
  · rw [hrun]
    exact callEnds p c call hlast

/-! ## What a session puts on the wire -/

/-- The log of the attempts of one call: the same request each time, a pause after each attempt but
the last. -/
def Conversation (c : NodeSession ν) (request : HttpRequest) (events : List NetEvent) : Prop :=
  ∃ n ≤ maxSendRetries, ∃ x : ℕ → Exchange,
    (∀ k < n, c.retries (x k) = true) ∧ (c.retries (x n) = true → n = maxSendRetries) ∧
    events = ((List.range n).flatMap fun k => [.tried request (x k), .slept (retryDelay k)])
      ++ [.tried request (x n)]

theorem trace_eq (c : NodeSession ν) (request : HttpRequest) (s : ν) (n : ℕ) :
    c.trace request s n = (List.range n).flatMap fun k =>
      [.tried request (c.exchangeAt request s k), .slept (retryDelay k)] := by
  induction n with
  | zero => rfl
  | succ n ih =>
    rw [List.range_succ, List.flatMap_append, List.flatMap_singleton, ← ih]
    rfl

theorem call_conversation (p : ResponsePrims) (c : NodeSession ν) (call : NodeCall)
    (w : NetWorld ν) :
    ∃ events, (call.run p c w).2.log = w.log ++ events ∧
      Conversation c (call.request c.client) events := by
  obtain ⟨n, hn, hretried, hlast, hrun⟩ := call_run p c call w
  refine ⟨_, ?_, n, hn, c.exchangeAt (call.request c.client) w.node, hretried, hlast, rfl⟩
  rw [hrun, ← trace_eq, ← List.append_assoc]
  rfl

/-- Whatever was tried in a conversation is its request. -/
theorem Conversation.request_eq {request r : HttpRequest} {x : Exchange} {events : List NetEvent}
    (h : Conversation c request events) (hmem : .tried r x ∈ events) : r = request := by
  obtain ⟨n, -, xs, -, -, rfl⟩ := h
  simp only [List.mem_append, List.mem_flatMap, List.mem_cons, List.not_mem_nil, or_false,
    NetEvent.tried.injEq, reduceCtorEq] at hmem
  rcases hmem with ⟨_, -, hr, -⟩ | ⟨hr, -⟩
  · exact hr
  · exact hr

/-- The credentials in a request: a token only over plain HTTP, where only the health check goes
without. -/
structure Credentials (c : NodeClient) (request : HttpRequest) : Prop where
  token : ∀ t, request.bearer = some t → c.tls = none ∧ t = c.config.token
  health : c.tls = none → request.bearer = none → request = NodeCall.health.request c

theorem credentials_of_authenticated (c : NodeClient) (method : Method) (path : String)
    (body : Option Bytes) (timeout : Option Algo.Duration) :
    Credentials c (c.request method path body true timeout) := by
  unfold NodeClient.request
  rcases htls : c.tls with _ | tls
  · constructor
    · intro t ht
      exact ⟨htls, (Option.some.inj ht).symm⟩
    · exact fun _ h => absurd h (by simp)
  · constructor
    · exact fun t ht => absurd ht (by simp)
    · exact fun h => absurd (htls.symm.trans h) (by simp)

theorem request_credentials (c : NodeClient) (call : NodeCall) :
    Credentials c (call.request c) := by
  cases call with
  | health =>
    constructor
    · exact fun t ht => absurd ht (by simp [NodeCall.request, NodeClient.request])
    · exact fun _ _ => rfl
  | _ => exact credentials_of_authenticated c _ _ _ _

/-- One conversation for each of the calls made. -/
def Converses (c : NodeSession ν) (made : List (Call NodeCall (NetWorld ν) Error NodeReply))
    (conversations : List (List NetEvent)) : Prop :=
  List.Forall₂ (fun call events => Conversation c (call.arg.request c.client) events) made
    conversations

/-- The log after a sequence of calls, up to any of them. -/
theorem calls_log {asked : List NodeCall} {w : NetWorld ν}
    {pre post : List (Call NodeCall (NetWorld ν) Error NodeReply)}
    {last : Call NodeCall (NetWorld ν) Error NodeReply}
    (h : Proc.calls (NodeCall.run p c) asked w = pre ++ last :: post) :
    ∃ conversations : List (List NetEvent),
      last.after.log = w.log ++ conversations.flatten ∧
        Converses c (pre ++ [last]) conversations := by
  have hstep : ∀ (past : List (Call NodeCall (NetWorld ν) Error NodeReply)) (call : NodeCall)
      (s : NetWorld ν),
      (∃ conversations : List (List NetEvent), s.log = w.log ++ conversations.flatten ∧
        Converses c past conversations) →
      ∃ conversations : List (List NetEvent),
        (Proc.call (NodeCall.run p c) call s).after.log = w.log ++ conversations.flatten ∧
        Converses c (past ++ [Proc.call (NodeCall.run p c) call s]) conversations := by
    intro past call s hpast
    obtain ⟨conversations, hlog, hall⟩ := hpast
    obtain ⟨events, hevents, hconversation⟩ := call_conversation p c call s
    refine ⟨conversations ++ [events], ?_, ?_⟩
    · rw [List.flatten_append, List.flatten_singleton, ← List.append_assoc, ← hlog]
      exact hevents
    · exact List.rel_append hall (.cons hconversation .nil)
  exact Proc.calls_history hstep [] ⟨[], by simp, .nil⟩ h

/-- What any sequence of calls puts on the wire: one conversation for each call made, and in none
of them a token over mutual TLS, nor a request without one over plain HTTP but for the health
check. -/
theorem session_log (p : ResponsePrims) (c : NodeSession ν) (asked : List NodeCall)
    (w : NetWorld ν) :
    ∃ conversations : List (List NetEvent),
      Converses c (Proc.calls (NodeCall.run p c) asked w) conversations ∧
      (∀ last, (Proc.calls (NodeCall.run p c) asked w).getLast? = some last →
        last.after.log = w.log ++ conversations.flatten) ∧
      ∀ r x, .tried r x ∈ conversations.flatten → Credentials c.client r := by
  have hcredentials : ∀ {made : List (Call NodeCall (NetWorld ν) Error NodeReply)}
      {conversations : List (List NetEvent)}, Converses c made conversations →
      ∀ r x, .tried r x ∈ conversations.flatten → Credentials c.client r := by
    intro made conversations hall r x hmem
    obtain ⟨events, hevents, htried⟩ := List.mem_flatten.mp hmem
    obtain ⟨call, -, hconversation⟩ := forall₂_mem_right hall hevents
    rw [hconversation.request_eq htried]
    exact request_credentials c.client call.arg
  rcases List.eq_nil_or_concat' (Proc.calls (NodeCall.run p c) asked w) with hnone | ⟨pre, last, h⟩
  · rw [hnone]
    exact ⟨[], .nil, fun last hlast => absurd hlast (by simp), hcredentials .nil⟩
  · obtain ⟨conversations, hlog, hall⟩ := calls_log h
    rw [h]
    refine ⟨conversations, hall, ?_, hcredentials hall⟩
    intro last' hlast
    rw [List.getLast?_append_of_ne_nil _ (by simp), List.getLast?_singleton] at hlast
    rw [← Option.some.inj hlast]
    exact hlog

end BlockchainOps.Sidewinder
