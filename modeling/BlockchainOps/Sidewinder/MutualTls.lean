import BlockchainOps.Sidewinder.NodeCalls
import BlockchainOps.Tls.Server

/-!
# A client and a node that authenticate each other

A client over mutual TLS has pinned the identity of its node, and the node admits the identities of
its membership as it is at the moment. What the TLS library, the HTTP library and the network do in
between stays open: `TlsNode.Attempt` is what a client relies on, that each side's verifier is asked
before the node gets to see the request. The response may be lost, and the request is sent again
then.

`mutual_call_ends` says what a call comes to. The node sees its request in some of up to four
attempts, each time while it permits the client; and the client is told that its identity is refused
when the node denied it access, at once and in no other case.
-/

namespace BlockchainOps.Sidewinder

open Effect Proc Tls

variable {ν : Type}

/-! ## The node -/

/-- A node that serves its API over mutual TLS, and how the HTTP library reports a handshake that
fails. -/
structure TlsNode (ν : Type) where
  config : ServerConfig
  /-- What the node's membership is at the moment. -/
  authority : ν → MembershipAuthority
  /-- The state in which the handshake of an attempt is made. -/
  later : ν → ν
  /-- The requests that the node's API was given. -/
  seen : ν → List HttpRequest
  reportUnverified : RustlsError → ErrorChain
  reportAlert : AlertDescription → ErrorChain

namespace TlsNode

/-- No response was served, and a failure is not taken for a refusal. -/
structure Lost (x : Exchange) : Prop where
  unserved : ∀ code body, x ≠ .served code body
  undenied : ∀ e, x = .failed e → refusedWithAccessDenied e (causeChain e) = false

/-- What a client with this configuration relies on in an attempt that begins in the state `s`. -/
inductive Attempt (node : TlsNode ν) (p : IdentityPrims) (tls : ClientConfig)
    (request : HttpRequest) (s : ν) : Exchange → ν → Prop
  /-- The request does not get to the node. -/
  | unsent {x : Exchange} {s' : ν} (lost : Lost x) (unseen : node.seen s' = node.seen s) :
      Attempt node p tls request s x s'
  /-- The client's verifier rejects the node's certificate. -/
  | unverified {e : RustlsError} {s' : ν}
      (rejects : (verifyServerCert p tls.authority node.config.own.cert tls.verifier).1 = .err e)
      (unseen : node.seen s' = node.seen s) :
      Attempt node p tls request s (.failed (node.reportUnverified e)) s'
  /-- The node's verifier rejects the client's certificate, which the client is told. -/
  | alerted {e : RustlsError} {s' : ν}
      (verifies : (verifyServerCert p tls.authority node.config.own.cert tls.verifier).1 = .ok ())
      (rejects : (verifyClientCert p (node.authority (node.later s)) tls.own.cert
        node.config.verifier).1 = .err e)
      (unseen : node.seen s' = node.seen s) :
      Attempt node p tls request s (.failed (node.reportAlert e.alert)) s'
  /-- Both verifiers agree and the node sees the request; its response may be lost. -/
  | sent {x : Exchange} {s' : ν}
      (verifies : (verifyServerCert p tls.authority node.config.own.cert tls.verifier).1 = .ok ())
      (admits : (verifyClientCert p (node.authority (node.later s)) tls.own.cert
        node.config.verifier).1 = .ok ())
      (answer : (∃ code body, x = .served code body) ∨ Lost x)
      (seen : node.seen s' = node.seen s ++ [request]) :
      Attempt node p tls request s x s'

/-- The library reports the `access_denied` alert, and no other failure of a handshake, as one. -/
structure Faithful (node : TlsNode ν) : Prop where
  alert : ∀ a, refusedWithAccessDenied (node.reportAlert a) (causeChain (node.reportAlert a)) = true
    ↔ a = .accessDenied
  unverified : ∀ e, refusedWithAccessDenied (node.reportUnverified e)
    (causeChain (node.reportUnverified e)) = false

/-- The node is the one with this identity, and an attempt in this state finds that it permits the
address. -/
def Permits (node : TlsNode ν) (identity address : String) (s : ν) : Prop :=
  node.config.own.address = identity ∧
    authorized (node.authority (node.later s)) node.config.verifier.requiredRole address = true

/-- The node is the one with this identity, and an attempt in this state finds that it does not
permit the address. -/
def Denies (node : TlsNode ν) (identity address : String) (s : ν) : Prop :=
  node.config.own.address = identity ∧
    authorized (node.authority (node.later s)) node.config.verifier.requiredRole address = false

end TlsNode

/-! ## One attempt -/

/-- The ends of a connection: a node with a certificate for an identity of its own, and a client
that has pinned an identity and has a certificate too. -/
structure Ends (p : CertificatePrims) (node : TlsNode ν) (identity : String) (tls : ClientConfig) :
    Prop where
  honest : p.Honest
  node : ∃ draw seed, generate p draw seed = .ok node.config.own
  client : ∃ draw own, pinnedClientConfig p draw own identity = .ok tls

section Attempts

variable {p : CertificatePrims} {node : TlsNode ν} {identity : String} {tls : ClientConfig}
  {request : HttpRequest} {s : ν}

/-- What a pinned client shows, and whom it admits. -/
theorem parts_of_pinnedClientConfig {draw : ℕ} {own : Wire.Field 32}
    (h : pinnedClientConfig p draw own identity = .ok tls) : generate p draw own = .ok tls.own ∧
      tls.authority = (StaticMembership.new.with identity .clusterNode).authority ∧
      tls.verifier = .newForRole .clusterNode := by
  obtain ⟨minted, hminted, h⟩ := Fallible.bind_eq_ok.mp h
  obtain ⟨-, -, h⟩ := Fallible.bind_eq_ok.mp h
  rw [← Except.ok.inj h]
  exact ⟨Fallible.mapError_eq_ok.mp hminted, rfl, rfl⟩

/-- The client's check passes exactly the node that it has pinned. -/
theorem Ends.checks_node (h : Ends p node identity tls) :
    (verifyServerCert p.toIdentityPrims tls.authority node.config.own.cert tls.verifier).1
      = if node.config.own.address = identity then .ok ()
        else .err (serverRefusal (.notAuthorized node.config.own.address)) := by
  obtain ⟨draw, seed, hnode⟩ := h.node
  obtain ⟨draw', own, hclient⟩ := h.client
  obtain ⟨x, signature, hbinds⟩ := binds_of_generate h.honest hnode
  obtain ⟨-, hauthority, hverifier⟩ := parts_of_pinnedClientConfig hclient
  unfold verifyServerCert
  rw [verifyPeerCert_apply, verifyIdentityCertInner_of_binds hbinds, hauthority, hverifier]
  have hpin := authorized_pin identity node.config.own.address
  by_cases hsame : node.config.own.address = identity
  · have hadmits := hpin.mpr hsame
    unfold IdentityVerifier.newForRole
    rw [if_pos hadmits, if_pos hsame]
  · have hrefuses := fun hadmits => hsame (hpin.mp hadmits)
    unfold IdentityVerifier.newForRole
    rw [if_neg hrefuses, if_neg hsame]

/-- The node's check passes exactly the clients that it permits, and denies the others access. -/
theorem Ends.checks_client (h : Ends p node identity tls) (authority : MembershipAuthority)
    (v : IdentityVerifier) :
    (verifyClientCert p.toIdentityPrims authority tls.own.cert v).1
      = if authorized authority v.requiredRole tls.own.address = true then .ok ()
        else .err .applicationVerificationFailure := by
  obtain ⟨draw, own, hclient⟩ := h.client
  obtain ⟨hminted, -, -⟩ := parts_of_pinnedClientConfig hclient
  obtain ⟨x, signature, hbinds⟩ := binds_of_generate h.honest hminted
  exact verifyClientCert_of_binds hbinds authority v

/-- What an attempt comes to between a client and a node that show certificates of their own. -/
inductive Attempted (node : TlsNode ν) (identity address : String) (request : HttpRequest) (s : ν) :
    Exchange → ν → Prop
  /-- The node does not see the request, and the client is not told of a refusal. -/
  | unsent {x : Exchange} {s' : ν} (lost : TlsNode.Lost x) (unseen : node.seen s' = node.seen s) :
      Attempted node identity address request s x s'
  /-- The node does not permit the client, and says so. -/
  | denied {s' : ν} (denies : node.Denies identity address s)
      (unseen : node.seen s' = node.seen s) :
      Attempted node identity address request s (.failed (node.reportAlert .accessDenied)) s'
  | sent {x : Exchange} {s' : ν} (permits : node.Permits identity address s)
      (answer : (∃ code body, x = .served code body) ∨ TlsNode.Lost x)
      (seen : node.seen s' = node.seen s ++ [request]) :
      Attempted node identity address request s x s'

theorem Ends.attempted (h : Ends p node identity tls) (hfaithful : node.Faithful) {x : Exchange}
    {s' : ν} (hattempt : node.Attempt p.toIdentityPrims tls request s x s') :
    Attempted node identity tls.own.address request s x s' := by
  -- the client's verifier agrees exactly when the node is the pinned one
  have hpinned : (verifyServerCert p.toIdentityPrims tls.authority node.config.own.cert
      tls.verifier).1 = .ok () → node.config.own.address = identity := by
    rw [h.checks_node]
    intro hverifies
    split_ifs at hverifies with hsame
    exact hsame
  cases hattempt with
  | unsent lost unseen => exact .unsent lost unseen
  | @unverified e s' rejects unseen =>
    refine .unsent ⟨fun _ _ => by simp, fun e' he => ?_⟩ unseen
    rw [← Exchange.failed.inj he]
    exact hfaithful.unverified e
  | alerted verifies rejects unseen =>
    rw [h.checks_client] at rejects
    split_ifs at rejects with hpermitted
    rw [← Outcome.err.inj rejects]
    exact .denied ⟨hpinned verifies, by simpa using hpermitted⟩ unseen
  | sent verifies admits answer seen =>
    rw [h.checks_client] at admits
    split_ifs at admits with hpermitted
    exact .sent ⟨hpinned verifies, hpermitted⟩ answer seen

/-! ## A call -/

variable {c : NodeSession ν} {call : NodeCall} {q : ResponsePrims}

/-- The session of a client whose requests go to the node. -/
structure Talks (p : CertificatePrims) (node : TlsNode ν) (tls : ClientConfig) (c : NodeSession ν) :
    Prop where
  attempts : ∀ request s, node.Attempt p.toIdentityPrims tls request s
    (c.env.exchange (some tls) request s).1 (c.env.exchange (some tls) request s).2
  tls : c.client.tls = some tls

theorem Talks.attempted (h : Talks p node tls c) (hends : Ends p node identity tls)
    (hfaithful : node.Faithful) (request : HttpRequest) (s : ν) (k : ℕ) :
    Attempted node identity tls.own.address request (c.nodeAfter request s k)
      (c.exchangeAt request s k) (c.nodeAfter request s (k + 1)) := by
  have hattempt := h.attempts request (c.nodeAfter request s k)
  rw [← h.tls] at hattempt
  exact hends.attempted hfaithful hattempt

/-- The node sees the request in some of the attempts, and only while it permits the client. -/
theorem Talks.seen_nodeAfter (h : Talks p node tls c) (hends : Ends p node identity tls)
    (hfaithful : node.Faithful) (request : HttpRequest) (s : ν) (n : ℕ) :
    ∃ sent : List ℕ, sent.Sublist (List.range n) ∧
      (∀ k ∈ sent, node.Permits identity tls.own.address (c.nodeAfter request s k)) ∧
      node.seen (c.nodeAfter request s n) = node.seen s ++ sent.map (fun _ => request) ∧
      ∀ k < n, ∀ code body, c.exchangeAt request s k = .served code body → k ∈ sent := by
  induction n with
  | zero => exact ⟨[], List.nil_sublist _, by simp, by simp [NodeSession.nodeAfter], by simp⟩
  | succ n ih =>
    obtain ⟨sent, hsub, hpermits, hseen, hserved⟩ := ih
    have hattempted := h.attempted hends hfaithful request s n
    -- an attempt that the node does not see changes nothing, and has no response
    have hquiet : (∀ code body, c.exchangeAt request s n ≠ .served code body) →
        node.seen (c.nodeAfter request s (n + 1)) = node.seen (c.nodeAfter request s n) →
        ∃ sent : List ℕ, sent.Sublist (List.range (n + 1)) ∧
          (∀ k ∈ sent, node.Permits identity tls.own.address (c.nodeAfter request s k)) ∧
          node.seen (c.nodeAfter request s (n + 1)) = node.seen s ++ sent.map (fun _ => request) ∧
          ∀ k < n + 1, ∀ code body, c.exchangeAt request s k = .served code body → k ∈ sent := by
      intro hunserved hunseen
      rw [List.range_succ]
      refine ⟨sent, hsub.trans (List.sublist_append_left _ _), hpermits, hunseen.trans hseen, ?_⟩
      intro k hk code body hx
      rcases Nat.lt_succ_iff_lt_or_eq.mp hk with hlt | rfl
      · exact hserved k hlt code body hx
      · exact absurd hx (hunserved code body)
    generalize hx : c.exchangeAt request s n = x at hattempted
    cases hattempted with
    | unsent lost unseen => exact hquiet (fun code body => hx ▸ lost.unserved code body) unseen
    | denied denies unseen => exact hquiet (fun code body => by rw [hx]; simp) unseen
    | sent permits answer seen =>
      refine ⟨sent ++ [n], ?_, ?_, ?_, ?_⟩
      · rw [List.range_succ]
        exact hsub.append (List.Sublist.refl _)
      · intro k hk
        rcases List.mem_append.mp hk with hmem | hlast
        · exact hpermits k hmem
        · rw [List.mem_singleton.mp hlast]
          exact permits
      · rw [seen, hseen, List.map_append, List.append_assoc]
        rfl
      · intro k hk code body hserved'
        rcases Nat.lt_succ_iff_lt_or_eq.mp hk with hlt | rfl
        · exact List.mem_append_left _ (hserved k hlt code body hserved')
        · exact List.mem_append_right _ List.mem_cons_self

/-- What a call over mutual TLS comes to in the attempts up to `n`, of which the node sees those in
`sent`. -/
structure MutualRun (q : ResponsePrims) (c : NodeSession ν) (call : NodeCall) (node : TlsNode ν)
    (identity address : String) (w : NetWorld ν) (n : ℕ) (sent : List ℕ) : Prop where
  /-- No other attempt is made. -/
  after : (call.run q c w).2.node = c.nodeAfter (call.request c.client) w.node (n + 1)
  attempts : sent.Sublist (List.range (n + 1))
  /-- The node sees the request only while it permits the client. -/
  permitted : ∀ k ∈ sent,
    node.Permits identity address (c.nodeAfter (call.request c.client) w.node k)
  seen : node.seen (call.run q c w).2.node
    = node.seen w.node ++ sent.map fun _ => call.request c.client
  /-- A response is one to a request that the node has seen. -/
  answered : ∀ code body, c.exchangeAt (call.request c.client) w.node n = .served code body →
    n ∈ sent
  /-- The last attempt decides. -/
  returns : (call.run q c w).1 = c.returns q call (c.exchangeAt (call.request c.client) w.node n)
  /-- An attempt that is made again was not denied. -/
  retried : ∀ k < n, ∃ e, c.exchangeAt (call.request c.client) w.node k = .failed e ∧
    looksUnreachable (causeChain e) = true ∧ refusedWithAccessDenied e (causeChain e) = false
  last : c.retries (c.exchangeAt (call.request c.client) w.node n) = true → n = maxSendRetries
  /-- The client is told of a refusal exactly when the node has denied it access. -/
  refused : (∃ e, (call.run q c w).1 = .err (.sidewinder e) ∧ e.kind = .identityRefused) ↔
    node.Denies identity address (c.nodeAfter (call.request c.client) w.node n) ∧
      c.exchangeAt (call.request c.client) w.node n = .failed (node.reportAlert .accessDenied)

/-- Only a failure that is not a refusal is retried. -/
theorem Talks.failed_of_retries (h : Talks p node tls c) {x : Exchange}
    (hretries : c.retries x = true) : ∃ e, x = .failed e ∧
      looksUnreachable (causeChain e) = true ∧
      refusedWithAccessDenied e (causeChain e) = false := by
  obtain ⟨e, hx, hundenied, hcause⟩ := (retries_iff c x).mp hretries
  refine ⟨e, hx, (looksUnreachable_causeChain e).mpr hcause, ?_⟩
  rw [h.tls] at hundenied
  simpa using hundenied

/-- What a call returns is the refusal exactly when its last exchange was the alert. -/
theorem Talks.returns_refused (h : Talks p node tls c) (q : ResponsePrims) (call : NodeCall)
    (x : Exchange) : (∃ e, c.returns q call x = .err (.sidewinder e) ∧ e.kind = .identityRefused) ↔
      ∃ e, x = .failed e ∧ refusedWithAccessDenied e (causeChain e) = true := by
  have hmutual : c.client.tls.isSome = true := by rw [h.tls]; rfl
  constructor
  · rintro ⟨e, hreturns, hkind⟩
    -- the last exchange is never retried here, as no bound is asked of it
    have hends := callEnds q c call (n := maxSendRetries) (x := x) fun _ => rfl
    rw [hreturns] at hends
    cases hends with
    | classified explains =>
      cases explains with
      | refused mutualTls alert => exact ⟨_, rfl, alert⟩
      | unreachable exhausted cause => exact absurd hkind (by simp [SidewinderError.unreachable])
      | @served code body _ classified =>
        rw [classified.kind] at hkind
        unfold NodeCall.blame at hkind
        split_ifs at hkind
        split at hkind <;> exact absurd hkind (by simp)
  · rintro ⟨e, rfl, halert⟩
    refine ⟨c.client.identityRefused call.operation (causeChain e), ?_, rfl⟩
    have hresult : c.result (.failed e) = .err (.identityRefused (causeChain e)) := by
      unfold NodeSession.result SendFailure.fromReqwest
      dsimp only
      rw [hmutual, halert]
      rfl
    unfold NodeSession.returns NodeSession.conclude
    rw [hresult]

/-- What a call over mutual TLS comes to, whatever is lost on the way: the node sees the request at
most once in each of up to four attempts, and only while its membership permits the client's
identity; a response that is read is one to a request it has seen; and the call ends with the
identity-refused error exactly when the node has denied the client access, which no further attempt
follows. A node with another identity sees nothing. -/
theorem mutual_call_ends (hends : Ends p node identity tls) (hfaithful : node.Faithful)
    (htalks : Talks p node tls c) (q : ResponsePrims) (call : NodeCall) (w : NetWorld ν) :
    ∃ n ≤ maxSendRetries, ∃ sent, MutualRun q c call node identity tls.own.address w n sent := by
  obtain ⟨n, hn, hretried, hlast, hrun⟩ := call_run q c call w
  obtain ⟨sent, hsub, hpermits, hseen, hserved⟩ :=
    htalks.seen_nodeAfter hends hfaithful (call.request c.client) w.node (n + 1)
  refine ⟨n, hn, sent, ?_, hsub, hpermits, ?_, hserved n (Nat.lt_succ_self n), ?_,
    fun k hk => htalks.failed_of_retries (hretried k hk), hlast, ?_⟩
  · rw [hrun]
    rfl
  · rw [hrun]
    exact hseen
  · rw [hrun]
  · rw [hrun, htalks.returns_refused]
    have hattempted := htalks.attempted hends hfaithful (call.request c.client) w.node n
    generalize c.exchangeAt (call.request c.client) w.node n = x at hattempted
    have halert := (hfaithful.alert .accessDenied).mpr rfl
    constructor
    · rintro ⟨e, rfl, hdenied⟩
      have hlost : ¬ TlsNode.Lost (.failed e) := fun lost =>
        absurd (hdenied.symm.trans (lost.undenied e rfl)) (by simp)
      cases hattempted with
      | unsent lost unseen => exact absurd lost hlost
      | denied denies unseen => exact ⟨denies, rfl⟩
      | sent permits answer seen =>
        rcases answer with ⟨code, body, hanswer⟩ | lost
        · exact absurd hanswer (by simp)
        · exact absurd lost hlost
    · rintro ⟨-, rfl⟩
      exact ⟨_, rfl, halert⟩

end Attempts

/-! ## A node that comes to permit its client -/

namespace OneMutual

open OneIdentity

def failed (cause : Cause) : ErrorChain := ⟨⟨"error sending request", .other⟩, [cause]⟩

/-- The moment, and the requests that the node has seen. -/
abbrev State := ℕ × List HttpRequest

/-- A node that permits the identity as a client from the moment one on. -/
def node : TlsNode State where
  config := ⟨minted, .newForRole .client⟩
  authority s := (StaticMembership.fromSets [] (if 1 ≤ s.1 then [minted.address] else [])).authority
  later s := s
  seen s := s.2
  reportUnverified _ := failed ⟨"invalid peer certificate", .other⟩
  reportAlert
    | .accessDenied => failed ⟨"received fatal alert: AccessDenied", .tls true⟩
    | .handshakeFailure => failed ⟨"received fatal alert: HandshakeFailure", .tls false⟩

theorem faithful : node.Faithful where
  alert a := by cases a <;> decide +kernel
  unverified e := by
    show refusedWithAccessDenied (failed _) (causeChain (failed _)) = false
    decide +kernel

def tls : ClientConfig where
  own := minted
  authority := (StaticMembership.new.with minted.address .clusterNode).authority
  verifier := .newForRole .clusterNode

theorem ends : Ends prims node minted.address tls where
  honest := honest
  node := ⟨0, seed, generate_eq⟩
  client := by
    have haccept : prims.acceptClientAuth minted.cert minted.key = .ok () := by simp only [prims]
    exact ⟨0, seed, pinnedClientConfig_of generate_eq haccept minted.address⟩

def client : NodeClient :=
  .mtls ⟨none, some minted.address, .default, none⟩ "https://127.0.0.1:4001" tls

def refusedConnection : ErrorChain := failed ⟨"connection refused", .io false⟩

def timedOut : ErrorChain := failed ⟨"operation timed out", .io false⟩

/-- The first attempt does not reach the node, and of the second the response is lost. -/
def exchange (request : HttpRequest) (s : State) : Exchange × State :=
  match s.1 with
  | 0 => (.failed refusedConnection, 1, s.2)
  | 1 => (.failed timedOut, 2, s.2 ++ [request])
  | k + 2 => (.served 200 [], k + 3, s.2 ++ [request])

def session : NodeSession State where
  client
  env := { exchange := fun _ => exchange, inRuntime := false }

def responses : ResponsePrims where
  b64 := Base64.standard
  parsePosted _ := .error "missing field"
  parsePending _ := .error "missing field"
  parseParams _ := .error "missing field"
  parseNodeStatus _ := .error "missing field"
  parseSchema _ := .error "missing field"
  parseError _ := .error "missing field"

theorem lost_refusedConnection : TlsNode.Lost (.failed refusedConnection) where
  unserved _ _ := by simp
  undenied e he := by
    rw [← Exchange.failed.inj he]
    decide +kernel

theorem lost_timedOut : TlsNode.Lost (.failed timedOut) where
  unserved _ _ := by simp
  undenied e he := by
    rw [← Exchange.failed.inj he]
    decide +kernel

/-- From the moment one on both verifiers agree. -/
theorem verifiers_agree {s : State} (hs : 1 ≤ s.1) :
    (verifyServerCert prims.toIdentityPrims tls.authority node.config.own.cert tls.verifier).1
      = .ok () ∧
    (verifyClientCert prims.toIdentityPrims (node.authority (node.later s)) tls.own.cert
      node.config.verifier).1 = .ok () := by
  rw [ends.checks_node, ends.checks_client]
  refine ⟨if_pos rfl, if_pos ?_⟩
  show authorized
    (StaticMembership.fromSets [] (if 1 ≤ s.1 then [minted.address] else [])).authority
    (some .client) minted.address = true
  rw [if_pos hs, authorized_fromSets]
  exact ⟨List.mem_cons_self, List.not_mem_nil⟩

theorem talks : Talks prims node tls session where
  attempts request s := by
    obtain ⟨moment, seen⟩ := s
    show node.Attempt _ _ request _ (exchange request (moment, seen)).1
      (exchange request (moment, seen)).2
    rcases moment with _ | _ | k
    · exact .unsent lost_refusedConnection rfl
    · obtain ⟨hverifies, hadmits⟩ := verifiers_agree (s := (1, seen)) (le_refl 1)
      exact .sent hverifies hadmits (Or.inr lost_timedOut) rfl
    · obtain ⟨hverifies, hadmits⟩ := verifiers_agree (s := (k + 2, seen)) (by simp)
      exact .sent hverifies hadmits (Or.inl ⟨200, [], rfl⟩) rfl
  tls := rfl

end OneMutual

open OneMutual in
/-- The third attempt is answered, and the node has seen the request twice. -/
theorem mutual_call_ends_third_attempt :
    (NodeCall.health.run responses session ⟨(0, []), []⟩).1 = .ok (.health true) ∧
    (NodeCall.health.run responses session ⟨(0, []), []⟩).2.node.2
      = [NodeCall.health.request client, NodeCall.health.request client] := by
  obtain ⟨n, hn, sent, hrun⟩ := mutual_call_ends ends faithful talks responses .health ⟨(0, []), []⟩
  have hzero : session.retries (.failed refusedConnection) = true := by decide +kernel
  have hone : session.retries (.failed timedOut) = true := by decide +kernel
  -- the first two attempts are made again, and the third is answered
  obtain rfl : n = 2 := by
    rcases n with _ | _ | _ | n
    · exact absurd (hrun.last hzero) (by decide)
    · exact absurd (hrun.last hone) (by decide)
    · rfl
    · obtain ⟨e, hfailed, -⟩ := hrun.retried 2 (by omega)
      have hserved : Exchange.served 200 [] = .failed e := hfailed
      exact absurd hserved (by simp)
  exact ⟨hrun.returns, congrArg Prod.snd hrun.after⟩

end BlockchainOps.Sidewinder
