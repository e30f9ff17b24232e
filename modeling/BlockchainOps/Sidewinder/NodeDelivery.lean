import BlockchainOps.Sidewinder.NodeCalls

/-!
# Submitting over a network that loses messages

A request that timed out may have reached the node, and is sent again. `LossyNetwork` says what a
network may do: lose the request, or hand it to the node and lose the response. What the node is
stays open: `Mempool.Deduplicates` is what a client relies on, that an envelope is known by its
content address and that no second one is stored under an identifier. As every attempt sends the
same envelope, under the identifier that its builder computed, a submission is stored at most once
however often it was sent (`submitTransaction_delivers`).
-/

namespace BlockchainOps.Sidewinder

open Effect Proc MessagePack

variable {ν σ : Type} {c : NodeSession ν} {request : HttpRequest}

/-! ## Delivery -/

/-- A network between a client and a node whose state is `view`, and which does `handle` with a
request that reaches it. -/
def LossyNetwork (env : NodeEnv ν) (view : ν → σ) (handle : HttpRequest → σ → (ℕ × Bytes) × σ) :
    Prop :=
  ∀ tls request s,
    let after := env.exchange tls request s
    (view after.2 = view s ∧ ∀ code body, after.1 ≠ .served code body) ∨
    (view after.2 = (handle request (view s)).2 ∧
      ∀ code body, after.1 = .served code body → (code, body) = (handle request (view s)).1)

section Lossy

variable {view : ν → σ} {handle : HttpRequest → σ → (ℕ × Bytes) × σ} {R : σ → σ → Prop}
  [Std.Refl R] [IsTrans σ R]

/-- What one delivery of the request keeps, any number of attempts keeps. -/
theorem LossyNetwork.nodeAfter (hnet : LossyNetwork c.env view handle)
    (hstep : ∀ x, R x (handle request x).2) (s : ν) (k : ℕ) :
    R (view s) (view (c.nodeAfter request s k)) := by
  induction k with
  | zero => exact refl_of R (view s)
  | succ k ih =>
    refine trans_of R ih ?_
    -- the attempt is lost on the way, or the node handles the request
    show R _ (view (c.env.exchange c.client.tls request (c.nodeAfter request s k)).2)
    rcases hnet c.client.tls request (c.nodeAfter request s k) with ⟨hsame, -⟩ | ⟨hhandled, -⟩
    · rw [hsame]
      exact refl_of R _
    · rw [hhandled]
      exact hstep _

/-- However a call ends, the node is left as deliveries of its request may leave it; a value is
read off the answer to the last of them. -/
theorem LossyNetwork.call (hnet : LossyNetwork c.env view handle) (p : ResponsePrims)
    (call : NodeCall) (hstep : ∀ x, R x (handle (call.request c.client) x).2) (w : NetWorld ν) :
    R (view w.node) (view (call.run p c w).2.node) ∧
    ∀ reply, (call.run p c w).1 = .ok reply → ∃ x code body, R (view w.node) x ∧
      handle (call.request c.client) x = ((code, body), view (call.run p c w).2.node) ∧
      call.accepts code = true ∧ call.read p code body = .ok reply := by
  obtain ⟨n, -, -, hlast, hrun⟩ := call_run p c call w
  rw [hrun]
  have hends := callEnds p c call hlast
  refine ⟨hnet.nodeAfter hstep w.node (n + 1), fun reply hreply => ?_⟩
  dsimp only at hreply
  rw [hreply] at hends
  cases hends with
  | @ok code body _ served accepts read =>
    refine ⟨view (c.nodeAfter (call.request c.client) w.node n), code, body,
      hnet.nodeAfter hstep w.node n, ?_, accepts, read⟩
    rcases hnet c.client.tls (call.request c.client)
      (c.nodeAfter (call.request c.client) w.node n) with ⟨-, hlost⟩ | ⟨hhandled, hreply⟩
    · exact absurd served (hlost code body)
    · exact Prod.ext (hreply code body served).symm hhandled.symm

end Lossy

/-! ## A node that deduplicates -/

/-- A node, as far as submissions go: what it does with a request that reaches it, how it
identifies an envelope, and the envelopes that it has stored, under their identifiers. -/
structure Mempool (σ : Type) where
  handle : HttpRequest → σ → (ℕ × Bytes) × σ
  identify : Bytes → Option String
  stored : σ → List (String × Bytes)

namespace Mempool

/-- What a client relies on of the node that it submits to. -/
structure Deduplicates (m : Mempool σ) (w : WirePrims) (p : ResponsePrims) (client : NodeClient) :
    Prop where
  /-- An envelope is known by the content address of the body in it. -/
  identifies : ∀ envelope fields body bytes, decode envelope = some (.map fields) →
    lookup "txn" fields = some body → encode body = some bytes →
    m.identify envelope = some (contentAddress w bytes)
  /-- A submission stores its envelope or nothing, and nothing where one is stored already. -/
  stores : ∀ envelope s, let after := m.handle ((NodeCall.submit envelope).request client) s
    m.stored after.2 = m.stored s ∨ ∃ id, m.identify envelope = some id ∧
      (∀ other, (id, other) ∉ m.stored s) ∧ m.stored after.2 = m.stored s ++ [(id, envelope)]
  /-- A submission that is accepted is answered with the identifier, which has an envelope then. -/
  answers : ∀ envelope s, let after := m.handle ((NodeCall.submit envelope).request client) s
    after.1.1 = 200 → ∃ id other, m.identify envelope = some id ∧
      p.parsePosted after.1.2 = .ok ⟨id⟩ ∧ (id, other) ∈ m.stored after.2

/-- Between two states of the node the envelope was stored, or nothing. -/
def Gains (m : Mempool σ) (envelope : Bytes) (s s' : σ) : Prop :=
  m.stored s' = m.stored s ∨ ∃ id, m.identify envelope = some id ∧
    (∀ other, (id, other) ∉ m.stored s) ∧ m.stored s' = m.stored s ++ [(id, envelope)]

instance (m : Mempool σ) (envelope : Bytes) : Std.Refl (m.Gains envelope) := ⟨fun _ => Or.inl rfl⟩

/-- What was stored once is not stored a second time. -/
instance (m : Mempool σ) (envelope : Bytes) : IsTrans σ (m.Gains envelope) where
  trans s s' s'' h h' := by
    rcases h with hsame | ⟨id, hid, hnew, hstored⟩
    · unfold Gains at h' ⊢
      rwa [hsame] at h'
    · -- the first delivery stored it, so the second finds it and stores nothing
      right
      rcases h' with hsame | ⟨id', hid', hnew', -⟩
      · exact ⟨id, hid, hnew, hsame.trans hstored⟩
      · obtain rfl : id' = id := Option.some.inj (hid'.symm.trans hid)
        refine absurd ?_ (hnew' envelope)
        rw [hstored]
        exact List.mem_append_right _ List.mem_cons_self

end Mempool

/-! ## Submitting -/

variable {wire : ClientPrims}

/-- Building does not look at the state. -/
theorem buildSignedTransaction_eq (wire : ClientPrims) (client : SidewinderClient)
    (request : TransactionRequest) : ∃ r : Except Error SignedTransaction, ∀ τ : Type,
      (client.buildSignedTransaction wire request : Proc τ Error _) = ofExcept r := by
  have hbind : ∀ {α β : Type} {f : ∀ τ : Type, α → Proc τ Error β} (x : Except Error α),
      (∀ a, ∃ r, ∀ τ, f τ a = ofExcept r) → ∃ r, ∀ τ, (ofExcept x >>= f τ) = ofExcept r := by
    intro α β f x hf
    rcases x with e | a
    · exact ⟨.error e, fun τ => rfl⟩
    · exact hf a
  unfold SidewinderClient.buildSignedTransaction buildSigned
  apply hbind
  intro sender
  apply hbind
  intro body
  apply hbind
  intro bodyBytes
  apply hbind
  intro signature
  apply hbind
  intro bytes
  exact ⟨.ok _, fun τ => rfl⟩

/-- In every state the same is built, and the state is left alone. -/
theorem buildSignedTransaction_apply {τ : Type} (wire : ClientPrims) (client : SidewinderClient)
    (request : TransactionRequest) (s : τ) :
    client.buildSignedTransaction wire request s
      = ((client.buildSignedTransaction wire request ()).1, s) := by
  obtain ⟨r, hr⟩ := buildSignedTransaction_eq wire client request
  rw [hr τ, hr Unit]
  rcases r with e | signed <;> rfl

/-- The node knows the envelope of a built transaction by the identifier it was built with. -/
theorem Mempool.Deduplicates.identify_built {τ : Type} {m : Mempool σ} {p : ResponsePrims}
    (hnode : m.Deduplicates wire.toWirePrims p c.client)
    (hserialize : ∀ v b, wire.serialize v = .ok b → encode v = some b)
    {client : SidewinderClient} {request : TransactionRequest} {signed : SignedTransaction}
    {s s' : τ} (h : client.buildSignedTransaction wire request s = (.ok signed, s')) :
    m.identify signed.bytes = some signed.txId := by
  obtain ⟨sender, t, -, hbuilt⟩ := bind_ok_iff.mp h
  obtain ⟨-, bodyBytes, signature, hbody, -, htxId, henvelope⟩ := buildSigned_ok hbuilt
  have hencode := hserialize _ _ hbody
  rw [value_eq] at hencode
  have hdecode := decode_encode (hserialize _ _ henvelope)
  unfold SignedTransactionWire.value at hdecode
  rw [value_eq] at hdecode
  rw [htxId]
  exact hnode.identifies _ _ _ _ hdecode rfl hencode

/-- A submission is a call whose reply is the identifier. -/
theorem submit_run (p : ResponsePrims) (c : NodeSession ν) (envelope : Bytes) (w : NetWorld ν) :
    (NodeCall.submit envelope).run p c w
      = ((submit p c envelope w).1.map .txId, (submit p c envelope w).2) := by
  show (submit p c envelope >>= fun id => pure (NodeReply.txId id)) w = _
  rw [bind_apply]
  rcases submit p c envelope w with ⟨id | e | why, w'⟩ <;> rfl

/-- The reply to a submission that was accepted is the identifier in it. -/
theorem read_submit_respond {p : ResponsePrims} {envelope : Bytes} {code : ℕ} {body : Bytes}
    {id : String} (haccepts : (NodeCall.submit envelope).accepts code = true)
    (hparse : p.parsePosted body = .ok ⟨id⟩) :
    (NodeCall.submit envelope).read p code body = .ok (.txId id) := by
  have hcode : code = 200 := of_decide_eq_true haccepts
  unfold NodeCall.read submitFrom parseJson
  rw [if_pos hcode, hparse]
  rfl

theorem submitTransaction_of_built {p : ResponsePrims} {txn : TransactionRequest}
    {signed : SignedTransaction} {w w' : NetWorld ν}
    (h : c.client.buildSignedTransaction wire txn w = (.ok signed, w')) :
    submitTransaction p wire c txn w = submit p c signed.bytes w' := bind_of_ok h

namespace OneSubmission

/-- The packages on one seed, with the digest of the sample request's body. -/
def wirePrims : ClientPrims :=
  { OneSeed.prims with
    sha512_256 := fun b =>
      if some b = encode (body slotSet Tls.OneIdentity.publicKey.1).value then
        Tls.ofBase64 "IrDeopLZNTOI+OoF990j2fv1LXoBRU1yQAUKygo29dA="
      else OneSeed.prims.sha512_256 b }

/-- How the node writes the identifier of a submission. -/
def respond (id : String) : Bytes := utf8 ("\x7b\"txId\":\"" ++ id ++ "\"\x7d")

/-- Read such a response. -/
def parsePosted (body : Bytes) : Except String PostTransactionResponseWire :=
  match Algo.fromUtf8 body with
  | some text =>
    let id := String.ofList ((text.toList.drop 9).dropLast.dropLast)
    if respond id = body then .ok ⟨id⟩ else .error "expected a string"
  | none => .error "invalid unicode code point"

theorem parsePosted_respond (id : String) : parsePosted (respond id) = .ok ⟨id⟩ := by
  have hid : String.ofList ((("\x7b\"txId\":\"" ++ id ++ "\"\x7d").toList.drop 9).dropLast.dropLast)
      = id := by
    have htext : ("\x7b\"txId\":\"" ++ id ++ "\"\x7d").toList
        = "\x7b\"txId\":\"".toList ++ (id.toList ++ ['"', '\x7d']) := by
      simp [String.toList_append]
    rw [htext, List.drop_left' (by decide)]
    have hlast : id.toList ++ ['"', '\x7d'] = (id.toList ++ ['"']) ++ ['\x7d'] := by simp
    rw [hlast, List.dropLast_concat, List.dropLast_concat, String.ofList_toList]
  unfold parsePosted
  show (match Algo.fromUtf8 (utf8 _) with | some _ => _ | none => _) = _
  rw [Algo.fromUtf8_utf8]
  dsimp only
  rw [hid, if_pos rfl]

def prims : ResponsePrims where
  b64 := Base64.standard
  parsePosted := parsePosted
  parsePending _ := .error "missing field"
  parseParams _ := .error "missing field"
  parseNodeStatus _ := .error "missing field"
  parseSchema _ := .error "missing field"
  parseError _ := .error "missing field"

def client : NodeClient :=
  .fromAlgoOps
    (.newForAlgorand wirePrims.keys (some "b64:AAECAwQFBgcICQoLDA0ODxAREhMUFRYXGBkaGxwdHh8=") none
      none)
    ⟨"http://localhost:12122/", "secret"⟩

/-- The content address of the body in an envelope. -/
def identify (envelope : Bytes) : Option String := do
  let .map fields ← decode envelope | none
  let body ← lookup "txn" fields
  let bytes ← encode body
  some (contentAddress wirePrims.toWirePrims bytes)

/-- A node that accepts every envelope. -/
def mempool : Mempool (List (String × Bytes)) where
  handle request store :=
    match request.body.bind fun body => (identify body.2).map fun id => (id, body.2) with
    | some (id, envelope) =>
      ((200, respond id),
        if store.any fun entry => entry.1 = id then store else store ++ [(id, envelope)])
    | none => ((400, []), store)
  identify
  stored store := store

/-- What the node does with a submission. -/
theorem handle_submit (envelope : Bytes) (store : List (String × Bytes)) :
    mempool.handle ((NodeCall.submit envelope).request client) store =
      match identify envelope with
      | some id => ((200, respond id),
          if store.any fun entry => entry.1 = id then store else store ++ [(id, envelope)])
      | none => ((400, []), store) := by
  show (match (identify envelope).map fun id => (id, envelope) with | some (_, _) => _ | none => _)
    = _
  rcases identify envelope with _ | id <;> rfl

theorem deduplicates : mempool.Deduplicates wirePrims.toWirePrims prims client where
  identifies envelope fields body bytes hdecode hlookup hencode := by
    show identify envelope = _
    unfold identify
    rw [hdecode]
    simp [hlookup, hencode]
  stores envelope store := by
    rw [handle_submit]
    rcases hid : identify envelope with _ | id
    · exact Or.inl rfl
    · dsimp only
      split_ifs with hany
      · exact Or.inl rfl
      · refine Or.inr ⟨id, hid, fun other hmem => hany ?_, rfl⟩
        exact List.any_eq_true.mpr ⟨(id, other), hmem, by simp⟩
  answers envelope store := by
    rw [handle_submit]
    rcases hid : identify envelope with _ | id
    · intro after h
      have hcode : (400 : ℕ) = 200 := h
      exact absurd hcode (by decide)
    · intro after _
      have hparse : prims.parsePosted (respond id) = .ok ⟨id⟩ := parsePosted_respond id
      have hstored : mempool.stored after.2
          = if store.any fun entry => entry.1 = id then store else store ++ [(id, envelope)] := rfl
      rw [hstored]
      split_ifs with hany
      · obtain ⟨⟨id', other⟩, hmem, hsame⟩ := List.any_eq_true.mp hany
        obtain rfl : id' = id := of_decide_eq_true hsame
        exact ⟨id', other, hid, hparse, hmem⟩
      · exact ⟨id, envelope, hid, hparse, List.mem_append_right _ List.mem_cons_self⟩

/-- A read of the response that timed out. -/
def timedOut : ErrorChain where
  error := ⟨"error decoding response body", .other⟩
  causes := [⟨"operation timed out", .io false⟩]

/-- The network loses the response to the first request. -/
def session : NodeSession (ℕ × List (String × Bytes)) where
  client
  env := {
    exchange := fun _ request s =>
      let (reply, store) := mempool.handle request s.2
      (if s.1 = 0 then .failed timedOut else .served reply.1 reply.2, s.1 + 1, store)
    inRuntime := false }

/-- Nothing was submitted yet. -/
def start : NetWorld (ℕ × List (String × Bytes)) := ⟨(0, []), []⟩

theorem exchangeAt_zero (request : HttpRequest) :
    session.exchangeAt request start.node 0 = .failed timedOut := rfl

theorem exchangeAt_one (request : HttpRequest) : session.exchangeAt request start.node 1
    = .served (mempool.handle request (mempool.handle request []).2).1.1
      (mempool.handle request (mempool.handle request []).2).1.2 :=
  rfl

theorem lossy : LossyNetwork session.env (fun s => s.2) mempool.handle := by
  intro tls request s after
  right
  refine ⟨rfl, fun code body hserved => ?_⟩
  have hafter : after.1 = if s.1 = 0 then .failed timedOut else
      .served (mempool.handle request s.2).1.1 (mempool.handle request s.2).1.2 := rfl
  rw [hafter] at hserved
  split_ifs at hserved
  obtain ⟨rfl, rfl⟩ := Exchange.served.inj hserved
  rfl

/-- Every handle with both keys builds the sample request. -/
theorem slotSet_built_in {τ : Type} {client : SidewinderClient} {key seed : Wire.Field 32}
    (hkey : client.algo.publicKeyBytes wirePrims.keys = .ok key)
    (hseed : client.algo.privateKeyBytes wirePrims.keys = .ok seed) (s : τ) :
    ∃ signed, (client.buildSignedTransaction wirePrims slotSet s).1 = .ok signed := by
  have hserialize : ∀ v b, encode v = some b → wirePrims.serialize v = .ok b :=
    fun v b => (OneSeed.serialize_ok_iff v b).mpr
  obtain ⟨signed, hbuilt⟩ := slotSet_builds hserialize hkey hseed
  rw [buildSignedTransaction_apply]
  exact ⟨signed, hbuilt⟩

/-- The key in the address that a handle derives is that of its seed. -/
theorem publicKeyBytes_derived {p : Algo.KeyPrims} {base32 : Base32}
    (hencode : p.base32NopadEncode = base32.encode) (hdecode : p.base32NopadDecode = base32.decode)
    {pass : String} {config : Option Algo.AlgoChainConfig} {seed : Wire.Field 32}
    (hseed : Algo.seedFromPassphrase p pass = .ok seed) :
    (Algo.AlgoOps.newForAlgorand p (some pass) none config).publicKeyBytes p
      = .ok (p.verifyingKey seed) := by
  obtain ⟨derived, haddress⟩ : ∃ a, Algo.byteKeyToAddress p.toAddressPrims
      (p.verifyingKey seed).1 = .ok a := ⟨_, rfl⟩
  have hderived : Algo.addressFromPassphrase p pass = .ok derived := by
    unfold Algo.addressFromPassphrase
    rw [hseed]
    exact haddress
  have hhandle : (Algo.AlgoOps.newForAlgorand p (some pass) none config).address = some derived :=
    congrArg Except.toOption hderived
  unfold Algo.AlgoOps.publicKeyBytes
  rw [hhandle]
  exact Algo.addressToByteKey_byteKeyToAddress hencode hdecode _ haddress

theorem client_builds : ∃ signed,
    (client.buildSignedTransaction wirePrims slotSet start).1 = .ok signed := by
  have hseed : Algo.seedFromPassphrase wirePrims.keys
      "b64:AAECAwQFBgcICQoLDA0ODxAREhMUFRYXGBkaGxwdHh8=" = .ok Tls.OneIdentity.seed := by
    decide +kernel
  have hencode : wirePrims.keys.base32NopadEncode = Base32.standard.encode := rfl
  exact slotSet_built_in (publicKeyBytes_derived hencode rfl hseed) hseed start

/-- The second attempt is answered with the identifier. -/
theorem submit_returns {signed : SignedTransaction}
    (hidentify : identify signed.bytes = some signed.txId) :
    (submit prims session signed.bytes start).1 = .ok signed.txId := by
  have hretry : session.retries (.failed timedOut) = true := by decide +kernel
  have hreply : ∀ store, (mempool.handle ((NodeCall.submit signed.bytes).request client) store).1
      = (200, respond signed.txId) := by
    intro store
    rw [handle_submit, hidentify]
  have hread : (NodeCall.submit signed.bytes).read prims 200 (respond signed.txId)
      = .ok (.txId signed.txId) := read_submit_respond rfl (parsePosted_respond signed.txId)
  obtain ⟨n, -, hretried, hlast, hrun⟩ := call_run prims session (.submit signed.bytes) start
  have hsecond := exchangeAt_one ((NodeCall.submit signed.bytes).request client)
  rw [hreply] at hsecond
  -- the first attempt is made again, and the second is answered
  have hpos : n ≠ 0 := by
    intro hzero
    rw [hzero, exchangeAt_zero] at hlast
    exact absurd (hlast hretry) (by decide)
  have hle : ¬ 1 < n := by
    intro hlt
    have hagain := hretried 1 hlt
    have hfinal : session.retries (.served 200 (respond signed.txId)) = false := rfl
    have hsame := hsecond ▸ hagain
    exact absurd (hfinal.symm.trans hsame) (by simp)
  have hone : n = 1 := by omega
  have hreturns : session.returns prims (.submit signed.bytes) (.served 200 (respond signed.txId))
      = .ok (.txId signed.txId) := by
    have hconclude : session.conclude "submit" (.served 200 (respond signed.txId))
        = .ok (200, respond signed.txId) := rfl
    unfold NodeSession.returns NodeCall.operation
    rw [hconclude]
    dsimp only
    rw [hread]
  have houtcome := congrArg Prod.fst hrun
  rw [hone, submit_run] at houtcome
  obtain ⟨id, hid, hsame⟩ := Outcome.map_eq_ok.mp (houtcome.trans (hsecond ▸ hreturns))
  rw [hid, NodeReply.txId.inj hsame]

end OneSubmission

end BlockchainOps.Sidewinder
