import BlockchainOps.Algo.AccountScanSources
import BlockchainOps.Algo.NoteScanners
import BlockchainOps.Tls.Decoder
import BlockchainOps.Tls.Endpoint

/-!
# Resolving the endpoints of an application's nodes

An `EndpointResolver` scans the accounts opted into a membership application and keeps the endpoint
record of each that is permitted as a cluster node and publishes one. Its cache is kept across
resolves, so that each reads only the accounts that changed.

A run is any sequence of resolves, however each ends, while the chain grows. What a resolve returns
was published by permitted nodes, and it is all of it for the accounts that have not changed since
the watermark (`ResolverRun.resolves`). What one account's local state publishes is read off the
chain's own form of it (`decodeNodeEndpoint_toJson_iff`).
-/

namespace BlockchainOps.Tls

open Effect Proc Algo Keyed

/-! ## The resolver -/

/-- A decoder that answers on every local state. -/
structure NodeDecoder where
  decoder : MembershipDecoder
  answers : ∀ localState, ∃ permitted, decoder localState = .ok permitted

/-- Whether the account is permitted as a cluster node. -/
def NodeDecoder.isNode (d : NodeDecoder) (localState : List (String × String)) : Bool :=
  match d.decoder localState with
  | .ok permitted => permitted
  | .err _ | .stop _ => false

/-- The decoder of a bit that the shift reaches. -/
def NodeDecoder.ofBit (overflowChecks : Bool) (key : String) (bit : UInt8)
    (hshift : ¬ (overflowChecks = true ∧ 64 ≤ bit)) : NodeDecoder where
  decoder := bitDecoder overflowChecks key bit
  answers := by
    intro localState
    have hmask : oneShiftedBy overflowChecks bit = .ok (1 <<< bit.toUInt64) := by
      unfold oneShiftedBy
      rw [if_neg hshift]
    exact ⟨_, bitDecoder_of_ok hmask key localState⟩

/-- The record of a permitted node, from the first value under the key. -/
def decodeNodeEndpoint (b64 : Base64) (isNode : NodeDecoder) (endpointKey : String)
    (account : ScannedAccount) : Option EndpointRecord :=
  if !isNode.isNode account.localState then none
  else do
    let (_, value) ← account.localState.find? fun kv => kv.1 = endpointKey
    EndpointRecord.decode b64 value

/-- A resolver; the handle it scans with is that of the session it is used in. -/
structure EndpointResolver where
  appId : ℕ
  cacheLifetimeSecs : Option ℕ
  endpointKey : String
  isNode : NodeDecoder
  scan : Mutex (AccountScanCache EndpointRecord)

namespace EndpointResolver

def new (appId : ℕ) (cacheLifetimeSecs : Option ℕ) (endpointKey : String) (isNode : NodeDecoder) :
    EndpointResolver :=
  { appId, cacheLifetimeSecs, endpointKey, isNode, scan := .new .new }

/-- What a scan keeps of an account. -/
def ingest (r : EndpointResolver) (b64 : Base64) : ScannedAccount → Option EndpointRecord :=
  decodeNodeEndpoint b64 r.isNode r.endpointKey

/-- Bring the cache up to date and read it: the result, and the resolver as it is then. -/
def resolve (r : EndpointResolver) :
    Client (Except Error (List (String × EndpointRecord)) × EndpointResolver) := do
  let b64 := (← env).base64
  let (refreshed, scan) ←
    fetchOptedInAccountsCached r.appId r.scan .refresh r.cacheLifetimeSecs (r.ingest b64)
  let resolved :=
    match refreshed with
    | .error e => .error e
    | .ok () =>
      if scan.poisoned then .error (.text "endpoint scan cache mutex poisoned")
      else .ok scan.value.entries
  pure (resolved, { r with scan })

/-! ## One resolve -/

/-- The call of the scan's engine that a resolve makes, in the world that it finds. -/
def scanCall (r : EndpointResolver) (c : Session) (client : Indexer) (w : World) :
    AccountScanCall World where
  fuel := c.env.fuel
  mode := .refresh
  lifetime := r.cacheLifetimeSecs
  now := c.env.unixSecs w.moment
  fetchFullPage := fun next => (fetchAccountPage client r.appId next).run c
  fetchChanged := fun minRound next => (fetchChangedAddressesPage client r.appId minRound next).run c
  lookupAccount := fun address => (lookupOptedInAccount client r.appId address).run c
  world := { w with moment := w.moment + 1 }

/-- The resolver after a call of the engine. -/
def after (r : EndpointResolver) (b64 : Base64) (call : AccountScanCall World) : EndpointResolver :=
  { r with scan := (call.run (r.ingest b64) r.scan).2.1 }

/-- The result of a resolve, from that of the engine. -/
def reading (r : EndpointResolver) (b64 : Base64) (call : AccountScanCall World) :
    Outcome Error (Except Error (List (String × EndpointRecord)) × EndpointResolver) :=
  match (call.run (r.ingest b64) r.scan).1 with
  | .ok () =>
    .ok (if (r.after b64 call).scan.poisoned then
        .error (.text "endpoint scan cache mutex poisoned")
      else .ok (r.after b64 call).scan.value.entries, r.after b64 call)
  | .err e => .ok (.error e, r.after b64 call)
  | .stop w => .stop w

/-- A resolve for an application makes one call of the engine and reads the cache it leaves. -/
theorem resolve_run {r : EndpointResolver} {c : Session} {client : Indexer} (happ : r.appId ≠ 0)
    (hclient : c.indexer = .ok client) (w : World) :
    (r.resolve.run c w).1 = r.reading c.env.base64 (r.scanCall c client w) := by
  have hclock : nowUnixSecs.run c w
      = (.ok (c.env.unixSecs w.moment), { w with moment := w.moment + 1 }) := rfl
  have hscan : (fetchOptedInAccountsCached r.appId r.scan .refresh r.cacheLifetimeSecs
      (r.ingest c.env.base64)).run c w
      = (let ran := (r.scanCall c client w).run (r.ingest c.env.base64) r.scan
        (match ran.1 with
          | .ok () => .ok (.ok (), ran.2.1)
          | .err e => .ok (.error e, ran.2.1)
          | .stop w => .stop w, ran.2.2)) := by
    unfold fetchOptedInAccountsCached
    rw [if_neg happ, Confined.run_bind, bind_of_ok (indexerClient_run hclient w),
      Confined.run_bind, bind_of_ok hclock]
    unfold AccountScanCall.run scanCall
    show ((Proc.attempt _ _).1.map _, _) = _
    unfold Proc.attempt
    dsimp only
    rcases fetchOptedInAccountsCachedWith c.env.fuel .refresh r.cacheLifetimeSecs
      (c.env.unixSecs w.moment) (r.ingest c.env.base64) _ _ _ _ with ⟨⟨⟩ | e | v, m, w'⟩
    · rfl
    · rfl
    · rfl
  unfold resolve
  have henv : env.run c w = (.ok c.env, w) := rfl
  rw [Confined.run_bind, bind_of_ok henv, Confined.run_bind, bind_apply, hscan]
  unfold reading after
  rcases (r.scanCall c client w).run (r.ingest c.env.base64) r.scan with ⟨⟨⟩ | e | v, m, w'⟩
  · rfl
  · rfl
  · rfl

end EndpointResolver

/-! ## Runs -/

variable {S : StateHistory} {c : Session} {client : Indexer}

/-- `ResolverRun S c client height r`: a sequence of resolves, each in a world of its own and ended
in whatever way, takes a new resolver to `r` while the chain grows to `height`. The indexer keeps its
contract, and every call is steady. -/
inductive ResolverRun (S : StateHistory) (c : Session) (client : Indexer) :
    ℕ → EndpointResolver → Prop
  | new (appId : ℕ) (cacheLifetimeSecs : Option ℕ) (endpointKey : String) (isNode : NodeDecoder) :
      ResolverRun S c client 0 (.new appId cacheLifetimeSecs endpointKey isNode)
  | grow {height height' : ℕ} {r : EndpointResolver} (h : ResolverRun S c client height r)
      (hle : height ≤ height') : ResolverRun S c client height' r
  | resolve {height height' : ℕ} {r : EndpointResolver} (h : ResolverRun S c client height r)
      (hle : height ≤ height') (w : World)
      (hserved : (r.scanCall c client w).Served S height' r.scan.value)
      (hsteady : (r.scanCall c client w).Steady S height' r.scan.value) :
      ResolverRun S c client height' (r.after c.env.base64 (r.scanCall c client w))

/-- A run of a resolver is a run of its scan. -/
theorem ResolverRun.scan {height : ℕ} {r : EndpointResolver} (h : ResolverRun S c client height r) :
    AccountScanRun S (r.ingest c.env.base64) (@AccountScanCall.Steady World EndpointRecord) height
      r.scan := by
  induction h with
  | new appId cacheLifetimeSecs endpointKey isNode => exact .new
  | grow _ hle ih => exact ih.grow hle
  | resolve _ hle w hserved hsteady ih => exact ih.call hle _ hserved hsteady

/-- What a resolve says about the chain at `height`, with the watermark at `watermark`: a node for
each address, from the state of the account with it after some round; and for an account that has
not changed since the watermark, the node that its present state makes it. -/
structure Resolved (S : StateHistory) (keep : ScannedAccount → Option EndpointRecord)
    (height watermark : ℕ) (nodes : List (String × EndpointRecord)) : Prop where
  distinct : (nodes.map Prod.fst).Nodup
  sourced : Sourced S keep height nodes
  current : ∀ address, S.Unchanged address watermark height → ∀ record,
    (address, record) ∈ nodes ↔ (S.account height address).bind keep = some record

/-- What a resolve returns at the end of any run is the present set of the application's nodes, but
for accounts that have changed since the watermark; and these are nodes only as they once were. -/
theorem ResolverRun.resolves {height height' : ℕ} {r r' : EndpointResolver}
    (h : ResolverRun S c client height r) (hclient : c.indexer = .ok client)
    (happ : r.appId ≠ 0) (hle : height ≤ height') (w : World)
    (hserved : (r.scanCall c client w).Served S height' r.scan.value)
    (hsteady : (r.scanCall c client w).Steady S height' r.scan.value)
    {nodes : List (String × EndpointRecord)}
    (hok : (r.resolve.run c w).1 = .ok (.ok nodes, r')) :
    ResolverRun S c client height' r' ∧ r'.scan.value.lastRound ≤ height' ∧
      Resolved S (r.ingest c.env.base64) height' r'.scan.value.lastRound nodes := by
  have hread := EndpointResolver.resolve_run happ hclient w
  rw [hok] at hread
  -- the engine succeeded, and its mutex was read
  unfold EndpointResolver.reading at hread
  rcases hran : ((r.scanCall c client w).run (r.ingest c.env.base64) r.scan).1 with ⟨⟩ | e | v
  · simp only [hran] at hread
    have hsound : (r.after c.env.base64 (r.scanCall c client w)).scan.poisoned = false :=
      AccountScanCall.sound_of_ok hran
    rw [hsound] at hread
    simp only [Bool.false_eq_true, if_false, Outcome.ok.injEq, Prod.mk.injEq,
      Except.ok.injEq] at hread
    obtain ⟨hnodes, hafter⟩ := hread
    have hrun : ResolverRun S c client height' r' := by
      rw [hafter]
      exact h.resolve hle w hserved hsteady
    have hpos : 0 < r'.scan.value.lastRound := by
      rw [hafter]
      exact AccountScanCall.lastRound_pos rfl hserved hran
    -- a resolve changes the scan and nothing of what it is asked with
    have hkeep : r'.ingest c.env.base64 = r.ingest c.env.base64 := by
      rw [hafter]
      rfl
    have hscan := hrun.scan
    have hinv := hscan.inv
    rw [hkeep] at hscan hinv
    rw [← hafter] at hnodes
    rw [hnodes]
    refine ⟨hrun, hinv.reached, hinv.distinct, hscan.sourced, fun address hun record => ?_⟩
    rw [mem_iff_lookup hinv.distinct]
    show r'.scan.value.entries.lookup address = some record ↔ _
    rw [hinv.current hpos address hun]
  · simp [hran] at hread
  · simp [hran] at hread

/-! ## What an account publishes -/

namespace EndpointRecord

/-- The flags of a record are below the first symbol of a base64 text. -/
theorem encode_head (r : EndpointRecord) :
    (r.encode Base64.standard).toList.head? = some 'A' := by
  have hflags : r.flags.toNat / 4 = 0 := by
    unfold flags
    rcases r.v4.isSome with _ | _ <;> rcases r.v6.isSome with _ | _ <;> decide
  have hhead : ∀ (f : UInt8) (rest : Bytes),
      (Base64.Standard.encodeChars (f :: rest)).head? = some (Base64.Standard.symbol (f.toNat / 4)) := by
    intro f rest
    rcases rest with _ | ⟨b, _ | ⟨c, rest⟩⟩ <;> rfl
  show (String.ofList (Base64.Standard.encodeChars r.toBytes)).toList.head? = _
  rw [String.toList_ofList, toBytes, hhead, hflags]
  rfl

/-- A text in decimal or in hexadecimal is no record's. -/
theorem decode_of_head {s : String} {ch : Char} (hhead : s.toList.head? = some ch) (hne : ch ≠ 'A') :
    decode Base64.standard s = none := by
  rcases hdecode : decode Base64.standard s with _ | r
  · rfl
  · have hr := encode_head r
    rw [encode_of_decode hdecode, hhead] at hr
    exact absurd (Option.some.inj hr) hne

theorem hexText_head (b : Bytes) (hex : String) {ch : Char} (h : hex.toList.head? = some ch) :
    (b.foldl (fun hex byte => hex ++ hexByte byte) hex).toList.head? = some ch := by
  induction b generalizing hex with
  | nil => exact h
  | cons byte b ih =>
    apply ih
    rw [String.toList_append, List.head?_append, h]
    rfl

/-- Only a byte string is read as a record: the text of the record itself. -/
theorem decode_text_iff {v : TealValue} {r : EndpointRecord} :
    decode Base64.standard v.text = some r ↔
      v = .bytes (utf8 (r.encode Base64.standard)) ∧ r.Built ∧ r.onWire = r := by
  constructor
  · intro h
    obtain ⟨b, -, hread⟩ := Option.bind_eq_some_iff.mp h
    have hwire := (toBytes_of_fromBytes hread).2
    refine ⟨?_, hwire⟩
    rcases v with n | b
    · -- a decimal number starts with a digit
      have hdigits : (toString n.toNat).toList = Nat.toDigits 10 n.toNat := Nat.toList_repr
      rcases hlist : Nat.toDigits 10 n.toNat with _ | ⟨d, rest⟩
      · exact absurd hlist Nat.toDigits_ne_nil
      · have hmem : d ∈ Nat.toDigits 10 n.toNat := by
          rw [hlist]
          exact List.mem_cons_self
        have hdigit : d.isDigit = true :=
          Nat.isDigit_of_mem_toDigits (by decide) (by decide) hmem
        have hhead : (TealValue.uint n).text.toList.head? = some d := by
          show (toString n.toNat).toList.head? = _
          rw [hdigits, hlist]
          rfl
        rw [decode_of_head hhead (by rintro rfl; exact absurd hdigit (by decide))] at h
        exact absurd h (by simp)
    · rcases htext : fromUtf8 b with _ | s
      · -- the hexadecimal form starts with a zero
        have hhead : (TealValue.bytes b).text.toList.head? = some '0' := by
          show (textOfBytes b).toList.head? = _
          unfold textOfBytes
          rw [htext]
          exact hexText_head b "0x" rfl
        rw [decode_of_head hhead (by decide)] at h
        exact absurd h (by simp)
      · have hs : (TealValue.bytes b).text = s := by
          show textOfBytes b = s
          rw [textOfBytes, htext]
        rw [hs] at h
        rw [encode_of_decode h, fromUtf8_eq_some_iff.mp htext]
  · rintro ⟨rfl, hbuilt, hwire⟩
    show decode Base64.standard (textOfBytes (utf8 _)) = _
    rw [textOfBytes, fromUtf8_utf8]
    dsimp only
    rw [decode_encode _ hbuilt, hwire]

end EndpointRecord

/-- The account's local state makes it a node with this record: an entry that reads as a number
under the allow key has the bit, and the first entry under the endpoint key is the byte string of
the record's text. -/
def Advertises (allowKey : String) (bit : UInt8) (endpointKey : String) (st : LocalState)
    (record : EndpointRecord) : Prop :=
  (∃ e ∈ st.entries, ∃ n, ReadsAs Base64.standard allowKey n e ∧
    n.toNat.testBit (bit.toNat % 64) = true) ∧
  ∃ e, st.entries.find? (fun e => keyText Base64.standard e.key = endpointKey) = some e ∧
    e.value = .bytes (utf8 (record.encode Base64.standard)) ∧ record.Built ∧ record.onWire = record

/-- What a scan keeps of an account is what its local state on chain makes it. -/
theorem decodeNodeEndpoint_iff {overflowChecks : Bool} {bit : UInt8}
    (hshift : ¬ (overflowChecks = true ∧ 64 ≤ bit)) (form : BytesForm) (allowKey endpointKey : String)
    (address : String) (st : LocalState) (record : EndpointRecord) :
    decodeNodeEndpoint Base64.standard (.ofBit overflowChecks allowKey bit hshift) endpointKey
        ⟨address, decodeStateEntries Base64.standard (st.toJson Base64.standard form)⟩ = some record ↔
      Advertises allowKey bit endpointKey st record := by
  have hnode : (NodeDecoder.ofBit overflowChecks allowKey bit hshift).isNode
      (decodeStateEntries Base64.standard (st.toJson Base64.standard form)) = true ↔
      bitDecoder overflowChecks allowKey bit
        (decodeStateEntries Base64.standard (st.toJson Base64.standard form)) = .ok true := by
    obtain ⟨permitted, hanswer⟩ := (NodeDecoder.ofBit overflowChecks allowKey bit hshift).answers
      (decodeStateEntries Base64.standard (st.toJson Base64.standard form))
    unfold NodeDecoder.isNode
    rw [hanswer]
    show permitted = true ↔ (NodeDecoder.ofBit overflowChecks allowKey bit hshift).decoder _ = _
    rw [hanswer, Outcome.ok.injEq]
  have hvalue : ((decodeStateEntries Base64.standard (st.toJson Base64.standard form)).find?
        fun kv => kv.1 = endpointKey)
      = (st.entries.find? fun e => keyText Base64.standard e.key = endpointKey).map
        (TealEntry.flat Base64.standard) := by
    rw [decodeStateEntries_toJson, List.find?_map]
    rfl
  have hbit : bitDecoder overflowChecks allowKey bit
      (decodeStateEntries Base64.standard (st.toJson Base64.standard form)) = .ok true ↔ _ :=
    bitDecoder_ok_true_iff hshift
  unfold decodeNodeEndpoint Advertises
  rw [← hbit, ← hnode]
  dsimp only
  rw [hvalue]
  -- the endpoint is looked at only for an account that is permitted
  by_cases hpermitted : (NodeDecoder.ofBit overflowChecks allowKey bit hshift).isNode
      (decodeStateEntries Base64.standard (st.toJson Base64.standard form)) = true
  · rw [hpermitted, Bool.not_true, if_neg (by decide)]
    rcases hfind : st.entries.find? fun e => keyText Base64.standard e.key = endpointKey with _ | e
    · simp [hfind]
    · have htext : EndpointRecord.decode Base64.standard (e.flat Base64.standard).2 = some record ↔ _ :=
        EndpointRecord.decode_text_iff (v := e.value)
      rw [hfind]
      show EndpointRecord.decode Base64.standard (e.flat Base64.standard).2 = some record ↔ _
      rw [htext]
      simp
  · simp [hpermitted]

/-! ## From the chain to the resolver -/

/-- The local state that every account holds for the application, after every round. -/
abbrev LocalHistory := ℕ → String → Option LocalState

/-- The states as a scan flattens what a node serves. -/
def LocalHistory.served (chain : LocalHistory) (form : BytesForm) : StateHistory := fun r a =>
  (chain r a).map fun st => decodeStateEntries Base64.standard (st.toJson Base64.standard form)

/-- The account does not change in the rounds after `lo` up to `hi`. -/
def LocalHistory.Unchanged (chain : LocalHistory) (a : String) (lo hi : ℕ) : Prop :=
  ∀ r, lo < r → r ≤ hi → chain r a = chain (r - 1) a

theorem LocalHistory.Unchanged.served {chain : LocalHistory} {a : String} {lo hi : ℕ}
    (h : chain.Unchanged a lo hi) (form : BytesForm) : (chain.served form).Unchanged a lo hi := by
  intro r hlo hhi
  unfold LocalHistory.served
  rw [h r hlo hhi]

/-- What a scan keeps of the account after a round is what it advertises then. -/
theorem LocalHistory.kept_iff {overflowChecks : Bool} {bit : UInt8}
    (hshift : ¬ (overflowChecks = true ∧ 64 ≤ bit)) (chain : LocalHistory) (form : BytesForm)
    (allowKey endpointKey a : String) (r : ℕ) (record : EndpointRecord) :
    ((chain.served form).account r a).bind (decodeNodeEndpoint Base64.standard
        (.ofBit overflowChecks allowKey bit hshift) endpointKey) = some record ↔
      ∃ st, chain r a = some st ∧ Advertises allowKey bit endpointKey st record := by
  unfold StateHistory.account LocalHistory.served
  rcases chain r a with _ | st
  · simp
  · simp only [Option.map_some, Option.bind_some, Option.some.injEq, exists_eq_left']
    exact decodeNodeEndpoint_iff hshift form allowKey endpointKey a st record

/-- What is resolved is what accounts advertise, where the scan keeps what makes them nodes. -/
theorem Resolved.published {chain : LocalHistory} {form : BytesForm} {overflowChecks : Bool}
    {allowKey endpointKey : String} {bit : UInt8} (hshift : ¬ (overflowChecks = true ∧ 64 ≤ bit))
    {keep : ScannedAccount → Option EndpointRecord} {watermark height : ℕ}
    {nodes : List (String × EndpointRecord)}
    (hkeep : keep = decodeNodeEndpoint Base64.standard
      (.ofBit overflowChecks allowKey bit hshift) endpointKey)
    (h : Resolved (chain.served form) keep height watermark nodes) :
    (nodes.map Prod.fst).Nodup ∧
      (∀ a record, (a, record) ∈ nodes → ∃ round ≤ height, ∃ st,
        chain round a = some st ∧ Advertises allowKey bit endpointKey st record) ∧
      ∀ a, chain.Unchanged a watermark height → ∀ record,
        (a, record) ∈ nodes ↔ ∃ st,
          chain height a = some st ∧ Advertises allowKey bit endpointKey st record := by
  rw [hkeep] at h
  refine ⟨h.distinct, fun a record hmem => ?_, fun a hun record => ?_⟩
  · obtain ⟨round, hround, hkept⟩ := h.sourced _ hmem
    exact ⟨round, hround, (chain.kept_iff hshift form allowKey endpointKey a round record).mp hkept⟩
  · rw [h.current a (hun.served form) record]
    exact chain.kept_iff hshift form allowKey endpointKey a height record

namespace OneNode

def record : EndpointRecord := ⟨some ⟨⟨[127, 0, 0, 1], rfl⟩, 4001⟩, none⟩

/-- The node's local state: its allow bits and its endpoint. -/
def localState : LocalState where
  entries := [⟨utf8 "allow_static", .uint 4⟩,
    ⟨utf8 "rsvd_l_b1", .bytes (utf8 (record.encode Base64.standard))⟩]
  keys_nodup := by decide +kernel

/-- The node `A` opts in in round 1. -/
def chain : LocalHistory := fun r a => if a = "A" ∧ 1 ≤ r then some localState else none

/-- An indexer that lists the node's account. -/
def indexer : Indexer where
  searchForTransactions := fun _ _ => .never
  searchForAccounts := fun _ _ =>
    let accountJson : Json := .obj
      [("address", .str "A"),
        ("apps-local-state", .arr
          [.obj [("id", .int 5),
            ("key-value", .arr (localState.toJson Base64.standard .text))]])]
    .done 0 (.ok { items := [.ok accountJson], nextToken := none, currentRound := 1 })
  lookupAccountById := fun _ _ _ => .never

/-- A client of it with a passphrase. -/
def finder (keys : KeyPrims) (passphrase : Option String) : Session where
  ops := { (LocalNode.session LocalNode.silent).ops with passphrase }
  env := { (LocalNode.session LocalNode.silent).env with
    keys, newIndexer := fun _ _ => .ok indexer, fuel := 1 }

variable (keys : KeyPrims) (passphrase : Option String)

theorem shifts : ¬ (true = true ∧ (64 : UInt8) ≤ 2) := by decide

def resolver : EndpointResolver :=
  .new 5 none "rsvd_l_b1" (.ofBit true "allow_static" 2 shifts)

/-- The one page of a scan. -/
def page : AccountScanPage where
  accounts := [⟨"A", decodeStateEntries Base64.standard (localState.toJson Base64.standard .text)⟩]
  nextToken := none
  currentRound := 1

theorem pages_eq :
    (resolver.scanCall (finder keys passphrase) indexer (LocalNode.world 9)).full.pages = [page] := by
  rfl

/-- A first scan is a full one. -/
theorem kind_eq : (resolver.scanCall (finder keys passphrase) indexer (LocalNode.world 9)).kind
    resolver.scan.value = some true := rfl

theorem keyText_utf8 (key : String) : keyText Base64.standard (utf8 key) = key := by
  rw [keyText, fromUtf8_utf8]
  rfl

theorem advertises : Advertises "allow_static" 2 "rsvd_l_b1" localState record := by
  have hbuilt : record.Built := EndpointRecord.built_iff.mpr (Or.inl rfl)
  refine ⟨⟨⟨utf8 "allow_static", .uint 4⟩, List.mem_cons_self, 4, ⟨keyText_utf8 _, rfl⟩,
    by decide⟩, ⟨utf8 "rsvd_l_b1", .bytes (utf8 (record.encode Base64.standard))⟩, ?_, rfl, hbuilt,
    rfl⟩
  simp [localState, keyText_utf8]

theorem servesAccounts : ServesAccounts (chain.served .text) (fun _ => 0) 1 [page] := by
  refine ⟨by simp [page], by simp [page], by simp [page], fun i page' hpage acct => ?_⟩
  have hhere : i = 0 ∧ page' = page := by
    rcases i with _ | i
    · exact ⟨rfl, (Option.some.inj hpage).symm⟩
    · simp at hpage
  rw [hhere.1, hhere.2]
  show acct ∈ [_] ↔ 0 = 0 ∧ (chain.served .text).account 1 acct.address = some acct
  unfold StateHistory.account LocalHistory.served chain
  rw [List.mem_singleton]
  constructor
  · rintro rfl
    exact ⟨rfl, by simp⟩
  · rintro ⟨-, hacct⟩
    by_cases haddress : acct.address = "A"
    · simp [haddress] at hacct
      exact hacct.symm
    · simp [haddress] at hacct

theorem served : (resolver.scanCall (finder keys passphrase) indexer (LocalNode.world 9)).Served
    (chain.served .text) 1 resolver.scan.value := by
  refine ⟨fun _ => ⟨fun _ => 0, ?_, fun _ _ => ?_⟩, fun hkind => ?_, fun hkind => ?_⟩
  · rw [pages_eq]
    exact servesAccounts
  · rw [pages_eq]
    exact Nat.one_pos
  · rw [kind_eq] at hkind
    exact absurd hkind (by decide)
  · rw [kind_eq] at hkind
    exact absurd hkind (by decide)

theorem steady : (resolver.scanCall (finder keys passphrase) indexer (LocalNode.world 9)).Steady
    (chain.served .text) 1 resolver.scan.value := by
  refine ⟨Nat.succ_pos 86399, fun hkind => ?_⟩
  rw [kind_eq] at hkind
  exact absurd hkind (by decide)

end OneNode

end BlockchainOps.Tls
