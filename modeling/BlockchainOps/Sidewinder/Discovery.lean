import BlockchainOps.Sidewinder.NodeTransport
import BlockchainOps.Tls.Resolver

/-!
# Discovering a node and connecting to it

Given an application, a client resolves the endpoints of its permitted cluster nodes and connects to
the first one over TLS, pinning the identity that published the endpoint. The resolver is made for
the one resolve, so its scan is a full one.

`resolveAndConnect_ends` says how that can end: with a client that talks to the address of a node
that was permitted when it published it, and to no other identity, or with an error that says what
is missing.
-/

namespace BlockchainOps.Sidewinder

open Effect Proc Tls
open Algo (Client Session World Indexer StateHistory)

/-! ## Addresses as texts -/

/-- `Display` of an IPv4 address. -/
def displayIpv4 (ip : Bytes) : String := ".".intercalate (ip.map fun byte => toString byte.toNat)

/-- The eight segments of an IPv6 address. -/
def segments : Bytes → List ℕ
  | hi :: lo :: rest => (hi.toNat * 256 + lo.toNat) :: segments rest
  | _ => []

/-- A run of zero segments. -/
structure Span where
  start : ℕ
  len : ℕ
deriving DecidableEq, Repr

/-- The first of the longest runs of zero segments. -/
def longestZeros (segments : List ℕ) : Span :=
  (segments.zipIdx.foldl (fun (longest, current) (segment, i) =>
    if segment = 0 then
      let current : Span := ⟨if current.len = 0 then i else current.start, current.len + 1⟩
      (if longest.len < current.len then current else longest, current)
    else (longest, ⟨0, 0⟩)) ((⟨0, 0⟩ : Span), (⟨0, 0⟩ : Span))).1

/-- Segments in hexadecimal, joined. -/
def fmtSegments (segments : List ℕ) : String :=
  ":".intercalate (segments.map fun segment => String.ofList (Nat.toDigits 16 segment))

/-- `Display` of an IPv6 address: one that stands for an IPv4 address shows it, and the first of the
longest runs of more than one zero is left out. -/
def displayIpv6 (ip : Bytes) : String :=
  if ip.take 12 = [0, 0, 0, 0, 0, 0, 0, 0, 0, 0, 0xff, 0xff] then
    s!"::ffff:{displayIpv4 (ip.drop 12)}"
  else
    let zeros := longestZeros (segments ip)
    if 1 < zeros.len then
      s!"{fmtSegments ((segments ip).take zeros.start)}::" ++
        fmtSegments ((segments ip).drop (zeros.start + zeros.len))
    else fmtSegments (segments ip)

/-- `Display` of a socket address; an IPv6 address is in brackets, with its scope if it has one. -/
def displaySocketAddr : SocketAddr → String
  | .v4 addr => s!"{displayIpv4 addr.ip.1}:{addr.port.toNat}"
  | .v6 addr =>
    if addr.scopeId = 0 then s!"[{displayIpv6 addr.ip.1}]:{addr.port.toNat}"
    else s!"[{displayIpv6 addr.ip.1}%{addr.scopeId.toNat}]:{addr.port.toNat}"

example : displaySocketAddr (.v6
    ⟨⟨[0xfe, 0x80, 0, 0, 0, 0, 0, 0, 0, 0, 0, 1, 0, 0, 0, 0x2a], rfl⟩, 443, 0, 0⟩)
      = "[fe80::1:0:2a]:443" := by
  decide +kernel

/-- The addresses of a record in the order in which a client tries them. -/
def socketAddrs (r : EndpointRecord) : List SocketAddr :=
  (r.v4.map SocketAddr.v4).toList ++ (r.v6.map SocketAddr.v6).toList

/-! ## Discovery -/

/-- How to discover the cluster nodes of an application. -/
structure DiscoveryConfig where
  appId : ℕ
  allowKey : String
  nodeBit : UInt8
  endpointKey : String
  cacheLifetimeSecs : Option ℕ
deriving DecidableEq, Repr

/-- The schema of the Bingle contract. -/
def DiscoveryConfig.bingle (appId : ℕ) : DiscoveryConfig where
  appId
  allowKey := "allow_static"
  nodeBit := 2
  endpointKey := "rsvd_l_b1"
  cacheLifetimeSecs := none

/-- The shift to the node bit is defined in the build. -/
def DiscoveryConfig.Shifts (cfg : DiscoveryConfig) (overflowChecks : Bool) : Prop :=
  ¬ (overflowChecks = true ∧ 64 ≤ cfg.nodeBit)

theorem DiscoveryConfig.bingle_shifts (appId : ℕ) (overflowChecks : Bool) :
    (DiscoveryConfig.bingle appId).Shifts overflowChecks :=
  fun h => absurd h.2 (show ¬ (64 : UInt8) ≤ 2 by decide)

structure DiscoveredNode where
  identity : String
  endpoint : EndpointRecord
deriving DecidableEq, Repr

def DiscoveredNode.ofPair (pair : String × EndpointRecord) : DiscoveredNode := ⟨pair.1, pair.2⟩

/-- The URL of the node's first address. -/
def DiscoveredNode.baseUrl (node : DiscoveredNode) : Option String :=
  (socketAddrs node.endpoint).head?.map fun addr => s!"https://{displaySocketAddr addr}"

variable {overflowChecks : Bool}

/-- The resolver for a configuration. -/
def DiscoveryConfig.resolver (cfg : DiscoveryConfig) (h : cfg.Shifts overflowChecks) :
    EndpointResolver :=
  .new cfg.appId cfg.cacheLifetimeSecs cfg.endpointKey
    (.ofBit overflowChecks cfg.allowKey cfg.nodeBit h)

/-- The permitted nodes of an application and their endpoints. -/
def resolveNodes (cfg : DiscoveryConfig) (h : cfg.Shifts overflowChecks) :
    Client (List DiscoveredNode) := do
  let (resolved, _) ← (cfg.resolver h).resolve
  match resolved with
  | .error e => Confined.raise e
  | .ok pairs => pure (pairs.map DiscoveredNode.ofPair)

/-! ## Connecting -/

/-- Connect to a node that was resolved, and pin its identity. -/
def NodeClient.connect (p : CertificatePrims) (draw : ℕ) (keys : Algo.KeyPrims)
    (algo : Algo.AlgoOps) (node : DiscoveredNode) : Except Algo.Error NodeClient := do
  let baseUrl ←
    match node.baseUrl with
    | some baseUrl => .ok baseUrl
    | none => .error (.text s!"resolved node {node.identity} published no reachable endpoint")
  let own ← algo.privateKeyBytes keys
  let tls ← pinnedClientConfig p draw own node.identity
  .ok (.mtls algo baseUrl tls)

/-- Connect to a node at a known place, and pin its identity; no node is asked for it. -/
def NodeClient.connectPinned (p : CertificatePrims) (draw : ℕ) (keys : Algo.KeyPrims)
    (algo : Algo.AlgoOps) (baseUrl nodeIdentity : String) : Except Algo.Error NodeClient := do
  let own ← algo.privateKeyBytes keys
  let tls ← pinnedClientConfig p draw own nodeIdentity
  .ok (.mtls algo baseUrl tls)

/-- The error of a discovery without a node. -/
def noReachableNode (appId : ℕ) : Algo.Error :=
  .text s!"no permitted cluster node of app {appId} has published a reachable endpoint"

/-- Resolve the nodes of an application and connect to the first with an address. -/
def resolveAndConnect (p : CertificatePrims) (draw : ℕ) (cfg : DiscoveryConfig)
    (h : cfg.Shifts overflowChecks) : Client (NodeClient × DiscoveredNode) := do
  let nodes ← resolveNodes cfg h
  match nodes.find? fun node => node.baseUrl.isSome with
  | none => Confined.raise (noReachableNode cfg.appId)
  | some node =>
    let client ← Confined.lift fun c => NodeClient.connect p draw c.env.keys c.ops node
    pure (client, node)

/-! ## How connecting ends -/

/-- A client that is pinned to a node: it talks to the node's first address, over TLS in which it
accepts exactly the certificates that bind the node's identity, and never sends a bearer token. -/
structure PinnedTo (p : CertificatePrims) (algo : Algo.AlgoOps) (node : DiscoveredNode)
    (client : NodeClient) : Prop where
  handle : client.algo = algo
  address : ∃ addr, (socketAddrs node.endpoint).head? = some addr ∧
    client.config.baseUrl = s!"https://{displaySocketAddr addr}"
  identity : ∃ tls, client.tls = some tls ∧ ∀ cert, tls.Accepts p cert ↔
    ∃ x key signature, Binds p.toIdentityPrims cert x key signature node.identity
  tokenless : ∀ method path body authenticated timeout,
    (client.request method path body authenticated timeout).bearer = none

variable {p : CertificatePrims} {draw : ℕ} {keys : Algo.KeyPrims} {algo : Algo.AlgoOps}
  {node : DiscoveredNode}

theorem NodeClient.bearer_mtls (algo : Algo.AlgoOps) (baseUrl : String) (tls : ClientConfig)
    (method : Method) (path : String) (body : Option Bytes) (authenticated : Bool)
    (timeout : Option Algo.Duration) :
    ((NodeClient.mtls algo baseUrl tls).request method path body authenticated timeout).bearer
      = none := by
  cases authenticated <;> rfl

/-- Why a handle has no credential for a node: it has no seed, or no TLS configuration can be made
with it. -/
def NoCredential (p : CertificatePrims) (draw : ℕ) (keys : Algo.KeyPrims) (algo : Algo.AlgoOps)
    (node : DiscoveredNode) (e : Algo.Error) : Prop :=
  algo.privateKeyBytes keys = .error e ∨
    ∃ own, algo.privateKeyBytes keys = .ok own ∧
      pinnedClientConfig p draw own node.identity = .error e

/-- A node with an address is connected to unless there is no credential. -/
theorem NodeClient.connect_cases (hreachable : node.baseUrl.isSome = true) :
    (∃ client, NodeClient.connect p draw keys algo node = .ok client ∧ PinnedTo p algo node client) ∨
      ∃ e, NodeClient.connect p draw keys algo node = .error e ∧ NoCredential p draw keys algo node e := by
  unfold NodeClient.connect
  rcases hurl : node.baseUrl with _ | baseUrl
  · rw [hurl] at hreachable
    exact absurd hreachable (by decide)
  · obtain ⟨addr, haddr, hbase⟩ := Option.map_eq_some_iff.mp hurl
    rcases hown : algo.privateKeyBytes keys with e | own
    · exact Or.inr ⟨e, rfl, Or.inl hown⟩
    · rcases htls : pinnedClientConfig p draw own node.identity with e | tls
      · refine Or.inr ⟨e, ?_, Or.inr ⟨own, hown, htls⟩⟩
        simp [htls, bind, Except.bind]
      · refine Or.inl ⟨.mtls algo baseUrl tls, ?_, rfl, ⟨addr, haddr, hbase.symm⟩,
          ⟨tls, rfl, accepts_iff htls⟩, fun _ _ _ _ _ => NodeClient.bearer_mtls _ _ _ _ _ _ _ _⟩
        simp [htls, bind, Except.bind]

/-- A record that a node published has an address. -/
theorem baseUrl_isSome_of_built (h : node.endpoint.Built) : node.baseUrl.isSome = true := by
  unfold DiscoveredNode.baseUrl socketAddrs
  rcases EndpointRecord.built_iff.mp h with h4 | h6
  · obtain ⟨addr, haddr⟩ := Option.isSome_iff_exists.mp h4
    rw [haddr]
    rfl
  · obtain ⟨addr, haddr⟩ := Option.isSome_iff_exists.mp h6
    rw [haddr]
    rcases node.endpoint.v4 with _ | addr4
    · rfl
    · rfl

section Ends

variable {chain : LocalHistory} {form : Algo.BytesForm} {c : Session} {indexer : Indexer}
  {cfg : DiscoveryConfig} {h : cfg.Shifts overflowChecks} {height : ℕ} {w : World}

/-- The scan that a discovery makes. -/
def DiscoveryConfig.scanCall (cfg : DiscoveryConfig) (h : cfg.Shifts overflowChecks) (c : Session)
    (indexer : Indexer) (w : World) : Algo.AccountScanCall World :=
  (cfg.resolver h).scanCall c indexer w

/-- The round that the scan has seen every account at or after. -/
def DiscoveryConfig.watermark (cfg : DiscoveryConfig) (h : cfg.Shifts overflowChecks) (c : Session)
    (indexer : Indexer) (w : World) : ℕ :=
  ((cfg.resolver h).after c.env.base64 (cfg.scanCall h c indexer w)).scan.value.lastRound

/-- The account was permitted as a node and published the record, after some round. -/
def Published (chain : LocalHistory) (cfg : DiscoveryConfig) (height : ℕ) (node : DiscoveredNode) :
    Prop :=
  ∃ round ≤ height, ∃ st, chain round node.identity = some st ∧
    Advertises cfg.allowKey cfg.nodeBit cfg.endpointKey st node.endpoint

/-- The result of the scan. -/
def DiscoveryConfig.scanned (cfg : DiscoveryConfig) (h : cfg.Shifts overflowChecks) (c : Session)
    (indexer : Indexer) (w : World) : Outcome Algo.Error Unit :=
  ((cfg.scanCall h c indexer w).run ((cfg.resolver h).ingest c.env.base64) (.new .new)).1

/-- How resolving and connecting can end, after a scan with the result `scanned` and the watermark
`watermark`, with the chain at `height`. -/
inductive ConnectEnds (p : CertificatePrims) (draw : ℕ) (chain : LocalHistory) (height : ℕ)
    (c : Session) (cfg : DiscoveryConfig) (scanned : Outcome Algo.Error Unit) (watermark : ℕ) :
    Outcome Algo.Error (NodeClient × DiscoveredNode) → Prop
  /-- The client is pinned to a node that published its address. -/
  | connected (client : NodeClient) (node : DiscoveredNode)
      (hpublished : Published chain cfg height node) (hpinned : PinnedTo p c.ops node client) :
      ConnectEnds p draw chain height c cfg scanned watermark (.ok (client, node))
  /-- The scan succeeded, and no account that has not changed since its watermark is a node. -/
  | noNode (hscanned : scanned = .ok ())
      (hnone : ∀ a, chain.Unchanged a watermark height → ∀ st, chain height a = some st →
        ∀ record, ¬ Advertises cfg.allowKey cfg.nodeBit cfg.endpointKey st record) :
      ConnectEnds p draw chain height c cfg scanned watermark (.err (noReachableNode cfg.appId))
  /-- A node was found, but the client has no credential to show it. -/
  | noCredential (node : DiscoveredNode) (e : Algo.Error)
      (hpublished : Published chain cfg height node)
      (hmissing : NoCredential p draw c.env.keys c.ops node e) :
      ConnectEnds p draw chain height c cfg scanned watermark (.err e)
  | scanFailed (e : Algo.Error) (hscanned : scanned = .err e) :
      ConnectEnds p draw chain height c cfg scanned watermark (.err e)
  | scanStopped (v : Stop) (hscanned : scanned = .stop v) :
      ConnectEnds p draw chain height c cfg scanned watermark (.stop v)

theorem resolveNodes_run (happ : cfg.appId ≠ 0) (hindexer : c.indexer = .ok indexer) (w : World) :
    ((resolveNodes cfg h).run c w).1
      = match (cfg.resolver h).reading c.env.base64 (cfg.scanCall h c indexer w) with
        | .ok (.ok pairs, _) => .ok (pairs.map DiscoveredNode.ofPair)
        | .ok (.error e, _) => .err e
        | .err e => .err e
        | .stop v => .stop v := by
  have hread := EndpointResolver.resolve_run (r := cfg.resolver h) happ hindexer w
  unfold resolveNodes
  rw [Confined.run_bind, bind_apply]
  rcases hran : (cfg.resolver h).resolve.run c w with ⟨⟨resolved, r'⟩ | e | v, w'⟩
  · rw [hran] at hread
    rw [DiscoveryConfig.scanCall, ← hread]
    rcases resolved with e | pairs
    · rfl
    · rfl
  · rw [hran] at hread
    rw [DiscoveryConfig.scanCall, ← hread]
  · rw [hran] at hread
    rw [DiscoveryConfig.scanCall, ← hread]

/-- The nodes that the scan leaves in the resolver's cache. -/
def DiscoveryConfig.found (cfg : DiscoveryConfig) (h : cfg.Shifts overflowChecks) (c : Session)
    (indexer : Indexer) (w : World) : List (String × EndpointRecord) :=
  ((cfg.resolver h).after c.env.base64 (cfg.scanCall h c indexer w)).scan.value.entries

/-- A resolve whose scan succeeds reads what the scan leaves. -/
theorem reading_of_ok (hscanned : cfg.scanned h c indexer w = .ok ()) :
    (cfg.resolver h).reading c.env.base64 (cfg.scanCall h c indexer w)
      = .ok (.ok (cfg.found h c indexer w),
        (cfg.resolver h).after c.env.base64 (cfg.scanCall h c indexer w)) := by
  have hsound : ((cfg.resolver h).after c.env.base64 (cfg.scanCall h c indexer w)).scan.poisoned
      = false := Algo.AccountScanCall.sound_of_ok hscanned
  have hran : ((cfg.scanCall h c indexer w).run ((cfg.resolver h).ingest c.env.base64)
      (cfg.resolver h).scan).1 = .ok () := hscanned
  unfold EndpointResolver.reading
  rw [hran, hsound]
  rfl

/-- What a discovery resolves: what the scan leaves, or the error that it ends in. -/
theorem resolveNodes_scanned (happ : cfg.appId ≠ 0) (hindexer : c.indexer = .ok indexer)
    (w : World) :
    ((resolveNodes cfg h).run c w).1
      = (cfg.scanned h c indexer w).map fun _ =>
        (cfg.found h c indexer w).map DiscoveredNode.ofPair := by
  rw [resolveNodes_run happ hindexer w]
  rcases hscanned : cfg.scanned h c indexer w with ⟨⟩ | e | v
  · rw [reading_of_ok hscanned]
    rfl
  · have hran : ((cfg.scanCall h c indexer w).run ((cfg.resolver h).ingest c.env.base64)
        (cfg.resolver h).scan).1 = .err e := hscanned
    unfold EndpointResolver.reading
    rw [hran]
    rfl
  · have hran : ((cfg.scanCall h c indexer w).run ((cfg.resolver h).ingest c.env.base64)
        (cfg.resolver h).scan).1 = .stop v := hscanned
    unfold EndpointResolver.reading
    rw [hran]
    rfl

/-- The nodes found, and what is not among them. -/
theorem found_spec (hbase64 : c.env.base64 = Base64.standard) (hindexer : c.indexer = .ok indexer)
    (happ : cfg.appId ≠ 0) (hclock : 0 < c.env.unixSecs w.moment)
    (hserved : (cfg.scanCall h c indexer w).Served (chain.served form) height
      (Algo.AccountScanCache.new : Algo.AccountScanCache EndpointRecord))
    (hscanned : cfg.scanned h c indexer w = .ok ()) :
    (∀ node ∈ (cfg.found h c indexer w).map DiscoveredNode.ofPair, Published chain cfg height node) ∧
      ∀ a, chain.Unchanged a (cfg.watermark h c indexer w) height → ∀ st, chain height a = some st →
        ∀ record, Advertises cfg.allowKey cfg.nodeBit cfg.endpointKey st record →
          ⟨a, record⟩ ∈ (cfg.found h c indexer w).map DiscoveredNode.ofPair := by
  have hresolve := (EndpointResolver.resolve_run (r := cfg.resolver h) happ hindexer w).trans
    (reading_of_ok hscanned)
  -- the resolver is new, so its scan is a full one
  have hsteady : (cfg.scanCall h c indexer w).Steady (chain.served form) height
      (Algo.AccountScanCache.new : Algo.AccountScanCache EndpointRecord) := by
    refine ⟨hclock, fun hkind => ?_⟩
    have hfull : (cfg.scanCall h c indexer w).kind
        (Algo.AccountScanCache.new : Algo.AccountScanCache EndpointRecord) = some true := rfl
    rw [hfull] at hkind
    exact absurd hkind (by decide)
  have hrun : ResolverRun (chain.served form) c indexer 0 (cfg.resolver h) := .new _ _ _ _
  obtain ⟨-, -, hresolved⟩ :=
    hrun.resolves hindexer happ (Nat.zero_le height) w hserved hsteady hresolve
  have hkeep : (cfg.resolver h).ingest c.env.base64
      = decodeNodeEndpoint Base64.standard (.ofBit overflowChecks cfg.allowKey cfg.nodeBit h)
        cfg.endpointKey := by
    unfold EndpointResolver.ingest
    rw [hbase64]
    rfl
  obtain ⟨-, hsourced, hcurrent⟩ := hresolved.published h hkeep
  constructor
  · intro node hnode
    obtain ⟨pair, hpair, rfl⟩ := List.mem_map.mp hnode
    exact hsourced pair.1 pair.2 hpair
  · intro a hun st hst record hadvertises
    have hpair := (hcurrent a hun record).mpr ⟨st, hst, hadvertises⟩
    exact List.mem_map_of_mem (f := DiscoveredNode.ofPair) hpair

/-- Connecting to a node that was found. -/
theorem connect_run (p : CertificatePrims) (draw : ℕ) (node : DiscoveredNode) (w : World) :
    ((Confined.lift (fun c : Session => NodeClient.connect p draw c.env.keys c.ops node) >>=
        fun client => pure (client, node) : Client (NodeClient × DiscoveredNode)).run c w).1
      = match NodeClient.connect p draw c.env.keys c.ops node with
        | .ok client => .ok (client, node)
        | .error e => .err e := by
  rw [Confined.run_bind]
  rcases hconnect : NodeClient.connect p draw c.env.keys c.ops node with e | client
  · have hlift : (Confined.lift (fun c : Session =>
        NodeClient.connect p draw c.env.keys c.ops node) : Client NodeClient).run c w = (.err e, w) := by
      show ofExcept (NodeClient.connect p draw c.env.keys c.ops node) w = _
      rw [hconnect]
      rfl
    rw [bind_of_err hlift]
  · have hlift : (Confined.lift (fun c : Session =>
        NodeClient.connect p draw c.env.keys c.ops node) : Client NodeClient).run c w = (.ok client, w) := by
      show ofExcept (NodeClient.connect p draw c.env.keys c.ops node) w = _
      rw [hconnect]
      rfl
    rw [bind_of_ok hlift]
    rfl

end Ends

/-! ## A client of one node -/

namespace OneDiscovery

/-- The keys of a client with the seed of `OneIdentity`. -/
def ownKeys : Algo.KeyPrims where
  toAddressPrims := OneIdentity.prims.toAddressPrims
  toSigningPrims := OneIdentity.prims.toSigningPrims
  base32NopadDecode := fun _ => .error "invalid"
  mnemonicToKey := fun _ => .error "invalid mnemonic"
  base64Decode := Base64.standard.decode

/-- The seed of `OneIdentity` in base64. -/
def passphrase : String := "b64:AAECAwQFBgcICQoLDA0ODxAREhMUFRYXGBkaGxwdHh8="

def client : Session := Tls.OneNode.finder ownKeys (some passphrase)

def config : DiscoveryConfig := .bingle 5

theorem shifts : config.Shifts true := DiscoveryConfig.bingle_shifts 5 true

theorem privateKeyBytes_eq : client.ops.privateKeyBytes client.env.keys = .ok OneIdentity.seed := by
  show Algo.seedFromPassphrase ownKeys passphrase = .ok OneIdentity.seed
  decide +kernel

/-- The client has a credential for every node. -/
theorem credential (node : DiscoveredNode) (e : Algo.Error) :
    ¬ NoCredential OneIdentity.prims 0 client.env.keys client.ops node e := by
  have haccept : OneIdentity.prims.acceptClientAuth OneIdentity.minted.cert OneIdentity.minted.key
      = .ok () := by
    simp only [OneIdentity.prims]
  have htls := pinnedClientConfig_of OneIdentity.generate_eq haccept node.identity
  rintro (hown | ⟨own, hown, hnot⟩)
  · rw [privateKeyBytes_eq] at hown
    exact absurd hown (by simp)
  · rw [privateKeyBytes_eq] at hown
    rw [← Except.ok.inj hown, htls] at hnot
    exact absurd hnot (by simp)

end OneDiscovery

end BlockchainOps.Sidewinder
