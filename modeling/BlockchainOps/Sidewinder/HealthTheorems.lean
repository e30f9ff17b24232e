import BlockchainOps.Sidewinder.Health

/-!
# What the health probe reads, and how it ends

The command line is a sequence of flags with a value each (`parseArgs_iff`), and the exit code says
what the probe has found (`probe_ends`): a node is healthy only if the pinned identity served a
success.
-/

namespace BlockchainOps.Sidewinder.Health

open Effect Proc Tls

variable {ν : Type}

/-! ## What a command line sets -/

/-- A flag and its value. -/
structure Setting where
  flag : Flag
  value : String
deriving DecidableEq, Repr

def Setting.args (s : Setting) : List String := [s.flag.text, s.value]

/-- The value of an application is a number. -/
def Setting.Valid (s : Setting) : Prop := s.flag = .appId → (parseU64 s.value).isSome = true

/-- The last value of a flag. -/
def last (flag : Flag) (settings : List Setting) : Option String :=
  ((settings.filter fun s => s.flag = flag).getLast?).map Setting.value

/-- Set all of them, in order. -/
def Found.setAll (f : Found) (settings : List Setting) : Except String Found :=
  settings.foldlM (fun f s => f.set s.flag s.value) f

@[simp] theorem last_nil (flag : Flag) : last flag [] = none := rfl

theorem last_cons (flag : Flag) (s : Setting) (settings : List Setting) :
    last flag (s :: settings)
      = (last flag settings).or (if s.flag = flag then some s.value else none) := by
  unfold last
  rw [List.filter_cons]
  split_ifs with h h' h'
  · rw [List.getLast?_cons]
    cases (settings.filter fun s => s.flag = flag).getLast? <;> rfl
  · exact absurd (of_decide_eq_true h) h'
  · exact absurd (decide_eq_true h') h
  · rw [Option.or_none]

/-- What settings have set, of what was set before. -/
@[mk_iff]
structure Sets (f : Found) (settings : List Setting) (g : Found) : Prop where
  nodeIdentity : g.nodeIdentity = (last .nodeIdentity settings).or f.nodeIdentity
  url : g.url = (last .url settings).or f.url
  appId : g.appId = (last .appId settings).elim f.appId parseU64
  parentChain : g.parentChain = (last .parentChain settings).or f.parentChain
  path : g.path = (last .path settings).getD f.path
  mnemonicFile : g.mnemonicFile = (last .mnemonicFile settings).or f.mnemonicFile

theorem sets_nil_iff {f g : Found} : Sets f [] g ↔ g = f := by
  constructor
  · rintro ⟨hnode, hurl, happ, hparent, hpath, hfile⟩
    cases f
    cases g
    simp_all
  · rintro rfl
    exact ⟨rfl, rfl, rfl, rfl, rfl, rfl⟩

/-- To set one more before is to start from what it sets. -/
theorem sets_cons_iff {f f' g : Found} {s : Setting} {settings : List Setting}
    (h : f.set s.flag s.value = .ok f') : Sets f (s :: settings) g ↔ Sets f' settings g := by
  rcases s with ⟨flag, value⟩
  -- only an application id may be refused, and only the path has a default; the others are alike
  cases flag
  case appId =>
    unfold Found.set at h
    dsimp only at h
    rcases hparse : parseU64 value with _ | appId
    · rw [hparse] at h
      exact absurd h (by simp)
    · rw [hparse] at h
      obtain rfl := Except.ok.inj h
      rcases hlast : last .appId settings <;> simp [sets_iff, last_cons, hlast, hparse]
  case path =>
    obtain rfl := Except.ok.inj h
    rcases hlast : last .path settings <;> simp [sets_iff, last_cons, hlast]
  all_goals
    obtain rfl := Except.ok.inj h
    simp [sets_iff, last_cons]

theorem set_isOk_iff (f : Found) (s : Setting) :
    (∃ f', f.set s.flag s.value = .ok f') ↔ s.Valid := by
  unfold Setting.Valid
  rcases s with ⟨flag, value⟩
  cases flag
  case appId =>
    unfold Found.set
    dsimp only
    rcases parseU64 value with _ | n <;> simp
  all_goals simp [Found.set]

theorem setAll_ok_iff {f g : Found} {settings : List Setting} :
    f.setAll settings = .ok g ↔ (∀ s ∈ settings, s.Valid) ∧ Sets f settings g := by
  induction settings generalizing f with
  | nil =>
    rw [sets_nil_iff]
    show Except.ok f = .ok g ↔ _
    simp [eq_comm]
  | cons s settings ih =>
    rw [List.forall_mem_cons, ← set_isOk_iff f s]
    show (f.set s.flag s.value >>= fun f => f.setAll settings) = .ok g ↔ _
    rcases hset : f.set s.flag s.value with message | f'
    · simp [bind, Except.bind]
    · rw [sets_cons_iff hset]
      show f'.setAll settings = .ok g ↔ _
      rw [ih]
      simp

theorem setAll_nil (f : Found) : f.setAll [] = .ok f := rfl

theorem exists_setAll (f : Found) {settings : List Setting} (h : ∀ s ∈ settings, s.Valid) :
    ∃ g, f.setAll settings = .ok g := by
  induction settings generalizing f with
  | nil => exact ⟨f, setAll_nil f⟩
  | cons s settings ih =>
    obtain ⟨f', hset⟩ := (set_isOk_iff f s).mpr (h s List.mem_cons_self)
    obtain ⟨g, hrest⟩ := ih f' fun s hs => h s (List.mem_cons_of_mem _ hs)
    refine ⟨g, ?_⟩
    show (f.set s.flag s.value >>= fun f => f.setAll settings) = .ok g
    rw [hset]
    exact hrest

/-! ## What is accepted -/

theorem ofText_text (flag : Flag) : Flag.ofText flag.text = some flag := by
  cases flag <;> decide

theorem text_of_ofText {arg : String} {flag : Flag} (h : Flag.ofText arg = some flag) :
    flag.text = arg := by
  simpa using List.find?_some h

theorem isHelp_text (flag : Flag) : isHelp flag.text = false := by
  cases flag <;> decide

/-- One setting is read, and then the rest. -/
theorem readFlags_setting (f : Found) (s : Setting) (rest : List String) :
    readFlags f (s.args ++ rest) = match f.set s.flag s.value with
      | .ok f => readFlags f rest
      | .error message => .refused message := by
  show readFlags f (s.flag.text :: s.value :: rest) = _
  rcases hset : f.set s.flag s.value <;> simp [readFlags, isHelp_text, ofText_text, hset]

/-- A command line that starts with settings. -/
theorem readFlags_settings {f g : Found} {settings : List Setting} (h : f.setAll settings = .ok g)
    (rest : List String) :
    readFlags f (settings.flatMap Setting.args ++ rest) = readFlags g rest := by
  induction settings generalizing f with
  | nil =>
    obtain rfl := Except.ok.inj h
    rfl
  | cons s settings ih =>
    have hset : (f.set s.flag s.value >>= fun f => f.setAll settings) = .ok g := h
    obtain ⟨f', hfirst, hrest⟩ := Fallible.bind_eq_ok.mp hset
    rw [List.flatMap_cons, List.append_assoc, readFlags_setting, hfirst]
    exact ih hrest

/-- Where reading stops: at the end, at a request for help, or at what is refused. -/
inductive Reads (f : Found) : List String → Parsed Found → Prop
  | all {settings : List Setting} {g : Found} (set : f.setAll settings = .ok g) :
      Reads f (settings.flatMap Setting.args) (.ok g)
  | help {settings : List Setting} {g : Found} (set : f.setAll settings = .ok g) {arg : String}
      (asks : isHelp arg = true) (rest : List String) :
      Reads f (settings.flatMap Setting.args ++ arg :: rest) .help
  | refused {argv : List String} (message : String) : Reads f argv (.refused message)

theorem Reads.setting {f f' : Found} {s : Setting} (h : f.set s.flag s.value = .ok f')
    {argv : List String} {r : Parsed Found} (hreads : Reads f' argv r) :
    Reads f (s.args ++ argv) r := by
  have hcons : ∀ {settings : List Setting} {g : Found}, f'.setAll settings = .ok g →
      f.setAll (s :: settings) = .ok g := by
    intro settings g hset
    show (f.set s.flag s.value >>= fun f => f.setAll settings) = .ok g
    rw [h]
    exact hset
  cases hreads with
  | all set => exact .all (hcons set)
  | @help settings g set arg asks rest =>
    have hhelp : Reads f ((s :: settings).flatMap Setting.args ++ arg :: rest) .help :=
      .help (hcons set) asks rest
    rwa [List.flatMap_cons, List.append_assoc] at hhelp
  | refused message => exact .refused message

theorem readFlags_reads (f : Found) (argv : List String) : Reads f argv (readFlags f argv) := by
  fun_induction readFlags f argv with
  | case1 f => exact .all (setAll_nil f)
  -- a last argument has no value after it
  | case2 f arg hhelp => exact .help (setAll_nil f) hhelp []
  | case3 f arg hhelp flag hflag => exact .refused _
  | case4 f arg hhelp hflag => exact .refused _
  | case5 f arg value rest hhelp => exact .help (setAll_nil f) hhelp (value :: rest)
  | case6 f arg value rest hhelp flag hflag f' hset ih =>
    have hsetting : f.set (Setting.mk flag value).flag (Setting.mk flag value).value = .ok f' := hset
    rw [← text_of_ofText hflag]
    exact Reads.setting hsetting ih
  | case7 f arg value rest hhelp flag hflag message hset => exact .refused _
  | case8 f arg value rest hhelp hflag => exact .refused _

/-- The arguments that settings give. -/
structure Given (settings : List Setting) (args : Args) : Prop where
  nodeIdentity : last .nodeIdentity settings = some args.nodeIdentity
  url : args.url = last .url settings
  appId : args.appId = last .appId settings >>= parseU64
  parentChain : args.parentChain = last .parentChain settings
  path : args.path = (last .path settings).getD "/health"
  mnemonicFile : args.mnemonicFile = last .mnemonicFile settings
  addressed : args.url.isSome = true ∨ args.appId.isSome = true ∧ args.parentChain.isSome = true

theorem finish_ok_iff {f : Found} {args : Args} :
    f.finish = .ok args ↔ f.nodeIdentity = some args.nodeIdentity ∧ args.url = f.url ∧
      args.appId = f.appId ∧ args.parentChain = f.parentChain ∧ args.path = f.path ∧
      args.mnemonicFile = f.mnemonicFile ∧
      (args.url.isSome = true ∨ args.appId.isSome = true ∧ args.parentChain.isSome = true) := by
  rcases f with ⟨nodeIdentity, url, appId, parentChain, path, mnemonicFile⟩
  rcases args with ⟨node, url', appId', parentChain', path', mnemonicFile'⟩
  unfold Found.finish
  rcases nodeIdentity with _ | nodeIdentity
  · simp
  · rcases url with _ | url <;> rcases appId with _ | appId <;>
      rcases parentChain with _ | parentChain <;> simp <;> grind

/-- The arguments of a command line. -/
theorem given_iff {settings : List Setting} {args : Args} :
    Given settings args ↔ ∃ f, Sets .start settings f ∧ f.finish = .ok args := by
  constructor
  · rintro ⟨hnode, hurl, happ, hparent, hpath, hfile, haddr⟩
    refine ⟨⟨args.nodeIdentity, args.url, args.appId, args.parentChain, args.path,
      args.mnemonicFile⟩, ⟨?_, ?_, ?_, ?_, ?_, ?_⟩, ?_⟩
    · simp [hnode]
    · simp [hurl, Found.start]
    · rw [happ]
      cases last .appId settings <;> rfl
    · simp [hparent, Found.start]
    · exact hpath
    · simp [hfile, Found.start]
    · exact finish_ok_iff.mpr ⟨rfl, rfl, rfl, rfl, rfl, rfl, haddr⟩
  · rintro ⟨f, ⟨hnode, hurl, happ, hparent, hpath, hfile⟩, hfinish⟩
    obtain ⟨hn, hu, ha, hc, hp, hm, haddr⟩ := finish_ok_iff.mp hfinish
    refine ⟨?_, ?_, ?_, ?_, ?_, ?_, haddr⟩
    · rw [← hn, hnode]
      simp [Found.start]
    · simpa [Found.start] using hu.trans hurl
    · rw [ha, happ]
      cases last .appId settings <;> rfl
    · simpa [Found.start] using hc.trans hparent
    · exact hp.trans hpath
    · simpa [Found.start] using hm.trans hfile

/-- Exactly the sequences of settings that name and address a node are read, each flag with its last
value; and help is given exactly where it is asked for after nothing but settings. -/
theorem parseArgs_iff (argv : List String) :
    (∀ args, parseArgs argv = .ok args ↔ ∃ settings : List Setting,
      argv = settings.flatMap Setting.args ∧ (∀ s ∈ settings, s.Valid) ∧ Given settings args) ∧
    (parseArgs argv = .help ↔ ∃ (settings : List Setting) (arg : String) (rest : List String),
      argv = settings.flatMap Setting.args ++ arg :: rest ∧ (∀ s ∈ settings, s.Valid) ∧
        isHelp arg = true) := by
  have hreads := readFlags_reads .start argv
  constructor
  · intro args
    constructor
    · intro h
      -- what is read decides what the arguments are finished from
      unfold parseArgs at h
      generalize readFlags .start argv = read at hreads h
      cases hreads with
      | @all settings f hset =>
        obtain ⟨hvalid, hsets⟩ := setAll_ok_iff.mp hset
        refine ⟨settings, rfl, hvalid, given_iff.mpr ⟨f, hsets, ?_⟩⟩
        rcases hfinish : f.finish with message | args'
        · simp [hfinish] at h
        · simpa [hfinish] using h
      | help hset asks rest => exact absurd h (by simp)
      | refused message => exact absurd h (by simp)
    · intro h
      obtain ⟨settings, rfl, hvalid, hgiven⟩ := h
      obtain ⟨f, hsets, hfinish⟩ := given_iff.mp hgiven
      have hread := readFlags_settings (setAll_ok_iff.mpr ⟨hvalid, hsets⟩) []
      rw [List.append_nil] at hread
      unfold parseArgs
      rw [hread, readFlags]
      dsimp only
      rw [hfinish]
  · constructor
    · intro h
      unfold parseArgs at h
      generalize readFlags .start argv = read at hreads h
      cases hreads with
      | @all settings f hset =>
        rcases hfinish : f.finish <;> simp [hfinish] at h
      | @help settings f hset arg asks rest =>
        exact ⟨settings, arg, rest, rfl, (setAll_ok_iff.mp hset).1, asks⟩
      | refused message => exact absurd h (by simp)
    · intro h
      obtain ⟨settings, arg, rest, rfl, hvalid, hhelp⟩ := h
      obtain ⟨f, hset⟩ := exists_setAll .start hvalid
      unfold parseArgs
      rw [readFlags_settings hset]
      cases rest with
      | nil => rw [readFlags, if_pos hhelp]
      | cons value rest => rw [readFlags, if_pos hhelp]

/-! ## The client of a probe -/

/-- The node that the arguments address: a handle, and the URL to reach the node at. -/
inductive Host.Reaches (h : Host ν) (args : Args) (mnemonic : String) :
    Algo.AlgoOps → String → Prop
  | given {url : String} (url_eq : args.url = some url) :
      Reaches h args mnemonic (.newForAlgorand h.env.keys (some mnemonic) none none) url
  /-- The first node found on chain that has the identity, at its first address. -/
  | found {appId : UInt64} {file : String} {chain : Algo.AlgoChainConfig}
      {nodes : List DiscoveredNode} {node : DiscoveredNode} {addr : SocketAddr}
      (url_eq : args.url = none) (appId_eq : args.appId = some appId)
      (parentChain_eq : args.parentChain = some file) (config : h.loadChainConfig file = .ok chain)
      (resolved : h.nodes mnemonic chain appId = .ok nodes)
      (listed : named args appId nodes = .ok node)
      (address : (socketAddrs node.endpoint).head? = some addr) :
      Reaches h args mnemonic (h.session mnemonic chain).ops s!"https://{displaySocketAddr addr}"

/-- The client that the arguments ask for: it has the account of the mnemonic, talks to the node
that they address, and its TLS configuration pins the identity that they name. -/
structure Host.Probes (h : Host ν) (args : Args) (client : NodeClient) : Prop where
  reaches : ∃ mnemonic, h.loadMnemonic args.mnemonicFile = .ok mnemonic ∧
    h.Reaches args mnemonic client.algo client.config.baseUrl
  pin : ∃ own tls, client.algo.privateKeyBytes h.env.keys = .ok own ∧
    pinnedClientConfig h.certificates h.draw own args.nodeIdentity = .ok tls ∧
    client = .mtls client.algo client.config.baseUrl tls

/-- A client talks over TLS only, in which it accepts exactly the certificates that bind an
identity, and never sends a bearer token. -/
structure Pins (p : CertificatePrims) (identity : String) (client : NodeClient) : Prop where
  identity : ∃ tls, client.tls = some tls ∧ ∀ cert, tls.Accepts p cert ↔
    ∃ x key signature, Binds p.toIdentityPrims cert x key signature identity
  tokenless : ∀ method path body authenticated timeout,
    (client.request method path body authenticated timeout).bearer = none

variable {h : Host ν} {args : Args} {mnemonic : String} {client : NodeClient} {argv : List String}

theorem Host.Probes.pins (hprobes : h.Probes args client) :
    Pins h.certificates args.nodeIdentity client := by
  obtain ⟨own, tls, -, hpinned, hclient⟩ := hprobes.pin
  rw [hclient]
  exact ⟨⟨tls, rfl, accepts_iff hpinned⟩,
    fun _ _ _ _ _ => NodeClient.bearer_mtls _ _ _ _ _ _ _ _⟩

/-- Connecting to a node that was found is connecting to its address. -/
theorem connect_eq {node : DiscoveredNode} {baseUrl : String} (hurl : node.baseUrl = some baseUrl)
    (p : CertificatePrims) (draw : ℕ) (keys : Algo.KeyPrims) (algo : Algo.AlgoOps) :
    NodeClient.connect p draw keys algo node
      = NodeClient.connectPinned p draw keys algo baseUrl node.identity := by
  unfold NodeClient.connect NodeClient.connectPinned
  rw [hurl]
  rfl

/-- With the node addressed, a client is built unless there is none to be built. -/
theorem Host.connectPinned_cases (h : Host ν) (algo : Algo.AlgoOps) (url identity : String) :
    (∃ own tls, algo.privateKeyBytes h.env.keys = .ok own ∧
      pinnedClientConfig h.certificates h.draw own identity = .ok tls ∧
      NodeClient.connectPinned h.certificates h.draw h.env.keys algo url identity
        = .ok (.mtls algo url tls)) ∨
    ∃ e, NodeClient.connectPinned h.certificates h.draw h.env.keys algo url identity = .error e ∧
      ∀ own tls, algo.privateKeyBytes h.env.keys = .ok own →
        pinnedClientConfig h.certificates h.draw own identity ≠ .ok tls := by
  -- the key of the account comes first, then the configuration that it is shown in
  unfold NodeClient.connectPinned
  rcases hown : algo.privateKeyBytes h.env.keys with e | own
  · exact Or.inr ⟨e, rfl, fun own tls h => absurd h (by simp)⟩
  · rcases htls : pinnedClientConfig h.certificates h.draw own identity with e | tls
    · refine Or.inr ⟨e, ?_, ?_⟩
      · simp [htls, bind, Except.bind]
      · intro own' tls hsame
        rw [← Except.ok.inj hsame, htls]
        simp
    · refine Or.inl ⟨own, tls, rfl, htls, ?_⟩
      simp [htls, bind, Except.bind]

/-- There is one place to reach the node at. -/
theorem Host.Reaches.unique {algo algo' : Algo.AlgoOps} {url url' : String}
    (hreach : h.Reaches args mnemonic algo url) (hreach' : h.Reaches args mnemonic algo' url') :
    algo = algo' ∧ url = url' := by
  cases hreach <;> cases hreach' <;> simp_all

theorem identity_of_named {appId : UInt64} {nodes : List DiscoveredNode} {node : DiscoveredNode}
    (hnamed : named args appId nodes = .ok node) : node.identity = args.nodeIdentity := by
  unfold named at hnamed
  rcases hfind : nodes.find? fun node => node.identity = args.nodeIdentity with _ | found
  · rw [hfind] at hnamed
    exact absurd hnamed (by simp)
  · rw [hfind] at hnamed
    rw [← Except.ok.inj hnamed]
    simpa using List.find?_some hfind

/-- How the client is built for a node that is looked up on chain. -/
theorem buildClient_run {appId : UInt64} {file : String} (hurl : args.url = none)
    (happ : args.appId = some appId) (hparent : args.parentChain = some file) (w : NetWorld ν) :
    h.buildClient args mnemonic w = match h.loadChainConfig file with
      | .error e => (.err e, w)
      | .ok chain =>
        match h.nodes mnemonic chain appId with
        | .stop why => (.stop why, w)
        | .err e => (.err (under "resolving node endpoints from the chain" e), w)
        | .ok nodes =>
          match named args appId nodes with
          | .error e => (.err e, w)
          | .ok node =>
            ofExcept ((NodeClient.connect h.certificates h.draw h.env.keys
              (h.session mnemonic chain).ops node).mapError
                (under "building the mutual-TLS client")) w := by
  unfold Host.buildClient
  rw [hurl, happ, hparent]
  dsimp only [expect]
  rw [bind_of_ok (pure_apply _ w), bind_of_ok (pure_apply _ w)]
  rcases h.loadChainConfig file with e | chain
  · rfl
  · show (mapErr _ (ofOutcome (h.nodes mnemonic chain appId)) >>= _) w = _
    dsimp only
    rcases h.nodes mnemonic chain appId with nodes | e | why
    · show (ofExcept (named args appId nodes) >>= _) w = _
      dsimp only
      rcases named args appId nodes with e | node <;> rfl
    · rfl
    · rfl

/-- The client is built for the place where the node is reached. -/
theorem Host.Reaches.buildClient {algo : Algo.AlgoOps} {url : String}
    (hreach : h.Reaches args mnemonic algo url) (w : NetWorld ν) :
    h.buildClient args mnemonic w = ofExcept ((NodeClient.connectPinned h.certificates h.draw
      h.env.keys algo url args.nodeIdentity).mapError (under "building the mutual-TLS client")) w := by
  cases hreach with
  | given hurl =>
    unfold Host.buildClient
    rw [hurl]
  | @found appId file chain nodes node addr hurl happ hparent hconfig hresolved hnamed haddress =>
    have hbase : node.baseUrl = some s!"https://{displaySocketAddr addr}" := by
      unfold DiscoveredNode.baseUrl
      rw [haddress]
      rfl
    rw [buildClient_run hurl happ hparent, hconfig]
    dsimp only
    rw [hresolved]
    dsimp only
    rw [hnamed, ← identity_of_named hnamed, ← connect_eq hbase]

/-- Resolving the address of the node on chain stops. -/
def Host.Stops (h : Host ν) (args : Args) (why : Stop) : Prop :=
  ∃ mnemonic appId file chain, h.loadMnemonic args.mnemonicFile = .ok mnemonic ∧
    args.url = none ∧ args.appId = some appId ∧ args.parentChain = some file ∧
    h.loadChainConfig file = .ok chain ∧ h.nodes mnemonic chain appId = .stop why

/-- A node that is looked up on chain is reached where it is found. -/
theorem Host.Reaches.looked_up {algo : Algo.AlgoOps} {url : String} {appId : UInt64}
    {file : String} (hurl : args.url = none) (happ : args.appId = some appId)
    (hparent : args.parentChain = some file) (hreach : h.Reaches args mnemonic algo url) :
    ∃ chain nodes node addr, h.loadChainConfig file = .ok chain ∧
      h.nodes mnemonic chain appId = .ok nodes ∧ named args appId nodes = .ok node ∧
      (socketAddrs node.endpoint).head? = some addr := by
  cases hreach with
  | given hgiven => exact absurd (hurl.symm.trans hgiven) (by simp)
  | @found appId' file' chain nodes node addr _ happ' hparent' hconfig hresolved hnamed haddress =>
    rw [Option.some.inj (happ.symm.trans happ'), Option.some.inj (hparent.symm.trans hparent')]
    exact ⟨chain, nodes, node, addr, hconfig, hresolved, hnamed, haddress⟩

/-- Arguments that address a node have it reached, or there is no place to reach it at, or the
resolve stops. -/
theorem Host.reaches_cases (h : Host ν)
    (haddressed : args.url.isSome = true ∨ args.appId.isSome = true ∧ args.parentChain.isSome = true)
    (hmnemonic : h.loadMnemonic args.mnemonicFile = .ok mnemonic) (w : NetWorld ν) :
    (∃ algo url, h.Reaches args mnemonic algo url) ∨
    (∃ e, h.buildClient args mnemonic w = (.err e, w) ∧
      ∀ algo url, ¬ h.Reaches args mnemonic algo url) ∨
    ∃ why, h.Stops args why ∧ h.buildClient args mnemonic w = (.stop why, w) := by
  rcases hurl : args.url with _ | url
  · rw [hurl] at haddressed
    obtain ⟨happ, hparent⟩ := haddressed.resolve_left (by decide)
    obtain ⟨appId, happ⟩ := Option.isSome_iff_exists.mp happ
    obtain ⟨file, hparent⟩ := Option.isSome_iff_exists.mp hparent
    -- the lookup on chain stops at its first failure, and nothing is reached then
    have hrun : h.buildClient args mnemonic w = _ := buildClient_run hurl happ hparent w
    -- there is no place to reach the node at where one of the steps of the lookup fails
    have hnowhere : (∀ chain nodes node addr, h.loadChainConfig file = .ok chain →
        h.nodes mnemonic chain appId = .ok nodes → named args appId nodes = .ok node →
        (socketAddrs node.endpoint).head? ≠ some addr) →
        ∀ algo url, ¬ h.Reaches args mnemonic algo url := by
      intro hfails algo url hreach
      obtain ⟨chain, nodes, node, addr, hconfig, hresolved, hnamed, haddress⟩ :=
        hreach.looked_up hurl happ hparent
      exact hfails chain nodes node addr hconfig hresolved hnamed haddress
    rcases hconfig : h.loadChainConfig file with e | chain
    · rw [hconfig] at hrun hnowhere
      exact Or.inr (Or.inl ⟨e, hrun, hnowhere (by simp)⟩)
    · rw [hconfig] at hrun hnowhere
      dsimp only at hrun
      rcases hresolved : h.nodes mnemonic chain appId with nodes | e | why
      · rw [hresolved] at hrun
        dsimp only at hrun
        rcases hnamed : named args appId nodes with e | node
        · rw [hnamed] at hrun
          refine Or.inr (Or.inl ⟨e, hrun, hnowhere ?_⟩)
          intro chain' nodes' node addr hsame hresolved' hnamed'
          rw [← Except.ok.inj hsame, hresolved] at hresolved'
          rw [← Outcome.ok.inj hresolved', hnamed] at hnamed'
          exact absurd hnamed' (by simp)
        · rcases haddress : (socketAddrs node.endpoint).head? with _ | addr
          · rw [hnamed] at hrun
            have hbase : node.baseUrl = none := by
              unfold DiscoveredNode.baseUrl
              rw [haddress]
              rfl
            dsimp only at hrun
            unfold NodeClient.connect at hrun
            rw [hbase] at hrun
            refine Or.inr (Or.inl ⟨_, hrun, hnowhere ?_⟩)
            intro chain' nodes' node' addr hsame hresolved' hnamed'
            rw [← Except.ok.inj hsame, hresolved] at hresolved'
            rw [← Outcome.ok.inj hresolved', hnamed] at hnamed'
            rw [← Except.ok.inj hnamed', haddress]
            simp
          · exact Or.inl ⟨_, _, .found hurl happ hparent hconfig hresolved hnamed haddress⟩
      · rw [hresolved] at hrun
        refine Or.inr (Or.inl ⟨_, hrun, hnowhere ?_⟩)
        intro chain' nodes node addr hsame hresolved'
        rw [← Except.ok.inj hsame, hresolved] at hresolved'
        exact absurd hresolved' (by simp)
      · rw [hresolved] at hrun
        exact Or.inr (Or.inr ⟨why, ⟨mnemonic, appId, file, chain, hmnemonic, hurl, happ, hparent,
          hconfig, hresolved⟩, hrun⟩)
  · exact Or.inl ⟨_, _, .given hurl⟩

/-- How a client is built for arguments: the one that they ask for, or there is none, or the
resolve stops. -/
theorem buildClient_ends (h : Host ν)
    (haddressed : args.url.isSome = true ∨ args.appId.isSome = true ∧ args.parentChain.isSome = true)
    (hmnemonic : h.loadMnemonic args.mnemonicFile = .ok mnemonic) (w : NetWorld ν) :
    (∃ client, h.Probes args client ∧ h.buildClient args mnemonic w = (.ok client, w)) ∨
    (∃ e, h.buildClient args mnemonic w = (.err e, w) ∧ ∀ client, ¬ h.Probes args client) ∨
    ∃ why, h.Stops args why ∧ h.buildClient args mnemonic w = (.stop why, w) := by
  have hsame : ∀ {client : NodeClient}, h.Probes args client →
      h.Reaches args mnemonic client.algo client.config.baseUrl := by
    intro client hprobes
    obtain ⟨mnemonic', hmnemonic', hreach⟩ := hprobes.reaches
    rw [Except.ok.inj (hmnemonic.symm.trans hmnemonic')]
    exact hreach
  rcases h.reaches_cases haddressed hmnemonic w with
    ⟨algo, url, hreach⟩ | ⟨e, hrun, hnowhere⟩ | hstopped
  · have hrun := hreach.buildClient w
    rcases h.connectPinned_cases algo url args.nodeIdentity with
      ⟨own, tls, hown, htls, hconnect⟩ | ⟨e, hconnect, hnone⟩
    · rw [hconnect] at hrun
      exact Or.inl ⟨.mtls algo url tls, ⟨⟨mnemonic, hmnemonic, hreach⟩, own, tls, hown, htls, rfl⟩,
        hrun⟩
    · rw [hconnect] at hrun
      refine Or.inr (Or.inl ⟨_, hrun, ?_⟩)
      intro client hprobes
      obtain ⟨own, tls, hown, htls, -⟩ := hprobes.pin
      rw [← (hreach.unique (hsame hprobes)).1] at hown
      exact hnone own tls hown htls
  · exact Or.inr (Or.inl ⟨e, hrun, fun client hprobes => hnowhere _ _ (hsame hprobes)⟩)
  · exact Or.inr (Or.inr hstopped)

/-! ## How a probe ends -/

/-- What the last exchange has the probe exit with: a served response is printed, and healthy is
only a success; a node that was not reached is told apart from both. -/
inductive Shows (c : NodeSession ν) : Exchange → Outcome Error Exit → Prop
  | served (code : ℕ) (body : Bytes) :
      Shows c (.served code body) (.ok ⟨exitCode code, body⟩)
  | unserved {x : Exchange} {e : SendFailure} (failed : c.result x = .err e) :
      Shows c x (.ok ⟨2, []⟩)
  | stopped {x : Exchange} {why : Stop} (stopped : c.result x = .stop why) : Shows c x (.stop why)

/-- How a probe ends. -/
inductive ProbeEnds (h : Host ν) (argv : List String) (w : NetWorld ν) :
    Outcome Error Exit × NetWorld ν → Prop
  | help (asked : parseArgs argv = .help) :
      ProbeEnds h argv w (.ok ⟨0, utf8 s!"{usage}\n"⟩, w)
  /-- There is no client to probe with, and the node is sent nothing. -/
  | unready (asked : parseArgs argv ≠ .help)
      (none : ∀ args client, parseArgs argv = .ok args → ¬ h.Probes args client) :
      ProbeEnds h argv w (.ok ⟨1, []⟩, w)
  | unresolved {args : Args} {why : Stop} (parsed : parseArgs argv = .ok args)
      (stops : h.Stops args why) : ProbeEnds h argv w (.stop why, w)
  /-- One request is made of the node, up to four times. -/
  | probed {args : Args} {client : NodeClient} {n : ℕ} {exit : Outcome Error Exit}
      (parsed : parseArgs argv = .ok args) (probes : h.Probes args client)
      (pins : Pins h.certificates args.nodeIdentity client) (tries : n ≤ maxSendRetries)
      (shows : Shows ⟨h.net, client⟩ (NodeSession.exchangeAt ⟨h.net, client⟩
        ((NodeCall.get args.path).request client) w.node n) exit) :
      ProbeEnds h argv w
        (exit, NodeSession.worldAfter ⟨h.net, client⟩ ((NodeCall.get args.path).request client) w n)

/-- Only a served response is a result. -/
theorem served_of_result {c : NodeSession ν} {x : Exchange} {pair : ℕ × Bytes}
    (hresult : c.result x = .ok pair) : x = .served pair.1 pair.2 := by
  have hends := concludes c "get" x
  have hconclude : c.conclude "get" x = .ok pair := by
    unfold NodeSession.conclude
    rw [hresult]
  rw [hconclude] at hends
  cases hends
  rfl

/-- The last exchange decides what is shown. -/
theorem conclude_shows (c : NodeSession ν) (x : Exchange) :
    Shows c x (match c.conclude "get" x with
      | .ok (code, body) => .ok ⟨exitCode code, body⟩
      | .err _ => .ok ⟨2, []⟩
      | .stop why => .stop why) := by
  unfold NodeSession.conclude
  rcases hresult : c.result x with pair | failure | why
  · rw [served_of_result hresult]
    exact .served pair.1 pair.2
  · cases failure with
    | identityRefused chain => exact .unserved hresult
    | localError e => exact .unserved hresult
    | transport msg =>
      dsimp only
      split_ifs
      · exact .unserved hresult
      · exact .unserved hresult
  · exact .stopped hresult

/-- An error of a run is the exit code 1. -/
theorem main_apply (h : Host ν) (argv : List String) (w : NetWorld ν) :
    h.main argv w = match h.run argv w with
      | (.ok exit, w') => (.ok exit, w')
      | (.err _, w') => (.ok ⟨1, []⟩, w')
      | (.stop why, w') => (.stop why, w') := by
  unfold Host.main
  rw [bind_apply]
  unfold attempt
  rcases h.run argv w with ⟨exit | e | why, w'⟩ <;> rfl

/-- Every run of the probe ends so: it gives help; or, with no client for the node that its
arguments name, it exits with 1 and sends the node nothing; or its client, which accepts that node's
identity only, makes one request up to four times, and the last exchange decides what it exits with.
-/
theorem probe_ends (h : Host ν) (argv : List String) (w : NetWorld ν) :
    ProbeEnds h argv w (h.main argv w) := by
  rw [main_apply]
  unfold Host.run
  rcases hparse : parseArgs argv with args | _ | message
  · have haddressed : args.url.isSome = true ∨
        args.appId.isSome = true ∧ args.parentChain.isSome = true := by
      obtain ⟨settings, -, -, hgiven⟩ := ((parseArgs_iff argv).1 args).mp hparse
      exact hgiven.addressed
    dsimp only
    rcases hmnemonic : h.loadMnemonic args.mnemonicFile with e | mnemonic
    · apply ProbeEnds.unready (by simp [hparse])
      intro args' client hargs hprobes
      obtain ⟨mnemonic, hloaded, -⟩ := hprobes.reaches
      rw [hparse] at hargs
      rw [← Parsed.ok.inj hargs, hmnemonic] at hloaded
      exact absurd hloaded (by simp)
    · have hload : (ofExcept (.ok mnemonic) : Proc (NetWorld ν) Error String) w
          = (.ok mnemonic, w) := rfl
      rw [bind_of_ok hload]
      -- only with a client is anything sent, and then `send_run` says how the request ends
      rcases buildClient_ends h haddressed hmnemonic w with
        ⟨client, hprobes, hbuild⟩ | ⟨e, hbuild, hnone⟩ | ⟨why, hstops, hbuild⟩
      · obtain ⟨n, hn, -, -, hsend⟩ :=
          send_run ⟨h.net, client⟩ "get" ((NodeCall.get args.path).request client) w
        have hshows := conclude_shows ⟨h.net, client⟩ (NodeSession.exchangeAt ⟨h.net, client⟩
          ((NodeCall.get args.path).request client) w.node n)
        have hget : get ⟨h.net, client⟩ args.path w = _ := hsend
        have hprobed := ProbeEnds.probed hparse hprobes hprobes.pins hn hshows
        rw [bind_of_ok hbuild, bind_apply]
        unfold attempt
        rw [hget]
        generalize NodeSession.conclude _ "get" _ = o at hprobed
        rcases o with ⟨code, body⟩ | e | why <;> exact hprobed
      · rw [bind_of_err hbuild]
        apply ProbeEnds.unready (by simp [hparse])
        intro args' client hargs
        rw [hparse] at hargs
        rw [← Parsed.ok.inj hargs]
        exact hnone client
      · rw [bind_of_stop hbuild]
        exact .unresolved hparse hstops
  · exact .help hparse
  · apply ProbeEnds.unready (by simp [hparse])
    intro args client hargs
    rw [hparse] at hargs
    exact absurd hargs (by simp)

end BlockchainOps.Sidewinder.Health
