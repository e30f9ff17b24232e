import BlockchainOps.Algo.Mandates

/-!
# What the reads of a client do

The values that the parts of a program return say what was built, looked up and served
(`fetchAppCreator_ok`, `context_returns`). Programs that only ask the nodes behave within every
mandate, as they broadcast nothing.
-/

namespace BlockchainOps.Algo

open Effect Proc

variable {α T : Type} {c : Session} {m : Mandate} {base s t : World}

/-! ## What the parts of a program return -/

theorem algodClient_returns {client : Algod} (h : Returns c base algodClient client) :
    c.algod = .ok client := by
  obtain ⟨s, t, -, hrun⟩ := h
  exact algodClient_ok hrun

theorem requireAddress_returns {address : Address} (h : Returns c base requireAddress address) :
    c.At address := by
  obtain ⟨s, t, -, hrun⟩ := h
  exact requireAddress_ok hrun

theorem privateKeyBytes_returns {seed : Wire.Field 32} (h : Returns c base privateKeyBytes seed) :
    c.Key seed := by
  obtain ⟨s, t, -, hrun⟩ := h
  exact (ofExcept_ok_iff.mp hrun).1

theorem orBail_returns {what : String} {r : Except String α} {a : α}
    (h : Returns c base (orBail what r) a) : r = .ok a := by
  obtain ⟨s, t, -, hrun⟩ := h
  exact (orBail_ok_iff.mp hrun).1

theorem env_returns {e : Env} (h : Returns c base env e) : e = c.env := by
  obtain ⟨s, t, -, hrun⟩ := h
  exact (Outcome.ok.inj (congrArg Prod.fst hrun)).symm

theorem paramsFor_returns {client : Algod} {params : SuggestedParams}
    (hclient : Returns c base algodClient client) (h : Returns c base (paramsFor client) params) :
    c.Suggested params := by
  obtain ⟨s, t, -, hrun⟩ := h
  exact paramsFor_ok (algodClient_returns hclient) hrun

/-- What is built from the handle's address is a transaction of the client's own. -/
theorem buildWithFee_returns {failure : String} {sender : Address} {kind : TransactionKind}
    {fee : Option ℕ} {params : SuggestedParams} {tx : Transaction} (hsender : c.At sender)
    (hparams : c.Suggested params)
    (h : Returns c base (buildWithFee failure sender kind fee params) tx) :
    ∃ b, b.kind = kind ∧ c.Builds b tx := by
  obtain ⟨s, t, -, hrun⟩ := h
  obtain ⟨note, hnote, hbuilt⟩ := buildWithFee_ok hrun
  exact ⟨_, rfl, hsender, hnote, params, hparams, hbuilt⟩

theorem contractAddress_returns {appId : ℕ} {text : String}
    (h : Returns c base (contractAddress appId) text) : c.Contract appId text := by
  obtain ⟨s, t, -, hrun⟩ := h
  have hlifted : Proc.ofExcept (byteKeyToAddress c.env.keys.toAddressPrims
      (c.env.keys.sha512_256 (utf8 "appID" ++ Wire.beBytes 8 appId))) s = (.ok text, t) := hrun
  exact (ofExcept_ok_iff.mp hlifted).1

theorem parseAddress_returns {text : String} {address : Address}
    (h : Returns c base (parseAddress text) address) :
    c.env.algonaut.parseAddress text = .ok address := by
  obtain ⟨s, t, -, hrun⟩ := h
  exact parseAddress_ok hrun

theorem addressStr_returns {text : String} (h : Returns c base addressStr text) :
    c.ops.address = some text := by
  obtain ⟨s, t, -, hrun⟩ := h
  have hrequired : (require "This operation needs an address" c.ops.address).run c s
      = (.ok text, t) := hrun
  exact require_ok hrequired

theorem require_returns {message : String} {o : Option α} {a : α}
    (h : Returns c base (require message o) a) : o = some a := by
  obtain ⟨s, t, -, hrun⟩ := h
  exact require_ok hrun

theorem context_parseAddress_returns {what text : String} {address : Address}
    (h : Returns c base (context what (parseAddress text)) address) :
    c.env.algonaut.parseAddress text = .ok address := by
  obtain ⟨s, t, -, hrun⟩ := h
  have hmapped : mapErr _ ((parseAddress text).run c) s = (.ok address, t) := hrun
  exact parseAddress_ok (mapErr_ok_iff.mp hmapped)

theorem not_returns_bail {message : String} {a : α} : ¬ Returns c base (bail message) a := by
  rintro ⟨s, t, -, hrun⟩
  exact absurd (congrArg Prod.fst hrun) (by rintro ⟨⟩)

theorem resultOf_returns {x : Client α} {a : α} (h : Returns c base (resultOf x) (.ok a)) :
    Returns c base x a := by
  obtain ⟨s, t, hkeeps, hrun⟩ := h
  refine ⟨s, t, hkeeps, ?_⟩
  have hattempt : attempt (x.run c) s = (.ok (.ok a), t) := hrun
  unfold attempt at hattempt
  rcases hx : x.run c s with ⟨a' | e | w, u⟩ <;> rw [hx] at hattempt <;> cases hattempt
  rfl

theorem appArguments_returns {method : Option String} {args : List AppArg} {appArgs : List Bytes}
    (h : Returns c base (appArguments method args) appArgs) :
    appArgs = (method.map (arc4Selector c.env.keys)).toList ++ args.map AppArg.toBytes := by
  obtain ⟨s, t, -, hrun⟩ := h
  exact (Outcome.ok.inj (congrArg Prod.fst hrun)).symm

/-- A call that returns was served what it returns. -/
theorem context_returns (ask : Algod → NodeCall α) {client : Algod} {what : String} {a : α}
    (hclient : Returns c base algodClient client) (hreply : (ask client).reply = replyOf)
    (h : Returns c base (context what (algodCall (ask client))) a) : c.Tells base ask a := by
  obtain ⟨s, t, hkeeps, hrun⟩ := h
  exact ⟨t, served_of_context ask (algodClient_returns hclient) hreply hkeeps.later hrun⟩

theorem require_world {message : String} {o : Option α} {a : α}
    (h : (require message o).run c s = (.ok a, t)) : t = s := by
  cases o with
  | none => exact absurd (congrArg Prod.fst h) (by rintro ⟨⟩)
  | some _ => exact (congrArg Prod.snd h).symm

theorem fetchAppCreator_ok {appId : ℕ} {creator : String} (hbase : base.Precedes s)
    (h : (fetchAppCreator appId).run c s = (.ok creator, t)) : c.Reports base t appId creator := by
  obtain ⟨client, u₁, hclient, h⟩ := bind_ok_iff.mp h
  obtain ⟨info, u₂, hinfo, h⟩ := bind_ok_iff.mp h
  obtain ⟨v, u₃, hv, h⟩ := bind_ok_iff.mp h
  have hcall : (context s!"failed to fetch application {appId} info"
      (algodCall (client.appCall appId))).run c u₁ = (.ok info, u₂) := hinfo
  have hsame : u₁ = s := (orBail_ok_iff.mp hclient).2
  have hserved := served_of_context (fun client => client.appCall appId)
    (algodClient_ok hclient) rfl (hsame ▸ hbase) hcall
  obtain ⟨hread, hworld⟩ := orBail_ok_iff.mp hv
  rw [hread] at hserved
  have hend : t = u₃ := require_world h
  rw [hend, hworld]
  exact ⟨v, hserved, require_ok h⟩

theorem cacheAppCreator_ok {appId : ℕ} {creator : String}
    (h : (cacheAppCreator appId creator).run c s = (.ok (), t)) : s.Precedes t := by
  have hrun : (if s.appCreators.poisoned then _ else _ : Outcome Error Unit × World)
      = (.ok (), t) := h
  split_ifs at hrun
  · exact absurd (congrArg Prod.fst hrun) (by rintro ⟨⟩)
  · have hworld : { s with appCreators := _ } = t := congrArg Prod.snd hrun
    rw [← hworld]
    exact s.precedes_creators _

/-- A creator is returned from the cache, or as it was fetched. -/
theorem appCreator_ok {appId : ℕ} {creator : String} (hkeeps : base.Keeps c s)
    (h : (appCreator appId).run c s = (.ok creator, t)) :
    (appId, creator) ∈ base.appCreators.value ∨ c.Reports base t appId creator := by
  obtain ⟨-, h⟩ := guard_ok h
  obtain ⟨cached, u₁, hcached, h⟩ := bind_ok_iff.mp h
  have hlookup : (if s.appCreators.poisoned then none else s.appCreators.value.lookup appId)
      = cached := Outcome.ok.inj (congrArg Prod.fst hcached)
  have hsame : u₁ = s := (congrArg Prod.snd hcached).symm
  rw [hsame] at h
  cases cached with
  | some text =>
    split_ifs at hlookup
    obtain ⟨before, after, hsplit, -⟩ := List.lookup_eq_some_iff.mp hlookup
    have hmem : (appId, text) ∈ s.appCreators.value := by
      rw [hsplit]
      simp
    have htext : text = creator := Outcome.ok.inj (congrArg Prod.fst h)
    have hworld : s = t := congrArg Prod.snd h
    rw [← htext, ← hworld]
    exact hkeeps.creators _ hmem
  | none =>
    obtain ⟨text, u₂, hfetched, h⟩ := bind_ok_iff.mp h
    obtain ⟨_, u₃, hcache, h⟩ := bind_ok_iff.mp h
    have htext : text = creator := Outcome.ok.inj (congrArg Prod.fst h)
    have hworld : u₃ = t := congrArg Prod.snd h
    rw [← htext, ← hworld]
    exact Or.inr ((fetchAppCreator_ok hkeeps.later hfetched).later (cacheAppCreator_ok hcache))

/-! ## The steps of a program -/

namespace Behaves

theorem env : Behaves c base m env := read _

theorem handle : Behaves c base m handle := read _

theorem algodClient : Behaves c base m algodClient :=
  handle.bind fun _ _ => env.bind fun _ _ => orBail _ _

theorem indexerClient : Behaves c base m indexerClient :=
  handle.bind fun _ _ => env.bind fun _ _ => orBail _ _

theorem parseAddress (address : String) : Behaves c base m (parseAddress address) :=
  env.bind fun _ _ => orBail _ _

theorem addressStr : Behaves c base m addressStr := handle.bind fun _ _ => require _ _

theorem requireAddress : Behaves c base m requireAddress :=
  addressStr.bind fun text _ => parseAddress text

theorem privateKeyBytes : Behaves c base m privateKeyBytes := lift _

theorem nowUnixSecs : Behaves c base m nowUnixSecs := ask _

theorem contractAddress (appId : ℕ) : Behaves c base m (contractAddress appId) := lift _

theorem paramsFor (client : Algod) : Behaves c base m (paramsFor client) :=
  context _ (quietCall rfl)

theorem buildWithFee (failure : String) (sender : Address) (kind : TransactionKind)
    (fee : Option ℕ) (params : SuggestedParams) :
    Behaves c base m (buildWithFee failure sender kind fee params) := by
  have hnote : Behaves c base m uniqueNote := (ask _).bind fun _ _ => pure _
  exact hnote.bind fun _ _ => env.bind fun _ _ => orBail _ _

theorem build (failure : String) (sender : Address) (kind : TransactionKind)
    (params : SuggestedParams) : Behaves c base m (build failure sender kind params) :=
  buildWithFee _ _ _ _ _

theorem awaitRound (client : Algod) (currentRound : ℕ) :
    Behaves c base m (awaitRound client currentRound) :=
  (context _ (quietCall rfl)).bind fun _ _ => pure _

theorem waitForConfirmation (txId : String) (timeoutRounds : ℕ) :
    Behaves c base m (waitForConfirmation txId timeoutRounds) := by
  apply guard
  apply algodClient.bind
  intro client _
  apply (context _ (quietCall rfl)).bind
  intro status _
  apply (ofOutcome _).bind
  intro startRound _
  apply (ofOutcome _).bind
  intro endRound _
  apply loop
  intro currentRound
  apply guard
  have hread : Behaves c base m
      (Algo.resultOf (Algo.algodCall (client.pendingTransactionCall txId))) :=
    (quietCall rfl).resultOf
  apply hread.bind
  intro result _
  cases result with
  | ok p =>
    dsimp only
    split_ifs
    · exact pure _
    · exact bail _
    · exact awaitRound client currentRound
  | error e =>
    dsimp only
    split_ifs
    · exact raise _
    · exact awaitRound client currentRound

/-- A transaction of the client's own that was asked for may be signed and sent. -/
theorem submit {client : Algod} {failure : String} {seed : Wire.Field 32} {tx : Transaction}
    (hseed : Returns c base Algo.privateKeyBytes seed) (htx : ∃ b, m.asks b.kind ∧ c.Builds b tx) :
    Behaves c base m (submit client failure seed tx) := by
  obtain ⟨b, hasked, hbuilt⟩ := htx
  apply env.bind
  intro e he
  -- the packages are those of the client, so what they returned can be named in `Authorizes`
  rw [env_returns he]
  apply (orBail _ _).bind
  intro signed hsigned
  apply env.bind
  intro e he
  rw [env_returns he]
  apply (orBail _ _).bind
  intro bytes hbytes
  have hsent : c.Authorizes m (.sendRaw bytes) :=
    .one hasked hbuilt (privateKeyBytes_returns hseed) (orBail_returns hsigned)
      (orBail_returns hbytes)
  apply (context _ (algodCall hsent)).bind
  intro response _
  exact (waitForConfirmation _ _).bind fun _ _ => pure _

/-- The steps that most operations send a transaction by. -/
theorem send {failure what : String} {seed : Wire.Field 32} {sender : Address}
    {kind : TransactionKind} {rest : Algod → String → Client α}
    (hseed : Returns c base Algo.privateKeyBytes seed)
    (hsender : Returns c base Algo.requireAddress sender) (hasked : m.asks kind)
    (hrest : ∀ client txId, Behaves c base m (rest client txId)) :
    Behaves c base m (do
      let client ← Algo.algodClient
      let params ← Algo.paramsFor client
      let tx ← Algo.build failure sender kind params
      let txId ← Algo.submit client what seed tx
      rest client txId) := by
  apply algodClient.bind
  intro client hclient
  apply (paramsFor client).bind
  intro params hparams
  apply (build _ _ _ _).bind
  intro tx htx
  obtain ⟨b, rfl, hbuilt⟩ := buildWithFee_returns (requireAddress_returns hsender)
    (paramsFor_returns hclient hparams) htx
  exact (submit hseed ⟨b, hasked, hbuilt⟩).bind fun txId _ => hrest client txId

end Behaves

/-! ## Reads -/

section Reads

theorem accountBalance_behaves : Behaves c base m accountBalance :=
  .bind .algodClient fun _ _ => .bind .requireAddress fun _ _ =>
    .bind (.orUnreachable _ _ (.quietCall rfl)) fun _ _ => .pure _

theorem globalState_behaves (maybeAppId : Option ℕ) :
    Behaves c base m (globalState maybeAppId) := by
  apply Behaves.bind .algodClient
  intro client _
  apply Behaves.bind .requireAddress
  intro address _
  apply Behaves.bind (.orAbsent _ (.quietCall rfl))
  intro info _
  cases info with
  | none => exact .pure _
  | some info => exact .bind (.orBail _ _) fun _ _ => .bind .env fun _ _ => .pure _

theorem appGlobalBytes_behaves (appId : ℕ) (key : String) :
    Behaves c base m (appGlobalBytes appId key) := by
  apply Behaves.guard
  apply Behaves.bind .algodClient
  intro client _
  apply Behaves.bind (.orAbsent _ (.quietCall rfl))
  intro info _
  cases info with
  | none => exact .pure _
  | some info =>
    apply Behaves.bind (.orBail _ _)
    intro v _
    apply Behaves.bind .env
    intro e _
    dsimp only
    cases v.get "params" >>= Json.asObject with
    | none => exact .pure _
    | some params => exact .pure _

theorem getAppLocalSchema_behaves (appId : ℕ) : Behaves c base m (getAppLocalSchema appId) :=
  .guard <| .bind .algodClient fun _ _ => .bind (.context _ (.quietCall rfl)) fun _ _ =>
    .bind (.orBail _ _) fun _ _ => .bind (.require _ _) fun _ _ => .pure _

theorem localStateForAccount_behaves (appId : ℕ) (account : String) :
    Behaves c base m (localStateForAccount appId account) := by
  apply Behaves.bind .algodClient
  intro client _
  apply Behaves.bind (.parseAddress _)
  intro address _
  apply Behaves.bind (.orAbsent _ (.quietCall rfl))
  intro info _
  cases info with
  | none => exact .pure _
  | some info => exact .bind (.orBail _ _) fun _ _ => .bind .env fun _ _ => .pure _

theorem isAccountOptedInToAsset_behaves (account : String) (assetId : ℕ) :
    Behaves c base m (isAccountOptedInToAsset account assetId) := by
  apply Behaves.guard
  apply Behaves.bind .algodClient
  intro client _
  apply Behaves.bind (.parseAddress _)
  intro address _
  apply Behaves.bind (Behaves.quietCall rfl).resultOf
  intro result _
  cases result with
  | error e => exact .pure _
  | ok info => exact .bind (.orBail _ _) fun _ _ => .pure _

theorem assetHolding_behaves (account : String) (assetId : ℕ) :
    Behaves c base m (assetHolding account assetId) :=
  .bind .algodClient fun _ _ => .bind (.parseAddress _) fun _ _ =>
    .bind (.context _ (.quietCall rfl)) fun _ _ => .bind (.orBail _ _) fun _ _ => .pure _

theorem accountFunds_behaves (account : String) : Behaves c base m (accountFunds account) :=
  .bind .algodClient fun _ _ => .bind (.parseAddress _) fun _ _ =>
    .bind (.orUnreachable _ _ (.quietCall rfl)) fun _ _ => .pure _

theorem microalgosAt_behaves (account : String) : Behaves c base m (microalgosAt account) :=
  .bind .algodClient fun _ _ => .bind (.parseAddress _) fun _ _ =>
    .bind (.context _ (.quietCall rfl)) fun _ _ => .pure _

theorem round_behaves : Behaves c base m round :=
  .bind .algodClient fun _ _ => .bind (.orUnreachable _ _ (.quietCall rfl)) fun _ _ => .pure _

theorem suggestedParams_behaves : Behaves c base m suggestedParams :=
  .bind .algodClient fun _ _ => .bind (.orUnreachable _ _ (.quietCall rfl)) fun _ _ => .pure _

theorem confirmedTransaction_behaves (txid : String) :
    Behaves c base m (confirmedTransaction txid) := by
  unfold confirmedTransaction
  apply Behaves.guard
  apply Behaves.bind .algodClient
  intro client _
  apply Behaves.bind (Behaves.quietCall rfl).resultOf
  intro result _
  cases result with
  | error e =>
    dsimp only
    split_ifs
    · exact .raise _
    · exact .raise _
    · exact .pure _
  | ok response =>
    dsimp only
    cases response.txn with
    | none => exact .pure _
    | some txn => exact .bind (.orBail _ _) fun _ _ => .bind .env fun _ _ => .pure _

theorem assetClawback_behaves (assetId : ℕ) : Behaves c base m (assetClawback assetId) :=
  .guard <| .bind .algodClient fun _ _ => .bind (.context _ (.quietCall rfl)) fun _ _ =>
    .bind (.orBail _ _) fun _ _ => .pure _

theorem compileTeal_behaves (source : String) : Behaves c base m (compileTeal source) := by
  apply Behaves.guard
  cases stripBase64Prefix source with
  | some rest => exact .bind .env fun _ _ => .orBail _ _
  | none => exact .bind .algodClient fun _ _ => .quietCall rfl

theorem fetchAppCreator_behaves (appId : ℕ) : Behaves c base m (fetchAppCreator appId) :=
  .bind .algodClient fun _ _ => .bind (.context _ (.quietCall rfl)) fun _ _ =>
    .bind (.orBail _ _) fun _ _ => .require _ _

/-- A creator that algod reported may be put in the cache. -/
theorem cacheAppCreator_conduct {appId : ℕ} {creator : String}
    (h : c.Reports base s appId creator) :
    Conduct c base m s ((cacheAppCreator appId creator).run c s).2 := by
  intro hkeeps
  show Conducts c base m s
    (if s.appCreators.poisoned then _ else _ : Outcome Error Unit × World).2
  split_ifs
  · exact ⟨.of_sent rfl, hkeeps⟩
  · refine ⟨.of_sent rfl, trans_of _ hkeeps.later (s.precedes_creators _), ?_⟩
    intro entry hentry
    rcases List.mem_cons.mp hentry with rfl | hmem
    · exact Or.inr (h.later (s.precedes_creators _))
    · exact (hkeeps.creators entry (List.mem_filter.mp hmem).1).imp_right fun hreports =>
        hreports.later (s.precedes_creators _)

theorem appCreator_behaves (appId : ℕ) : Behaves c base m (appCreator appId) := by
  apply Behaves.guard
  apply Behaves.bind (.read _)
  intro cached _
  cases cached with
  | some creator => exact .pure _
  | none =>
    apply Behaves.bindAt (fetchAppCreator_behaves appId)
    intro creator s t hkeeps hfetched
    have hreports := fetchAppCreator_ok hkeeps.later hfetched
    exact Conduct.bind (cacheAppCreator_conduct hreports) fun _ _ _ => refl_of _ _

end Reads

/-! ## Searches and scans -/

section Scans

theorem searchForTransactions_behaves (client : Indexer) (query : TransactionQuery) :
    Behaves c base m (searchForTransactions client query) :=
  .orUnreachable _ _ (.quietRead rfl)

theorem confirmedNotesPage_behaves (client : Indexer) (notePrefix : String)
    (sender next : Option String) :
    Behaves c base m (confirmedNotesPage client notePrefix sender next) := by
  have hpage : ∀ address : Option Address, Behaves c base m (do
      let response ← searchForTransactions client
        { next
          notePrefix := some notePrefix
          minRound := none
          address
          addressRole := sender.map fun _ => "sender"
          applicationId := none }
      Pure.pure (response.items.filterMap confirmedNote, nextPageToken response.nextToken)) :=
    fun _ => .bind (searchForTransactions_behaves _ _) fun _ _ => .pure _
  cases sender with
  | none => exact .bind (.pure _) fun _ _ => hpage _
  | some sender => exact .bind (.parseAddress _) fun _ _ => .bind (.pure _) fun _ _ => hpage _

theorem findConfirmedNoteMatching_behaves (query : Bytes) (sender : Option String)
    (accepts : Bytes → Bool) :
    Behaves c base m (findConfirmedNoteMatching query sender accepts) := by
  apply Behaves.bind .indexerClient
  intro client _
  apply Behaves.bind .env
  intro e _
  apply Behaves.loop
  intro next
  apply Behaves.bind (confirmedNotesPage_behaves _ _ _ _)
  intro page _
  rcases page with ⟨candidates, nextToken⟩
  dsimp only
  cases candidates.find? fun candidate => accepts candidate.2 with
  | some found => exact .pure _
  | none =>
    cases nextToken with
    | some token => exact .pure _
    | none => exact .pure _

theorem collectConfirmedNotesMatching_behaves (query : Bytes) (sender : Option String)
    (accepts : Bytes → Bool) :
    Behaves c base m (collectConfirmedNotesMatching query sender accepts) := by
  apply Behaves.bind .indexerClient
  intro client _
  apply Behaves.bind .env
  intro e _
  apply Behaves.loop
  intro state
  apply Behaves.bind (confirmedNotesPage_behaves _ _ _ _)
  intro page _
  rcases page with ⟨candidates, nextToken⟩
  cases nextToken with
  | some token => exact .pure _
  | none => exact .pure _

theorem prepare_behaves (filter : TxnScanFilter) : Behaves c base m filter.prepare := by
  apply Behaves.bind .env
  intro e _
  dsimp only
  cases filter.sender with
  | none => exact .bind (.pure _) fun _ _ => .pure _
  | some sender =>
    exact .bind (.parseAddress _) fun _ _ => .bind (.pure _) fun _ _ => .pure _

theorem fetchScanPage_behaves (client : Indexer) (filter : PreparedScanFilter)
    (minRound : Option ℕ) (next : Option String) :
    Behaves c base m (fetchScanPage client filter minRound next) :=
  .bind (searchForTransactions_behaves _ _) fun _ _ => .pure _

theorem fetchAccountPage_behaves (client : Indexer) (appId : ℕ) (next : Option String) :
    Behaves c base m (fetchAccountPage client appId next) := by
  apply Behaves.bind (.orUnreachable _ _ (.quietRead rfl))
  intro response _
  apply Behaves.bind .env
  intro e _
  apply Behaves.bind (.forEach (fun _ => .bind (.orBail _ _) fun _ _ => .pure _) _)
  intro accounts _
  exact .pure _

theorem fetchChangedAddressesPage_behaves (client : Indexer) (appId minRound : ℕ)
    (next : Option String) :
    Behaves c base m (fetchChangedAddressesPage client appId minRound next) :=
  .bind (searchForTransactions_behaves _ _) fun _ _ => .pure _

theorem lookupOptedInAccount_behaves (client : Indexer) (appId : ℕ) (address : String) :
    Behaves c base m (lookupOptedInAccount client appId address) := by
  apply Behaves.bind (.parseAddress _)
  intro addr _
  apply Behaves.bind (Behaves.quietRead rfl).resultOf
  intro result _
  cases result with
  | error e =>
    dsimp only
    split_ifs
    · exact .pure _
    · exact .raise _
    · exact .raise _
  | ok acct => exact .bind (.orBail _ _) fun _ _ => .bind .env fun _ _ => .pure _

theorem fetchTransactionsCached_behaves (cache : Mutex (TxnScanCache T)) (filter : TxnScanFilter)
    (mode : QueryMode) (lifetime : Option ℕ) (ingest : ScannedTxn → Option T) :
    Behaves c base m (fetchTransactionsCached cache filter mode lifetime ingest) := by
  apply Behaves.bind .indexerClient
  intro client _
  apply Behaves.bind (prepare_behaves filter)
  intro prepared _
  apply Behaves.bind .nowUnixSecs
  intro now _
  apply Behaves.owning
  apply Respects.attempt
  apply Respects.withLock
  apply txnScanBody_respects
  intro minRound next
  exact fetchScanPage_behaves client prepared minRound next

theorem fetchOptedInAccountsCached_behaves (appId : ℕ) (cache : Mutex (AccountScanCache T))
    (mode : QueryMode) (lifetime : Option ℕ) (ingest : ScannedAccount → Option T) :
    Behaves c base m (fetchOptedInAccountsCached appId cache mode lifetime ingest) := by
  apply Behaves.guard
  apply Behaves.bind .indexerClient
  intro client _
  apply Behaves.bind .nowUnixSecs
  intro now _
  apply Behaves.owning
  apply Respects.attempt
  apply Respects.withLock
  apply accountScanBody_respects
  · exact fun next => fetchAccountPage_behaves client appId next
  · exact fun minRound next => fetchChangedAddressesPage_behaves client appId minRound next
  · exact fun address => lookupOptedInAccount_behaves client appId address

end Scans

end BlockchainOps.Algo
