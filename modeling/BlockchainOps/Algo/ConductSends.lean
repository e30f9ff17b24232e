import BlockchainOps.Algo.ConductReads

/-!
# What the sending operations of a client do

Each program that sends a transaction behaves within a mandate that asks for the transactions of its
arguments: what it builds has the kind asked for, with the values that were looked up.
-/

namespace BlockchainOps.Algo

open Effect Proc

variable {c : Session} {m : Mandate} {base : World}

/-! ## Payments and assets -/

section Assets

theorem sendAlgo_behaves {toAddress : String} {amountAlgos : ℚ}
    (hasks : ∀ kind, (GroupLeg.payment toAddress (microAlgos amountAlgos)).Asks c.env kind →
      m.asks kind) :
    Behaves c base m (sendAlgo toAddress amountAlgos) := by
  apply Behaves.guard
  apply Behaves.bind .privateKeyBytes
  intro seed hseed
  apply Behaves.bind .requireAddress
  intro sender hsender
  apply Behaves.bind (.parseAddress _)
  intro receiver hreceiver
  exact .send hseed hsender (hasks _ ⟨receiver, parseAddress_returns hreceiver, rfl⟩) fun _ _ =>
    .pure _

theorem issueAsset_behaves {seed : Wire.Field 32} {issuer : Address}
    (hseed : Returns c base privateKeyBytes seed) (hissuer : Returns c base requireAddress issuer)
    {unitsInIssue : ℕ} {addresses : AssetAddresses}
    (hasked : m.asks (.createAsset unitsInIssue 0 false addresses)) :
    Behaves c base m (issueAsset seed issuer unitsInIssue addresses) :=
  .send hseed hissuer hasked fun _ _ => .bind (.context _ (.quietCall rfl)) fun _ _ => .pure _

theorem createAsset_behaves {name : String} {unitsInIssue : ℕ}
    (hasks : ∀ issuer, c.At issuer → m.asks (.createAsset unitsInIssue 0 false
      { manager := some issuer
        reserve := some issuer
        freeze := none
        clawback := some issuer })) :
    Behaves c base m (createAsset name unitsInIssue) := by
  unfold createAsset
  apply Behaves.guard
  apply Behaves.guard
  apply Behaves.bind .privateKeyBytes
  intro seed hseed
  apply Behaves.bind .requireAddress
  intro issuer hissuer
  exact issueAsset_behaves hseed hissuer (hasks issuer (requireAddress_returns hissuer))

theorem createAssetConfigured_behaves {name : String} {unitsInIssue : ℕ}
    {manager reserve clawback freeze : String}
    (hasks : ∀ kind, c.Issues unitsInIssue manager reserve clawback freeze kind → m.asks kind) :
    Behaves c base m (createAssetConfigured name unitsInIssue manager reserve clawback freeze) := by
  unfold createAssetConfigured
  apply Behaves.guard
  apply Behaves.guard
  apply Behaves.bind .privateKeyBytes
  intro seed hseed
  apply Behaves.bind .requireAddress
  intro issuer hissuer
  apply Behaves.bind (.parseAddress _)
  intro manager' hmanager
  apply Behaves.bind (.parseAddress _)
  intro reserve' hreserve
  apply Behaves.bind (.parseAddress _)
  intro clawback' hclawback
  apply Behaves.bind (.parseAddress _)
  intro freeze' hfreeze
  have hissues : c.Issues unitsInIssue manager reserve clawback freeze _ :=
    ⟨manager', reserve', clawback', freeze', parseAddress_returns hmanager,
      parseAddress_returns hreserve, parseAddress_returns hclawback, parseAddress_returns hfreeze,
      rfl⟩
  exact issueAsset_behaves hseed hissuer (hasks _ hissues)

theorem createAssetWithReserveApp_behaves {name : String} {unitsInIssue appId : ℕ}
    (hasks : ∀ appText issuerText kind, c.Contract appId appText → c.ops.address = some issuerText →
      c.Issues unitsInIssue issuerText appText appText issuerText kind → m.asks kind) :
    Behaves c base m (createAssetWithReserveApp name unitsInIssue appId) := by
  apply Behaves.guard
  apply Behaves.bind (.contractAddress _)
  intro appText happ
  apply Behaves.bind .addressStr
  intro issuerText hissuer
  exact createAssetConfigured_behaves fun kind =>
    hasks appText issuerText kind (contractAddress_returns happ) (addressStr_returns hissuer)

theorem assetInfo_behaves (client : Algod) (assetId : ℕ) :
    Behaves c base m (assetInfo client assetId) :=
  .bind (.context _ (.quietCall rfl)) fun _ _ => .orBail _ _

/-- An asset is described as algod served it. -/
theorem assetInfo_returns {client : Algod} {assetId : ℕ} {v : Json}
    (hclient : Returns c base algodClient client)
    (h : Returns c base (assetInfo client assetId) v) :
    c.Tells base (fun client => client.assetCall assetId) (.ok v) := by
  obtain ⟨info, hinfo, hv⟩ := h.of_bind (.context _ (.quietCall rfl))
  have htold := context_returns (fun client => client.assetCall assetId) hclient rfl hinfo
  rwa [orBail_returns hv] at htold

theorem holdingOf_behaves (client : Algod) (account : Address) (assetId : ℕ) (who : String) :
    Behaves c base m (holdingOf client account assetId who) :=
  .bind (.context _ (.quietCall rfl)) fun _ _ => .bind (.orBail _ _) fun _ _ => .pure _

/-- What an account holds is what algod served. -/
theorem holdingOf_returns {client : Algod} {account : Address} {assetId amount : ℕ} {who : String}
    (hclient : Returns c base algodClient client)
    (h : Returns c base (holdingOf client account assetId who) amount) :
    c.Holds base account assetId amount := by
  obtain ⟨info, hinfo, h⟩ := h.of_bind (.context _ (.quietCall rfl))
  obtain ⟨v, hv, s, t, -, hrun⟩ := h.of_bind (.orBail _ _)
  have htold := context_returns (fun client => client.accountCall account) hclient rfl hinfo
  exact ⟨info, v, htold, orBail_returns hv, Outcome.ok.inj (congrArg Prod.fst hrun)⟩

/-- Here the key is asked for only after the transaction was built. -/
theorem setAssetClawbackToApp_behaves {appId assetId : ℕ}
    (hasks : ∀ kind, c.SetsToApp appId assetId kind → m.asks kind) :
    Behaves c base m (setAssetClawbackToApp appId assetId) := by
  apply Behaves.guard
  apply Behaves.guard
  apply Behaves.bind .algodClient
  intro client hclient
  apply Behaves.bind .requireAddress
  intro caller hcaller
  apply Behaves.bind (assetInfo_behaves _ _)
  intro v _
  apply Behaves.bind (.require _ _)
  intro managerText _
  apply Behaves.bind (.parseAddress _)
  intro manager _
  have hrest : Behaves c base m (do
      let appAddr ← parseAddress (← contractAddress appId)
      let params ← paramsFor client
      let tx ← build "failed to build asset config transaction" caller
        (.updateAsset assetId
          { manager := some caller, reserve := some appAddr, freeze := none,
            clawback := some appAddr }) params
      let sk ← privateKeyBytes
      let _ ← submit client "failed to sign asset config transaction" sk tx
      Pure.pure ()) := by
    apply Behaves.bind (.contractAddress _)
    intro appText happ
    apply Behaves.bind (.parseAddress _)
    intro appAddr hparsed
    apply Behaves.bind (.paramsFor client)
    intro params hparams
    apply Behaves.bind (.build _ _ _ _)
    intro tx htx
    apply Behaves.bind .privateKeyBytes
    intro seed hseed
    obtain ⟨b, hkind, hbuilt⟩ := buildWithFee_returns (requireAddress_returns hcaller)
      (paramsFor_returns hclient hparams) htx
    have hsets : c.SetsToApp appId assetId b.kind :=
      ⟨appText, appAddr, contractAddress_returns happ, parseAddress_returns hparsed, caller,
        requireAddress_returns hcaller, hkind⟩
    exact .bind (.submit hseed ⟨b, hasks _ hsets, hbuilt⟩) fun _ _ => .pure _
  split_ifs
  · exact .bind .env fun _ _ => .bind (.bail _) fun _ _ => hrest
  · exact hrest

theorem sendAsset_behaves {assetId amount : ℕ} {toAddress : String}
    (hasks : ∀ kind, (GroupLeg.assetTransfer assetId amount toAddress).Asks c.env kind →
      m.asks kind) :
    Behaves c base m (sendAsset assetId amount toAddress) := by
  apply Behaves.guard
  apply Behaves.guard
  apply Behaves.bind .privateKeyBytes
  intro seed hseed
  apply Behaves.bind .requireAddress
  intro sender hsender
  apply Behaves.bind (.parseAddress _)
  intro receiver hreceiver
  exact .send hseed hsender (hasks _ ⟨receiver, parseAddress_returns hreceiver, rfl⟩) fun _ _ =>
    .pure _

theorem changeAssetReserveAddress_behaves {assetId : ℕ} {reserveAddress : String}
    (hasks : ∀ kind, c.ChangesReserve base assetId reserveAddress kind → m.asks kind) :
    Behaves c base m (changeAssetReserveAddress assetId reserveAddress) := by
  apply Behaves.guard
  apply Behaves.bind (.context _ (.parseAddress _))
  intro newReserve hreserve
  apply Behaves.bind .privateKeyBytes
  intro seed hseed
  apply Behaves.bind .requireAddress
  intro signer hsigner
  apply Behaves.bind .algodClient
  intro client hclient
  apply Behaves.bind (assetInfo_behaves _ _)
  intro v _
  apply Behaves.bind (.require _ _)
  intro creatorText _
  apply Behaves.bind .env
  intro e _
  apply Behaves.bind .addressStr
  intro addressText _
  apply Behaves.bind (.orBail _ _)
  intro caller _
  apply Behaves.bind .env
  intro e' _
  apply Behaves.guard
  apply Behaves.bind (.paramsFor client)
  intro params hparams
  apply Behaves.bind (.build _ _ _ _)
  intro tx htx
  obtain ⟨b, hkind, hbuilt⟩ := buildWithFee_returns (requireAddress_returns hsigner)
    (paramsFor_returns hclient hparams) htx
  have hchanges : c.ChangesReserve base assetId reserveAddress b.kind :=
    Or.inl ⟨newReserve, context_parseAddress_returns hreserve, signer,
      requireAddress_returns hsigner, hkind⟩
  apply Behaves.bind (.submit hseed ⟨b, hasks _ hchanges, hbuilt⟩)
  intro _ _
  apply Behaves.bind (holdingOf_behaves _ _ _ _)
  intro amount hamount
  split_ifs
  · exact .pure _
  · -- what the handle holds is sent on to the new reserve
    apply Behaves.bind (isAccountOptedInToAsset_behaves _ _)
    intro optedIn _
    apply Behaves.guard
    apply sendAsset_behaves
    intro kind hkind
    exact hasks kind (Or.inr ⟨signer, amount, requireAddress_returns hsigner,
      holdingOf_returns hclient hamount, hkind⟩)

theorem optInToAsset_behaves {assetId : ℕ}
    (hasks : ∀ self, c.At self → m.asks (.transferAsset assetId 0 self)) :
    Behaves c base m (optInToAsset assetId) :=
  .guard <| .bind .privateKeyBytes fun _ hseed => .bind .requireAddress fun self hsender =>
    .send hseed hsender (hasks self (requireAddress_returns hsender)) fun _ _ => .pure _

theorem recoverReserveBalance_behaves {assetId : ℕ}
    (hasks : ∀ kind, c.RecoversReserve base assetId kind → m.asks kind) :
    Behaves c base m (recoverReserveBalance assetId) := by
  apply Behaves.guard
  apply Behaves.bind .algodClient
  intro client hclient
  apply Behaves.bind (assetInfo_behaves _ _)
  intro v hv
  apply Behaves.bind (.require _ _)
  intro pair hpair
  rcases pair with ⟨creatorText, reserveText⟩
  apply Behaves.bind .addressStr
  intro callerText hcaller
  dsimp only
  split_ifs with hother
  · exact .bind (.bail _) fun _ h => absurd h not_returns_bail
  · apply Behaves.bind (isAccountOptedInToAsset_behaves _ _)
    intro optedIn _
    apply Behaves.guard
    apply Behaves.bind (.parseAddress _)
    intro reserve hreserve
    apply Behaves.bind (holdingOf_behaves _ _ _ _)
    intro amount hamount
    split_ifs
    · exact .pure _
    · apply sendAsset_behaves
      intro kind hkind
      have haddress := addressStr_returns hcaller
      rw [not_not.mp hother] at haddress
      exact hasks kind ⟨v, creatorText, reserveText, reserve, amount, assetInfo_returns hclient hv,
        require_returns hpair, haddress, parseAddress_returns hreserve,
        holdingOf_returns hclient hamount, hkind⟩

end Assets

/-! ## Applications -/

section Applications

theorem stateSchemaFromArc56_behaves (arc56Json : String) :
    Behaves c base m (stateSchemaFromArc56 arc56Json) :=
  .bind .env fun _ _ => .bind (.orBail _ _) fun _ _ => .bind (.require _ _) fun _ _ =>
    .bind (.require _ _) fun _ _ => .bind (.require _ _) fun _ _ =>
      .bind (.require _ _) fun _ _ => .bind (.require _ _) fun _ _ => .pure _

theorem appArguments_behaves (method : Option String) (args : List AppArg) :
    Behaves c base m (appArguments method args) :=
  .bind .env fun _ _ => .pure _

theorem buildCallAppTxInner_behaves (appId : ℕ) (assetId : Option ℕ) (foreignAppIds : List ℕ)
    (extraAccounts : List Address) (method : Option String) (args : List AppArg) :
    Behaves c base m
      (buildCallAppTxInner appId assetId foreignAppIds extraAccounts method args) := by
  apply Behaves.guard
  apply Behaves.bind (appCreator_behaves appId)
  intro creatorText _
  apply Behaves.bind (.parseAddress _)
  intro creator _
  apply Behaves.bind .requireAddress
  intro sender _
  apply Behaves.bind .algodClient
  intro client _
  apply Behaves.bind (appArguments_behaves _ _)
  intro appArgs _
  apply Behaves.bind (.paramsFor client)
  intro params _
  apply Behaves.bind (.buildWithFee _ _ _ _ _)
  intro txZeroFee _
  apply Behaves.bind .env
  intro e _
  apply Behaves.bind (.orBail _ _)
  intro estSize _
  apply Behaves.bind (.ofOutcome _)
  intro estFee _
  exact .buildWithFee _ _ _ _ _

/-- A call that is returned is one of the client's own, and lists the application's creator. -/
theorem buildCallAppTxInner_returns {appId : ℕ} {assetId : Option ℕ} {foreignAppIds : List ℕ}
    {extraAccounts : List Address} {method : Option String} {args : List AppArg} {tx : Transaction}
    (h : Returns c base
      (buildCallAppTxInner appId assetId foreignAppIds extraAccounts method args) tx) :
    ∃ b, c.Calls base appId assetId foreignAppIds extraAccounts method args b.kind ∧
      c.Builds b tx := by
  obtain ⟨s, t, hkeeps, hrun⟩ := h
  -- the run is followed step by step: the second build takes what the first steps returned
  obtain ⟨-, hrun⟩ := guard_ok hrun
  obtain ⟨creatorText, u₁, hcreatorText, hrun⟩ := bind_ok_iff.mp hrun
  obtain ⟨creator, u₂, hcreator, hrun⟩ := bind_ok_iff.mp hrun
  obtain ⟨sender, u₃, hsender, hrun⟩ := bind_ok_iff.mp hrun
  obtain ⟨client, u₄, hclient, hrun⟩ := bind_ok_iff.mp hrun
  obtain ⟨appArgs, u₅, hargs, hrun⟩ := bind_ok_iff.mp hrun
  obtain ⟨params, u₆, hparams, hrun⟩ := bind_ok_iff.mp hrun
  obtain ⟨withoutFee, u₇, -, hrun⟩ := bind_ok_iff.mp hrun
  obtain ⟨e, u₈, -, hrun⟩ := bind_ok_iff.mp hrun
  obtain ⟨size, u₉, -, hrun⟩ := bind_ok_iff.mp hrun
  obtain ⟨fee, u₁₀, -, hrun⟩ := bind_ok_iff.mp hrun
  obtain ⟨note, hnote, hbuilt⟩ := buildWithFee_ok hrun
  have happArgs : (method.map (arc4Selector c.env.keys)).toList ++ args.map AppArg.toBytes
      = appArgs := Outcome.ok.inj (congrArg Prod.fst hargs)
  have hknown : c.Knows base appId creatorText :=
    (appCreator_ok hkeeps hcreatorText).imp_right fun hreports => ⟨u₁, hreports⟩
  rw [← happArgs] at hbuilt
  exact ⟨_, ⟨creatorText, creator, hknown, parseAddress_ok hcreator, rfl⟩,
    requireAddress_ok hsender, hnote, params, paramsFor_ok (algodClient_ok hclient) hparams, hbuilt⟩

theorem signSubmitAndFetchLogs_behaves {tx : Transaction}
    (htx : ∃ b, m.asks b.kind ∧ c.Builds b tx) :
    Behaves c base m (signSubmitAndFetchLogs tx) := by
  apply Behaves.bind .privateKeyBytes
  intro seed hseed
  apply Behaves.bind .algodClient
  intro client _
  apply Behaves.bind (.submit hseed htx)
  intro txId _
  exact .bind (.context _ (.quietCall rfl)) fun _ _ => .bind (.orBail _ _) fun _ _ =>
    .bind .env fun _ _ => .pure _

/-- Build a call that was asked for and submit it. -/
theorem call_behaves {appId : ℕ} {assetId : Option ℕ} {foreignAppIds : List ℕ}
    {extraAccounts : List Address} {method : Option String} {args : List AppArg}
    (hasks : ∀ kind, c.Calls base appId assetId foreignAppIds extraAccounts method args kind →
      m.asks kind) :
    Behaves c base m (do
      let tx ← buildCallAppTxInner appId assetId foreignAppIds extraAccounts method args
      signSubmitAndFetchLogs tx) := by
  apply Behaves.bind (buildCallAppTxInner_behaves _ _ _ _ _ _)
  intro tx htx
  obtain ⟨b, hcalls, hbuilt⟩ := buildCallAppTxInner_returns htx
  exact signSubmitAndFetchLogs_behaves ⟨b, hasks _ hcalls, hbuilt⟩

theorem callApp_behaves {appId : ℕ} {assetId : Option ℕ} {method : Option String}
    {args : List AppArg}
    (hasks : ∀ kind, c.Calls base appId assetId [] [] method args kind → m.asks kind) :
    Behaves c base m (callApp appId assetId method args) :=
  .guard (call_behaves hasks)

theorem callAppArc4Args_behaves {appId : ℕ} {assetId : Option ℕ} {method : Option String}
    {args : List AppArg}
    (hasks : ∀ framed kind, arc4FrameArgs method args = .ok framed →
      c.Calls base appId assetId [] [] method framed kind → m.asks kind) :
    Behaves c base m (callAppArc4Args appId assetId method args) := by
  apply Behaves.bind (.lift _)
  intro framed hframed
  obtain ⟨s, t, -, hrun⟩ := hframed
  have hlifted : Proc.ofExcept (arc4FrameArgs method args) s = (.ok framed, t) := hrun
  exact callApp_behaves fun kind => hasks framed kind (ofExcept_ok_iff.mp hlifted).1

theorem callAppWithAccounts_behaves {appId : ℕ} {assetId : Option ℕ} {method : Option String}
    {args : List AppArg} {extraAccounts : List String}
    (hasks : ∀ accounts kind, List.Forall₂
      (fun text a => c.env.algonaut.parseAddress text = .ok a) extraAccounts accounts →
      c.Calls base appId assetId [] accounts method args kind → m.asks kind) :
    Behaves c base m (callAppWithAccounts appId assetId method args extraAccounts) := by
  apply Behaves.guard
  apply Behaves.bind (.forEach .parseAddress _)
  intro accounts haccounts
  have hparsed := (haccounts.of_forEach .parseAddress).imp fun _ _ => parseAddress_returns
  exact call_behaves fun kind => hasks accounts kind hparsed

theorem callAppWithForeignApp_behaves {appId foreignAppId : ℕ} {assetId : Option ℕ}
    {method : Option String} {args : List AppArg}
    (hasks : ∀ kind, c.Calls base appId assetId [foreignAppId] [] method args kind → m.asks kind) :
    Behaves c base m (callAppWithForeignApp appId foreignAppId assetId method args) :=
  .guard <| .guard (call_behaves hasks)

/-- The key is asked for after the address. -/
theorem sendAppTransaction_behaves {kind : TransactionKind} (hasked : m.asks kind)
    (what : String) : Behaves c base m (sendAppTransaction what kind) :=
  .bind .requireAddress fun _ hsender => .bind .privateKeyBytes fun _ hseed =>
    .send hseed hsender hasked fun _ _ => .pure _

theorem optInApp_behaves {appId : ℕ} (hasked : m.asks (.optInApplication appId)) :
    Behaves c base m (optInApp appId) := by
  apply Behaves.guard
  apply Behaves.bind .addressStr
  intro text _
  apply Behaves.bind (localStateForAccount_behaves _ _)
  intro state _
  cases state with
  | some _ => exact .pure _
  | none => exact sendAppTransaction_behaves hasked _

theorem clearStateApp_behaves {appId : ℕ} (hasked : m.asks (.clearApplication appId)) :
    Behaves c base m (clearStateApp appId) :=
  .guard (sendAppTransaction_behaves hasked _)

theorem closeOutApp_behaves {appId : ℕ} (hasked : m.asks (.closeApplication appId)) :
    Behaves c base m (closeOutApp appId) :=
  .guard (sendAppTransaction_behaves hasked _)

theorem deleteApp_behaves {appId : ℕ} (hasked : m.asks (.deleteApplication appId)) :
    Behaves c base m (deleteApp appId) :=
  .guard (sendAppTransaction_behaves hasked _)

theorem optInAppToAsset_behaves {appId assetId : ℕ} {optInMethodName : String}
    (hasks : ∀ kind, c.OptsAppIn base appId assetId optInMethodName kind → m.asks kind) :
    Behaves c base m (optInAppToAsset appId assetId optInMethodName) := by
  apply Behaves.guard
  apply Behaves.guard
  apply Behaves.bind (.contractAddress _)
  intro appText _
  apply Behaves.bind (isAccountOptedInToAsset_behaves _ _)
  intro optedIn _
  split_ifs
  · exact .pure _
  · exact .bind (callApp_behaves hasks) fun _ _ => .pure _

theorem checkFunds_behaves (estFee : ℕ) : Behaves c base m (checkFunds estFee) := by
  apply Behaves.bind accountBalance_behaves
  intro balance _
  apply Behaves.bind (.require _ _)
  intro balanceAlgos _
  exact .guard (.pure _)

theorem setUpApp_behaves {appId : ℕ} {assetId : Option ℕ} {optInMethodName : String}
    (hasks : ∀ kind, c.SetsUp base appId assetId optInMethodName kind → m.asks kind) :
    Behaves c base m (setUpApp appId assetId optInMethodName) := by
  have hasset : ∀ aid, assetId = some aid → Behaves c base m (do
      let _ ← optInAppToAsset appId aid optInMethodName
      setAssetClawbackToApp appId aid) := by
    intro aid haid
    have hoptsIn : Behaves c base m (optInAppToAsset appId aid optInMethodName) :=
      optInAppToAsset_behaves fun kind h => hasks kind (Or.inr ⟨aid, haid, .inl h⟩)
    apply hoptsIn.bind
    intro _ _
    exact setAssetClawbackToApp_behaves fun kind h => hasks kind (Or.inr ⟨aid, haid, .inr h⟩)
  apply Behaves.bind (.resultOf (.contractAddress _))
  intro result hresult
  cases result with
  | ok appAddr =>
    have hfund : Behaves c base m (sendAlgo appAddr (321 / 100)) := by
      have happ := contractAddress_returns (resultOf_returns hresult)
      exact sendAlgo_behaves fun kind h => hasks kind (Or.inl ⟨appAddr, happ, h⟩)
    cases assetId with
    | none => exact hfund.bind fun _ _ => .pure _
    | some aid => exact hfund.bind fun _ _ => hasset aid rfl
  | error e =>
    -- an application whose address cannot be derived is not funded
    have hskip : Behaves c base m (Pure.pure () : Client Unit) := .pure _
    cases assetId with
    | none => exact hskip.bind fun _ _ => .pure _
    | some aid => exact hskip.bind fun _ _ => hasset aid rfl

theorem deployAppReserving_behaves {approval clear : Bytes} {assetId : Option ℕ}
    {method : Option String} {args : List AppArg} {optInMethodName arc56Json : String}
    {reserveExtraPages : ℕ}
    (hasks : ∀ kind, c.Deploys base approval clear assetId method args optInMethodName arc56Json
      reserveExtraPages kind → m.asks kind) :
    Behaves c base m (deployAppReserving approval clear assetId method args optInMethodName
      arc56Json reserveExtraPages) := by
  apply Behaves.guard
  apply Behaves.guard
  apply Behaves.bind .privateKeyBytes
  intro seed hseed
  apply Behaves.bind .requireAddress
  intro sender hsender
  apply Behaves.bind (stateSchemaFromArc56_behaves _)
  intro schemas hschemas
  rcases schemas with ⟨gs, ls⟩
  apply Behaves.bind .algodClient
  intro client hclient
  apply Behaves.bind (.paramsFor client)
  intro params hparams
  apply Behaves.bind .env
  intro e he
  rw [env_returns he]
  apply Behaves.bind (.ofOutcome _)
  intro estFee _
  apply Behaves.bind (checkFunds_behaves _)
  intro _ _
  apply Behaves.bind (appArguments_behaves _ _)
  intro appArgs happArgs
  rw [appArguments_returns happArgs]
  apply Behaves.bind (.build _ _ _ _)
  intro tx htx
  obtain ⟨b, hkind, hbuilt⟩ := buildWithFee_returns (requireAddress_returns hsender)
    (paramsFor_returns hclient hparams) htx
  have hcreates : c.Creates approval clear assetId method args arc56Json reserveExtraPages
      b.kind := by
    obtain ⟨s, t, -, hrun⟩ := hschemas
    exact ⟨gs, ls, ⟨s, t, hrun⟩, hkind⟩
  apply Behaves.bind (.submit hseed ⟨b, hasks _ (Or.inl hcreates), hbuilt⟩)
  intro txId _
  apply Behaves.bind (.context _ (.quietCall rfl))
  intro info hinfo
  apply Behaves.bind (.orBail _ _)
  intro v hv
  dsimp only
  split_ifs with hnone
  · exact .pure _
  · -- the set-up is of the application that algod served
    have htold := context_returns (fun client => client.pendingTransactionCall txId)
      hclient rfl hinfo
    have hsetUp : Behaves c base m (setUpApp (createdAppId v) assetId optInMethodName) :=
      setUpApp_behaves fun kind h =>
        hasks kind (Or.inr ⟨txId, info, v, htold, orBail_returns hv, hnone, h⟩)
    exact .bind hsetUp fun _ _ => .pure _

theorem updateApp_behaves {appId : ℕ} {approval clear : Bytes} {assetId : Option ℕ}
    (hasked : m.asks (.updateApplication appId approval clear (assetId.map fun aid => [aid]))) :
    Behaves c base m (updateApp appId approval clear assetId) := by
  apply Behaves.guard
  apply Behaves.guard
  apply Behaves.guard
  apply Behaves.bind .privateKeyBytes
  intro seed hseed
  apply Behaves.bind .requireAddress
  intro sender hsender
  apply Behaves.bind .algodClient
  intro client hclient
  apply Behaves.bind (.paramsFor client)
  intro params hparams
  apply Behaves.bind .env
  intro e _
  apply Behaves.bind (.ofOutcome _)
  intro _ _
  apply Behaves.bind (.build _ _ _ _)
  intro tx htx
  obtain ⟨b, hkind, hbuilt⟩ := buildWithFee_returns (requireAddress_returns hsender)
    (paramsFor_returns hclient hparams) htx
  rw [← hkind] at hasked
  exact .bind (.submit hseed ⟨b, hasked, hbuilt⟩) fun _ _ => .pure _

end Applications

/-! ## Groups -/

section Groups

theorem buildLeg_behaves (sender : Address) (params : SuggestedParams) (leg : GroupLeg) :
    Behaves c base m (TransactionGroupBuilder.buildLeg sender params leg) := by
  cases leg with
  | payment toAddress microAlgos => exact .bind (.parseAddress _) fun _ _ => .build _ _ _ _
  | assetTransfer assetId amount toAddress =>
    exact .bind (.parseAddress _) fun _ _ => .build _ _ _ _
  | appCall appId method args foreignAsset foreignApp =>
    exact buildCallAppTxInner_behaves _ _ _ _ _ _

/-- A leg that is built is a transaction of the client's own that the leg asks for. -/
theorem buildLeg_returns {sender : Address} {params : SuggestedParams} {leg : GroupLeg}
    {tx : Transaction} (hsender : c.At sender) (hparams : c.Suggested params)
    (h : Returns c base (TransactionGroupBuilder.buildLeg sender params leg) tx) :
    ∃ b, c.AsksLeg base leg b.kind ∧ c.Builds b tx := by
  cases leg with
  | payment toAddress microAlgos =>
    obtain ⟨receiver, hreceiver, htx⟩ := h.of_bind (.parseAddress _)
    obtain ⟨b, hkind, hbuilt⟩ := buildWithFee_returns hsender hparams htx
    exact ⟨b, ⟨receiver, parseAddress_returns hreceiver, hkind⟩, hbuilt⟩
  | assetTransfer assetId amount toAddress =>
    obtain ⟨receiver, hreceiver, htx⟩ := h.of_bind (.parseAddress _)
    obtain ⟨b, hkind, hbuilt⟩ := buildWithFee_returns hsender hparams htx
    exact ⟨b, ⟨receiver, parseAddress_returns hreceiver, hkind⟩, hbuilt⟩
  | appCall appId method args foreignAsset foreignApp => exact buildCallAppTxInner_returns h

/-- The builders of the legs that were built. -/
theorem exists_builders {legs : List GroupLeg} {txns : List Transaction}
    (h : List.Forall₂ (fun leg tx => ∃ b, c.AsksLeg base leg b.kind ∧ c.Builds b tx) legs txns) :
    ∃ bs, List.Forall₂ (c.AsksLeg base) legs (bs.map TransactionBuilder.kind) ∧
      List.Forall₂ c.Builds bs txns := by
  induction h with
  | nil => exact ⟨[], .nil, .nil⟩
  | cons hfirst _ ih =>
    obtain ⟨b, hasked, hbuilt⟩ := hfirst
    obtain ⟨bs, hall, hbuilts⟩ := ih
    exact ⟨b :: bs, .cons hasked hall, .cons hbuilt hbuilts⟩

theorem signAndSend_behaves {b : TransactionGroupBuilder}
    (hasks : ∀ kinds, List.Forall₂ (c.AsksLeg base) b.legs kinds → m.asksGroup kinds) :
    Behaves c base m b.signAndSend := by
  have hsend : Behaves c base m (do
      let seed ← privateKeyBytes
      let sender ← requireAddress
      let client ← algodClient
      let params ← paramsFor client
      let txns ← Confined.forEach (TransactionGroupBuilder.buildLeg sender params) b.legs
      let library := (← env).algonaut
      let group ← orBail "failed to assign group id" (library.assignGroup txns)
      let signed ← Confined.forEach
        (fun tx => orBail "failed to sign grouped transaction" (library.sign seed tx)) group
      let response ← context "failed to broadcast transaction group"
        (algodCall (client.sendTransactionsCall signed))
      waitForConfirmation response.txId 10
      Pure.pure response.txId) := by
    apply Behaves.bind .privateKeyBytes
    intro seed hseed
    apply Behaves.bind .requireAddress
    intro sender hsender
    apply Behaves.bind .algodClient
    intro client hclient
    apply Behaves.bind (.paramsFor client)
    intro params hparams
    apply Behaves.bind (.forEach (buildLeg_behaves sender params) _)
    intro txns htxns
    apply Behaves.bind .env
    intro e he
    rw [env_returns he]
    apply Behaves.bind (.orBail _ _)
    intro group hgroup
    apply Behaves.bind (.forEach (fun _ => .orBail _ _) _)
    intro signed hsigned
    obtain ⟨bs, hasked, hbuilt⟩ := exists_builders <|
      (htxns.of_forEach (buildLeg_behaves sender params)).imp fun _ _ =>
        buildLeg_returns (requireAddress_returns hsender) (paramsFor_returns hclient hparams)
    have hsealed : List.Forall₂ (fun tx stx => c.env.algonaut.sign seed tx = .ok stx) group
        signed := by
      have hpairs := hsigned.of_forEach fun _ => Behaves.orBail _ _
      exact hpairs.imp fun tx stx hstx => orBail_returns hstx
    have hsent : c.Authorizes m (.sendTransactions signed) :=
      .group (hasks _ hasked) hbuilt (orBail_returns hgroup) (privateKeyBytes_returns hseed) hsealed
    apply Behaves.bind (.context _ (.algodCall hsent))
    intro response _
    exact .bind (.waitForConfirmation _ _) fun _ _ => .pure _
  unfold TransactionGroupBuilder.signAndSend
  cases b.error with
  | some message =>
    apply Behaves.bind (.bail _)
    intro _ _
    apply Behaves.guard
    exact hsend
  | none =>
    apply Behaves.guard
    exact hsend

end Groups

end BlockchainOps.Algo
