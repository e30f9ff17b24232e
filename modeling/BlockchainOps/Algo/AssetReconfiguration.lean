import BlockchainOps.Algo.AssetLedger

/-!
# Reconfiguring an asset

Two operations give an asset a new reserve and clawback. The configuration that they submit names
the manager too, but not the freeze address. So they touch nothing else of the asset exactly when it
has no freeze address (`reconfiguration_touches_only_iff`).
-/

namespace BlockchainOps.Algo

open Effect Proc

variable {c : Session} {s t : World}

/-! ## The parts of the operations -/

/-- What both operations name. -/
def reserveAndClawback (sender new : Address) : AssetAddresses where
  manager := some sender
  reserve := some new
  freeze := none
  clawback := some new

/-- The first part of `setAssetClawbackToApp`, up to the submission. -/
def clawbackTx (appId assetId : ℕ) : Client (Algod × Wire.Field 32 × Transaction) := do
  if appId = 0 then bail "app_id must be > 0"
  if assetId = 0 then bail "asset_id must be > 0"
  let client ← algodClient
  let caller ← requireAddress
  let v ← assetInfo client assetId
  let assetManagerStr ← require s!"asset {assetId} info did not contain manager field"
    (paramStr v "manager")
  let assetManager ← parseAddress assetManagerStr
  if caller ≠ assetManager then
    let callerText := (← env).algonaut.addressText caller
    bail s!"Only the asset manager ({assetManagerStr}) can set asset clawback, but called by {callerText}"
  let appAddr ← parseAddress (← contractAddress appId)
  let params ← paramsFor client
  let tx ← build "failed to build asset config transaction" caller
    (.updateAsset assetId (reserveAndClawback caller appAddr)) params
  let sk ← privateKeyBytes
  pure (client, sk, tx)

/-- The first part of `changeAssetReserveAddress`, up to the submission. -/
def reserveTx (assetId : ℕ) (reserveAddress : String) :
    Client (Algod × Wire.Field 32 × Transaction × Address) := do
  if assetId = 0 then bail "asset_id must be > 0"
  let newReserve ← context "invalid reserve address" (parseAddress reserveAddress)
  let sk ← privateKeyBytes
  let signerAddr ← requireAddress
  let client ← algodClient
  let v ← assetInfo client assetId
  let creatorStr ← require "asset info did not contain creator field" (assetCreator v)
  let caller ← orBail "invalid caller address" ((← env).algonaut.parseAddress (← addressStr))
  if creatorStr ≠ (← env).algonaut.addressText caller then
    bail "caller must be the asset creator to change the reserve address"
  let params ← paramsFor client
  let tx ← build "failed to build asset config transaction" signerAddr
    (.updateAsset assetId (reserveAndClawback signerAddr newReserve)) params
  pure (client, sk, tx, signerAddr)

/-- The reconfiguration in `changeAssetReserveAddress`. -/
def reconfigureReserve (assetId : ℕ) (reserveAddress : String) : Client (Algod × Address) := do
  let (client, sk, tx, signerAddr) ← reserveTx assetId reserveAddress
  let _ ← submit client "failed to sign asset config transaction" sk tx
  pure (client, signerAddr)

/-- What `changeAssetReserveAddress` then finds to move. -/
def holdingToMove (client : Algod) (signerAddr : Address) (assetId : ℕ) (reserveAddress : String) :
    Client ℕ := do
  let creatorAmount ← holdingOf client signerAddr assetId "creator"
  if creatorAmount = 0 then pure 0
  else
    let optedIn ← isAccountOptedInToAsset reserveAddress assetId
    if !optedIn then bail s!"new reserve address is not opted-in to asset {assetId}"
    pure creatorAmount

/-- And the move. -/
def moveHolding (assetId : ℕ) (reserveAddress : String) (amount : ℕ) : Client Unit :=
  if amount = 0 then pure () else sendAsset assetId amount reserveAddress

theorem setAssetClawbackToApp_eq (appId assetId : ℕ) :
    setAssetClawbackToApp appId assetId = (do
      let (client, sk, tx) ← clawbackTx appId assetId
      let _ ← submit client "failed to sign asset config transaction" sk tx
      pure ()) := by
  unfold setAssetClawbackToApp clawbackTx
  by_cases happ : appId = 0
  · rw [if_pos happ, if_pos happ]
    rfl
  rw [if_neg happ, if_neg happ]
  by_cases hasset : assetId = 0
  · rw [if_pos hasset, if_pos hasset]
    rfl
  rw [if_neg hasset, if_neg hasset]
  simp only [Confined.bind_assoc]
  apply bind_congr; intro client
  apply bind_congr; intro caller
  apply bind_congr; intro v
  apply bind_congr; intro assetManagerStr
  apply bind_congr; intro assetManager
  by_cases hcaller : caller ≠ assetManager
  · rw [if_pos hcaller, if_pos hcaller]
    rfl
  rw [if_neg hcaller, if_neg hcaller]
  simp only [Confined.bind_assoc]
  rfl

theorem changeAssetReserveAddress_eq (assetId : ℕ) (reserveAddress : String) :
    changeAssetReserveAddress assetId reserveAddress = (do
      let (client, signerAddr) ← reconfigureReserve assetId reserveAddress
      let amount ← holdingToMove client signerAddr assetId reserveAddress
      moveHolding assetId reserveAddress amount) := by
  unfold changeAssetReserveAddress reconfigureReserve reserveTx
  by_cases hasset : assetId = 0
  · rw [if_pos hasset, if_pos hasset]
    rfl
  rw [if_neg hasset, if_neg hasset]
  simp only [Confined.bind_assoc]
  apply bind_congr; intro newReserve
  apply bind_congr; intro sk
  apply bind_congr; intro signerAddr
  apply bind_congr; intro client
  apply bind_congr; intro v
  apply bind_congr; intro creatorStr
  apply bind_congr; intro env
  apply bind_congr; intro text
  apply bind_congr; intro caller
  apply bind_congr; intro env'
  by_cases hcreator : creatorStr ≠ env'.algonaut.addressText caller
  · rw [if_pos hcreator, if_pos hcreator]
    rfl
  rw [if_neg hcreator, if_neg hcreator]
  simp only [Confined.bind_assoc]
  apply bind_congr; intro params
  apply bind_congr; intro tx
  show _ = submit client "failed to sign asset config transaction" sk tx >>= fun _ => _
  apply bind_congr; intro txId
  show holdingOf client signerAddr assetId "creator" >>= (fun creatorAmount => _)
    = holdingToMove client signerAddr assetId reserveAddress >>= moveHolding assetId reserveAddress
  unfold holdingToMove
  rw [Confined.bind_assoc]
  apply bind_congr; intro creatorAmount
  by_cases hzero : creatorAmount = 0
  · rw [if_pos hzero, if_pos hzero]
    rfl
  rw [if_neg hzero, if_neg hzero, Confined.bind_assoc]
  apply bind_congr; intro optedIn
  have hmoved : moveHolding assetId reserveAddress creatorAmount
      = sendAsset assetId creatorAmount reserveAddress := if_neg hzero
  cases optedIn with
  | false => rfl
  | true =>
    show sendAsset assetId creatorAmount reserveAddress
      = moveHolding assetId reserveAddress creatorAmount
    rw [hmoved]

/-! ## What is submitted -/

theorem assetInfo_sends (client : Algod) (assetId : ℕ) : Sends quiet (assetInfo client assetId) :=
  (call_sends _ rfl rfl).bind fun _ => .of_local (Local.orBail _ _)

theorem clawbackTx_sends (appId assetId : ℕ) : Sends quiet (clawbackTx appId assetId) := by
  apply Sends.guard
  apply Sends.guard
  apply Sends.bind (.of_local algodClient_local)
  intro client
  apply Sends.bind (.of_local requireAddress_local)
  intro caller
  apply Sends.bind (assetInfo_sends client assetId)
  intro v
  apply Sends.bind (.of_local (Local.require _ _))
  intro assetManagerStr
  apply Sends.bind (.of_local (parseAddress_local assetManagerStr))
  intro assetManager
  have hbuilt : Sends quiet (do
      let appAddr ← parseAddress (← contractAddress appId)
      let params ← paramsFor client
      let tx ← build "failed to build asset config transaction" caller
        (.updateAsset assetId (reserveAndClawback caller appAddr)) params
      let sk ← privateKeyBytes
      pure (client, sk, tx)) := by
    apply Sends.bind (.lift _)
    intro text
    apply Sends.bind (.of_local (parseAddress_local text))
    intro appAddr
    apply Sends.bind (paramsFor_sends client)
    intro params
    apply Sends.bind (buildWithFee_sends _ _ _ _ _)
    intro tx
    exact (Sends.lift _).bind fun _ => .of_local (Local.pure _)
  dsimp only
  split_ifs
  · apply Sends.bind (.of_local env_local)
    intro env
    exact (Sends.of_local (Local.bail _)).bind fun _ => hbuilt
  · exact hbuilt

theorem reserveTx_sends (assetId : ℕ) (reserveAddress : String) :
    Sends quiet (reserveTx assetId reserveAddress) := by
  apply Sends.guard
  apply Sends.bind (.context _ (.of_local (parseAddress_local reserveAddress)))
  intro newReserve
  apply Sends.bind (.lift _)
  intro sk
  apply Sends.bind (.of_local requireAddress_local)
  intro signerAddr
  apply Sends.bind (.of_local algodClient_local)
  intro client
  apply Sends.bind (assetInfo_sends client assetId)
  intro v
  apply Sends.bind (.of_local (Local.require _ _))
  intro creatorStr
  apply Sends.bind (.of_local env_local)
  intro env
  apply Sends.bind (.of_local ((Local.read _).bind fun _ => Local.require _ _))
  intro text
  apply Sends.bind (.of_local (Local.orBail _ _))
  intro caller
  apply Sends.bind (.of_local env_local)
  intro env'
  apply Sends.guard
  apply Sends.bind (paramsFor_sends client)
  intro params
  apply Sends.bind (buildWithFee_sends _ _ _ _ _)
  intro tx
  exact .of_local (Local.pure _)

theorem assetInfo_ok {client : Algod} {assetId : ℕ} {v : Json}
    (h : (assetInfo client assetId).run c s = (.ok v, t)) :
    ∃ m after, client.asset assetId m = .done after (.ok (.ok v)) := by
  obtain ⟨info, u, hcall, hinfo⟩ := bind_ok_iff.mp h
  have hserialized := (orBail_ok_iff.mp hinfo).1
  rw [hserialized] at hcall
  obtain ⟨after, hsettled⟩ := (context_ok rfl hcall).settled
  exact ⟨u.moment - 1, after, hsettled⟩

theorem build_ok (hlaws : c.env.algonaut.Lawful) {failure : String} {sender : Address}
    {kind : TransactionKind} {params : SuggestedParams} {tx : Transaction}
    (h : (build failure sender kind params).run c s = (.ok tx, t)) :
    tx.sender = sender ∧ tx.kind = kind := by
  obtain ⟨note, -, hbuilt⟩ := buildWithFee_ok h
  exact hlaws.build _ _ _ hbuilt

theorem contractAddress_ok {appId : ℕ} {text : String}
    (h : (contractAddress appId).run c s = (.ok text, t)) :
    byteKeyToAddress c.env.keys.toAddressPrims
      (c.env.keys.sha512_256 (utf8 "appID" ++ Wire.beBytes 8 appId)) = .ok text := by
  have hrun : ofExcept (byteKeyToAddress c.env.keys.toAddressPrims
      (c.env.keys.sha512_256 (utf8 "appID" ++ Wire.beBytes 8 appId))) s = (.ok text, t) := h
  exact (ofExcept_ok_iff.mp hrun).1

/-- A transaction that gives an asset a reserve and a clawback. -/
structure Reconfigures (assetId : ℕ) (new : Address) (tx : Transaction) : Prop where
  kind : tx.kind = .updateAsset assetId (reserveAndClawback tx.sender new)

/-- What the first part of `setAssetClawbackToApp` returns. -/
theorem clawbackTx_ok (hlaws : c.env.algonaut.Lawful) {appId assetId : ℕ} {client : Algod}
    {sk : Wire.Field 32} {tx : Transaction}
    (h : (clawbackTx appId assetId).run c s = (.ok (client, sk, tx), t)) :
    c.algod = .ok client ∧ ∃ text new, byteKeyToAddress c.env.keys.toAddressPrims
      (c.env.keys.sha512_256 (utf8 "appID" ++ Wire.beBytes 8 appId)) = .ok text ∧
      c.env.algonaut.parseAddress text = .ok new ∧ Reconfigures assetId new tx := by
  obtain ⟨-, h⟩ := guard_ok h
  obtain ⟨-, h⟩ := guard_ok h
  obtain ⟨client', u₁, hclient, h⟩ := bind_ok_iff.mp h
  obtain ⟨caller, u₂, -, h⟩ := bind_ok_iff.mp h
  obtain ⟨v, u₃, -, h⟩ := bind_ok_iff.mp h
  obtain ⟨assetManagerStr, u₄, -, h⟩ := bind_ok_iff.mp h
  obtain ⟨assetManager, u₅, -, h⟩ := bind_ok_iff.mp h
  dsimp only at h
  split_ifs at h
  · exact absurd (congrArg Prod.fst h) (by rintro ⟨⟩)
  obtain ⟨text, u₆, htext, h⟩ := bind_ok_iff.mp h
  obtain ⟨appAddr, u₇, happAddr, h⟩ := bind_ok_iff.mp h
  obtain ⟨params, u₈, -, h⟩ := bind_ok_iff.mp h
  obtain ⟨tx', u₉, htx, h⟩ := bind_ok_iff.mp h
  obtain ⟨sk', u₁₀, -, h⟩ := bind_ok_iff.mp h
  cases h
  obtain ⟨hsender, hkind⟩ := build_ok hlaws htx
  refine ⟨algodClient_ok hclient, text, appAddr, contractAddress_ok htext, parseAddress_ok happAddr,
    ⟨?_⟩⟩
  rw [hkind, hsender]

/-- What the first part of `changeAssetReserveAddress` returns. -/
structure ReserveTx (c : Session) (client : Algod) (assetId : ℕ) (reserveAddress : String)
    (signer new : Address) (tx : Transaction) : Prop where
  connected : c.algod = .ok client
  signs : ∃ text, c.ops.address = some text ∧ c.env.algonaut.parseAddress text = .ok signer
  parsed : c.env.algonaut.parseAddress reserveAddress = .ok new
  sender : tx.sender = signer
  reconfigures : Reconfigures assetId new tx
  /-- The node named the signer as the creator. -/
  creator : ∃ m after v, client.asset assetId m = .done after (.ok (.ok v)) ∧
    assetCreator v = some (c.env.algonaut.addressText signer)

theorem reserveTx_ok (hlaws : c.env.algonaut.Lawful) {assetId : ℕ} {reserveAddress : String}
    {client : Algod} {sk : Wire.Field 32} {tx : Transaction} {signer : Address}
    (h : (reserveTx assetId reserveAddress).run c s = (.ok (client, sk, tx, signer), t)) :
    ∃ new, ReserveTx c client assetId reserveAddress signer new tx := by
  obtain ⟨-, h⟩ := guard_ok h
  obtain ⟨new, u₁, hnew, h⟩ := bind_ok_iff.mp h
  obtain ⟨sk', u₂, -, h⟩ := bind_ok_iff.mp h
  obtain ⟨signer', u₃, hsigner, h⟩ := bind_ok_iff.mp h
  obtain ⟨client', u₄, hclient, h⟩ := bind_ok_iff.mp h
  obtain ⟨v, u₅, hasset, h⟩ := bind_ok_iff.mp h
  obtain ⟨creatorStr, u₆, hcreator, h⟩ := bind_ok_iff.mp h
  obtain ⟨env, u₇, henv, h⟩ := bind_ok_iff.mp h
  obtain ⟨text, u₈, htext, h⟩ := bind_ok_iff.mp h
  obtain ⟨caller, u₉, hcaller, h⟩ := bind_ok_iff.mp h
  obtain ⟨env', u₁₀, henv', h⟩ := bind_ok_iff.mp h
  obtain ⟨hsame, h⟩ := guard_ok h
  obtain ⟨params, u₁₁, -, h⟩ := bind_ok_iff.mp h
  obtain ⟨tx', u₁₂, htx, h⟩ := bind_ok_iff.mp h
  cases h
  cases henv
  cases henv'
  obtain ⟨hsender, hkind⟩ := build_ok hlaws htx
  -- the address is parsed twice, with the same result
  obtain ⟨signerText, haddress, hparsed⟩ := requireAddress_ok hsigner
  have haddress' : c.ops.address = some text := require_ok htext
  have hcaller' : c.env.algonaut.parseAddress text = .ok caller := (orBail_ok_iff.mp hcaller).1
  rw [Option.some.inj (haddress'.symm.trans haddress), hparsed] at hcaller'
  obtain ⟨m, after, hread⟩ := assetInfo_ok hasset
  have hnamed : assetCreator v = some creatorStr := require_ok hcreator
  refine ⟨new, algodClient_ok hclient, ⟨signerText, haddress, hparsed⟩,
    parseAddress_ok (mapErr_ok_iff.mp hnew), hsender, ⟨?_⟩, m, after, v, hread, ?_⟩
  · rw [hkind, hsender]
  · rw [hnamed, not_not.mp hsame, Except.ok.inj hcaller']

/-- What the reconfiguration in `changeAssetReserveAddress` submits. -/
theorem reconfigureReserve_ok {client : Algod} (K : AssetChain client c.env.algonaut)
    (hlaws : c.env.algonaut.Lawful) (hclient : c.algod = .ok client) {assetId : ℕ}
    {reserveAddress : String} {r : Algod × Address}
    (h : (reconfigureReserve assetId reserveAddress).run c s = (.ok r, t)) :
    r.1 = client ∧ ∃ new tx, ReserveTx c client assetId reserveAddress r.2 new tx ∧
      K.Submitted s t tx := by
  obtain ⟨⟨client', sk, tx, signer⟩, u, hbuilt, h⟩ := bind_ok_iff.mp h
  obtain ⟨txId, v, hsubmit, h⟩ := bind_ok_iff.mp h
  cases h
  obtain ⟨new, htx⟩ := reserveTx_ok hlaws hbuilt
  obtain rfl : client' = client := Except.ok.inj (htx.connected.symm.trans hclient)
  exact ⟨rfl, new, tx, htx,
    K.built_submitted hlaws hclient (reserveTx_sends assetId reserveAddress) hbuilt hsubmit⟩

/-! ## What it does to the ledger -/

/-- Of everything in the ledger, the reserve and the clawback of the asset are set, where they can
be; an address that is unset stays so. -/
def AssetLedger.OnlySets (assetId : ℕ) (new : Address) (l l' : AssetLedger) : Prop :=
  ∃ p, l.assets assetId = some p ∧ l' = l.configure assetId
    { p with
      reserve := p.reserve.replaced (some new)
      clawback := p.clawback.replaced (some new) }

/-- The configuration unsets the freeze address and sets the reserve and the clawback. -/
theorem Reconfigures.apply_eq {assetId : ℕ} {new : Address} {tx : Transaction}
    {l l' : AssetLedger} (h : Reconfigures assetId new tx)
    (happly : AssetLedger.apply tx l = some l') :
    ∃ p, l.assets assetId = some p ∧ l' = l.configure assetId
      { p with
        reserve := p.reserve.replaced (some new)
        freeze := .zero
        clawback := p.clawback.replaced (some new) } := by
  obtain ⟨p, hasset, hset, hmanager, hconfigured⟩ := AssetLedger.apply_updateAsset h.kind happly
  have hkept : p.manager.replaced (some tx.sender) = p.manager := by
    unfold Address.replaced
    rw [if_neg hset, ← hmanager]
    rfl
  have hunset : p.freeze.replaced none = .zero := by
    unfold Address.replaced
    split_ifs <;> rfl
  refine ⟨p, hasset, ?_⟩
  rw [hconfigured]
  unfold AssetParams.reconfigured reserveAndClawback
  dsimp only
  rw [hkept, hunset]

theorem AssetLedger.configure_inj {l : AssetLedger} {assetId : ℕ} {p q : AssetParams}
    (h : l.configure assetId p = l.configure assetId q) : p = q := by
  have hassets := congrArg (fun l => l.assets assetId) h
  simpa using hassets

/-- So nothing else is touched exactly when there is no freeze address. -/
theorem Reconfigures.onlySets_iff {assetId : ℕ} {new : Address} {tx : Transaction}
    {l l' : AssetLedger} (h : Reconfigures assetId new tx)
    (happly : AssetLedger.apply tx l = some l') :
    AssetLedger.OnlySets assetId new l l' ↔ ∃ p, l.assets assetId = some p ∧ p.freeze = .zero := by
  obtain ⟨p, hasset, hconfigured⟩ := h.apply_eq happly
  constructor
  · rintro ⟨q, hasset', hset⟩
    obtain rfl : p = q := Option.some.inj (hasset.symm.trans hasset')
    have hsame := AssetLedger.configure_inj (hconfigured.symm.trans hset)
    exact ⟨p, hasset, (congrArg AssetParams.freeze hsame).symm⟩
  · rintro ⟨q, hasset', hfreeze⟩
    obtain rfl : p = q := Option.some.inj (hasset.symm.trans hasset')
    refine ⟨p, hasset, ?_⟩
    rw [hconfigured, ← hfreeze]

/-! ## Both operations -/

/-- The operations that give an asset a reserve and a clawback; of `changeAssetReserveAddress` it is
the first part. -/
inductive Reconfiguration
  | clawbackToApp (appId : ℕ)
  | reserveAddress (address : String)

namespace Reconfiguration

def program (assetId : ℕ) : Reconfiguration → Client Unit
  | clawbackToApp appId => setAssetClawbackToApp appId assetId
  | reserveAddress address => reconfigureReserve assetId address >>= fun _ => pure ()

/-- The address that an operation is to set. -/
def Names (c : Session) : Reconfiguration → Address → Prop
  | clawbackToApp appId, new => ∃ text, byteKeyToAddress c.env.keys.toAddressPrims
      (c.env.keys.sha512_256 (utf8 "appID" ++ Wire.beBytes 8 appId)) = .ok text ∧
      c.env.algonaut.parseAddress text = .ok new
  | reserveAddress address, new => c.env.algonaut.parseAddress address = .ok new

/-- An operation that returns has submitted one configuration. -/
theorem submitted {client : Algod} (K : AssetChain client c.env.algonaut)
    (hlaws : c.env.algonaut.Lawful) (hclient : c.algod = .ok client) {x : Reconfiguration}
    {assetId : ℕ} (h : (x.program assetId).run c s = (.ok (), t)) :
    ∃ new tx, x.Names c new ∧ Reconfigures assetId new tx ∧ K.Submitted s t tx := by
  cases x with
  | clawbackToApp appId =>
    have hrun : (setAssetClawbackToApp appId assetId).run c s = (.ok (), t) := h
    rw [setAssetClawbackToApp_eq] at hrun
    obtain ⟨⟨client', sk, tx⟩, u, hbuilt, h⟩ := bind_ok_iff.mp hrun
    obtain ⟨txId, v, hsubmit, h⟩ := bind_ok_iff.mp h
    cases h
    obtain ⟨hclient', text, new, htext, hnew, htx⟩ := clawbackTx_ok hlaws hbuilt
    obtain rfl : client' = client := Except.ok.inj (hclient'.symm.trans hclient)
    exact ⟨new, tx, ⟨text, htext, hnew⟩, htx,
      K.built_submitted hlaws hclient (clawbackTx_sends appId assetId) hbuilt hsubmit⟩
  | reserveAddress address =>
    obtain ⟨r, u, hrun, h⟩ := bind_ok_iff.mp h
    cases h
    obtain ⟨-, new, tx, htx, hsubmitted⟩ := reconfigureReserve_ok K hlaws hclient hrun
    exact ⟨new, tx, htx.parsed, htx.reconfigures, hsubmitted⟩

end Reconfiguration

/-- A reconfiguration that returns has set the reserve and the clawback of the asset to the new
address, and has touched nothing else exactly when the asset had no freeze address. -/
theorem reconfiguration_touches_only_iff {client : Algod} (K : AssetChain client c.env.algonaut)
    (hlaws : c.env.algonaut.Lawful) (hclient : c.algod = .ok client) (x : Reconfiguration)
    (assetId : ℕ) (hrun : (x.program assetId).run c s = (.ok (), t)) (halone : K.Alone s t) :
    ∃ new, x.Names c new ∧
      (AssetLedger.OnlySets assetId new (K.state s.moment) (K.state t.moment) ↔
        ∃ p, (K.state s.moment).assets assetId = some p ∧ p.freeze = .zero) := by
  obtain ⟨new, tx, hnames, htx, hsubmitted⟩ := Reconfiguration.submitted K hlaws hclient hrun
  exact ⟨new, hnames, htx.onlySets_iff (hsubmitted.apply_eq halone)⟩

/-! ## An asset with a new reserve -/

namespace LocalNode

/-- The addresses that are used: the creator `A`, who manages the asset 7, the address `B`, and that
of a freezer. -/
def account (n : UInt8) : Address := ⟨.replicate 32 n⟩

/-- The asset at first. -/
def asset7 (freeze : Address) : AssetParams where
  creator := account 1
  manager := account 1
  reserve := account 1
  freeze := freeze
  clawback := account 1

/-- The configuration that is to come. -/
def configTx : Transaction where
  sender := account 1
  kind := .updateAsset 7 (reserveAndClawback (account 1) (account 2))
  fee := 1000
  note := List.replicate 16 0
  group := none

/-- The library, with the two addresses and the encoding of this transaction. -/
def assetLibrary : Algonaut :=
  { library with
    parseAddress := fun text =>
      if text = "A" then .ok (account 1) else if text = "B" then .ok (account 2)
      else .error "invalid"
    addressText := fun a =>
      if a = account 1 then "A" else if a = account 2 then "B"
      else "X" ++ String.ofList (a.bytes.1.map Char.ofUInt8)
    toMsgPack := fun signed =>
      if signed.transaction = configTx then .ok [1] else .error "unknown" }

/-- The creator's holding as the node lists it. -/
def holdingRow (held : ℕ) : Json := .obj [("asset-id", .int 7), ("amount", .int held)]

/-- A node with the asset, where the creator holds so much of it. It is sent the configuration at the
moment 3. -/
def assetNode (held : ℕ) : Algod :=
  { silent with
    asset := fun id _ => if id = 7 then .done 0 (.ok (.ok
      (.obj [("params", .obj [("creator", .str "A"), ("manager", .str "A")])]))) else .never
    account := fun a _ => .done 0 (.ok
      ⟨1000000, 100000, .ok (.obj [("assets", .arr (if a = account 1 then [holdingRow held] else []))])⟩)
    suggestedParams := fun _ => .done 0 (.ok ⟨0, 1000, 7, .replicate 32 0, "dockernet-v1"⟩)
    status := fun _ => .done 0 (.ok ⟨7⟩)
    sendRaw := fun bytes _ => if bytes = [1] then .done 0 (.ok ⟨"TX"⟩) else .never
    pendingTransaction := fun txId m => .done 0 (.ok
      { confirmedRound := if txId = "TX" ∧ 4 ≤ m then some 8 else none
        poolError := ""
        assetIndex := none
        txn := none
        value := .error "" }) }

/-- Its ledger, before and after the configuration. -/
def ledger7 (freeze : Address) (held : ℕ) : AssetLedger where
  assets := fun id => if id = 7 then some (asset7 freeze) else none
  holdings := fun a id => if a = account 1 ∧ id = 7 then some held else none

def ledgerAt (freeze : Address) (held : ℕ) (m : ℕ) : AssetLedger :=
  if 4 ≤ m then (ledger7 freeze held).configure 7
    ((asset7 freeze).reconfigured (reserveAndClawback (account 1) (account 2)))
  else ledger7 freeze held

/-- The chain behind the node. -/
def assetChain (freeze : Address) (held : ℕ) : AssetChain (assetNode held) assetLibrary where
  applied m := if 4 ≤ m then [configTx] else []
  state := ledgerAt freeze held
  once := by
    intro m
    split_ifs <;> simp
  follows := by
    intro m n hmn
    by_cases hm : 4 ≤ m
    · have hn : 4 ≤ n := by omega
      refine ⟨[], ?_, ?_⟩
      · rw [if_pos hm, if_pos hn, List.append_nil]
      · unfold ledgerAt
        rw [if_pos hm, if_pos hn]
        rfl
    · by_cases hn : 4 ≤ n
      · refine ⟨[configTx], ?_, ?_⟩
        · rw [if_neg hm, if_pos hn, List.nil_append]
        · unfold ledgerAt
          rw [if_neg hm, if_pos hn]
          rfl
      · refine ⟨[], ?_, ?_⟩
        · rw [if_neg hm, if_neg hn, List.append_nil]
        · unfold ledgerAt
          rw [if_neg hm, if_neg hn]
          rfl
  decode bytes := if bytes = [1] then some configTx else none
  idOf tx := if tx = configTx then "TX" else ""
  decode_toMsgPack := by
    intro signed bytes h
    unfold assetLibrary at h
    dsimp only at h
    split_ifs at h with htx
    cases h
    rw [if_pos rfl, htx]
  sendRaw := by
    intro bytes m after response h
    unfold assetNode at h
    dsimp only at h
    split_ifs at h with hbytes
    cases h
    exact ⟨configTx, if_pos hbytes, (if_pos rfl).symm⟩
  confirmed := by
    intro tx m after p h hconfirmed
    cases h
    by_cases htx : tx = configTx
    · rw [htx] at hconfirmed ⊢
      by_cases hm : 4 ≤ m
      · rw [if_pos hm]
        exact List.mem_singleton_self configTx
      · simp [PendingTransaction.isConfirmed, hm] at hconfirmed
    · simp [PendingTransaction.isConfirmed, htx] at hconfirmed

/-- A client of the creator. -/
def creator (held : ℕ) : Session :=
  { signer (assetNode held) with
    env := { (signer (assetNode held)).env with algonaut := assetLibrary } }

theorem assetLibrary_lawful : assetLibrary.Lawful where
  build := library_lawful.build
  assignGroup := library_lawful.assignGroup
  sign := library_lawful.sign

/-- The configuration is submitted and confirmed. -/
theorem reserveB_run (held : ℕ) :
    ∃ t, ((Reconfiguration.reserveAddress "B").program 7).run (creator held) unlimited
        = (.ok (), t) ∧
      t.moment = 6 ∧ sentSince unlimited t
        = [.asset 7, .suggestedParams, .sendRaw [1], .status, .pendingTransaction "TX"] :=
  ⟨_, rfl, rfl, rfl⟩

/-- Nobody else acts on the asset. -/
theorem assetChain_alone (freeze : Address) (held : ℕ) {t : World}
    (hsent : .sendRaw [1] ∈ sentSince unlimited t) :
    (assetChain freeze held).Alone unlimited t where
  own := by
    intro tx htx
    right
    have hconfig : tx = configTx := by
      have hlisted : tx ∈ if 4 ≤ t.moment then [configTx] else [] := htx
      split_ifs at hlisted
      · exact List.mem_singleton.mp hlisted
      · exact absurd hlisted (by simp)
    rw [hconfig]
    exact ⟨.sendRaw [1], hsent, List.mem_singleton_self configTx⟩
  new := by
    intro tx _ htx
    exact absurd htx (List.not_mem_nil)

end LocalNode

open LocalNode in
/-- Of an asset without a freeze address only the reserve and the clawback change. -/
theorem reconfiguration_touches_only_asset7 :
    ∃ t, ((Reconfiguration.reserveAddress "B").program 7).run (creator 5) unlimited = (.ok (), t) ∧
      AssetLedger.OnlySets 7 (account 2) ((assetChain .zero 5).state unlimited.moment)
        ((assetChain .zero 5).state t.moment) := by
  obtain ⟨t, hrun, -, hsent⟩ := reserveB_run 5
  have halone : (assetChain .zero 5).Alone unlimited t := by
    apply assetChain_alone
    rw [hsent]
    simp
  obtain ⟨new, hnames, htouches⟩ := reconfiguration_touches_only_iff (assetChain .zero 5)
    assetLibrary_lawful rfl (.reserveAddress "B") 7 hrun halone
  have hnew : account 2 = new := Except.ok.inj hnames
  rw [hnew]
  exact ⟨t, hrun, htouches.mpr ⟨asset7 .zero, rfl, rfl⟩⟩

open LocalNode in
/-- An asset with a freeze address loses it. -/
theorem freeze_address_lost :
    ∃ t, ((Reconfiguration.reserveAddress "B").program 7).run (creator 5) unlimited = (.ok (), t) ∧
      (assetChain (account 3) 5).Alone unlimited t ∧
      (((assetChain (account 3) 5).state unlimited.moment).assets 7).map AssetParams.freeze
        = some (account 3) ∧
      (((assetChain (account 3) 5).state t.moment).assets 7).map AssetParams.freeze
        = some .zero ∧
      ¬ AssetLedger.OnlySets 7 (account 2) ((assetChain (account 3) 5).state unlimited.moment)
        ((assetChain (account 3) 5).state t.moment) := by
  obtain ⟨t, hrun, hmoment, hsent⟩ := reserveB_run 5
  have halone : (assetChain (account 3) 5).Alone unlimited t := by
    apply assetChain_alone
    rw [hsent]
    simp
  have hlost : (((assetChain (account 3) 5).state t.moment).assets 7).map AssetParams.freeze
      = some .zero := by
    rw [hmoment]
    rfl
  refine ⟨t, hrun, halone, rfl, hlost, ?_⟩
  rintro ⟨p, hasset, hset⟩
  have hkept : p.freeze = account 3 := by
    rw [← Option.some.inj hasset]
    rfl
  rw [hset, AssetLedger.configure_assets, Function.update_self] at hlost
  have hzero : account 3 = Address.zero := hkept.symm.trans (Option.some.inj hlost)
  exact absurd hzero (by decide)

end BlockchainOps.Algo
