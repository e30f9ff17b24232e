import BlockchainOps.Algo.Reads

/-!
# Payments and assets

The operations that send a transaction go through the same steps: fetch the suggested parameters,
build, sign and encode the transaction, broadcast it, and wait for its confirmation.
-/

namespace BlockchainOps.Algo

open Effect

variable {α : Type}

/-! ## Sending a transaction -/

/-- An addition of `u64`, which panics past the last of them. -/
def addU64 (a b : ℕ) : Client ℕ :=
  Confined.ofOutcome (if a + b < 2 ^ 64 then .ok (a + b) else .stop .panic)

/-- Go on to the next round. -/
def awaitRound (client : Algod) (currentRound : ℕ) : Client (ℕ ⊕ Unit) := do
  context "status_after_block failed" (algodCall (client.statusAfterBlockCall currentRound))
  pure (.inl (currentRound + 1))

/-- Check the transaction, then wait for a round. An error of the check that does not say that the
host is unreachable only costs the round. -/
def confirmationStep (client : Algod) (txId : String) (timeoutRounds endRound currentRound : ℕ) :
    Client (ℕ ⊕ Unit) := do
  if endRound ≤ currentRound then
    bail s!"Transaction not confirmed after {timeoutRounds} rounds"
  match ← resultOf (algodCall (client.pendingTransactionCall txId)) with
  | .ok p =>
    if p.confirmedRound.any (0 < ·) then pure (.inr ())
    else if !p.poolError.isEmpty then
      bail s!"Transaction rejected with pool error: {p.poolError}"
    else awaitRound client currentRound
  | .error e =>
    if (Error.text e.display).isHostUnreachable then
      Confined.raise (.typed (.unreachable "pending_transaction" e.display))
    else awaitRound client currentRound

/-- Wait until a transaction is confirmed, for a number of rounds. -/
def waitForConfirmation (txId : String) (timeoutRounds : ℕ) : Client Unit := do
  if timeoutRounds = 0 then bail "timeout_rounds must be > 0"
  let client ← algodClient
  let status ← context "failed to get node status" (algodCall client.statusCall)
  let startRound ← addU64 status.lastRound 1
  let endRound ← addU64 startRound timeoutRounds
  Confined.loop (confirmationStep client txId timeoutRounds endRound) (fun _ => timeoutRounds + 1)
    startRound

/-- The suggested parameters for a transaction. -/
def paramsFor (client : Algod) : Client SuggestedParams :=
  context "failed to fetch suggested params" (algodCall client.suggestedParamsCall)

/-- Build a transaction with a note of its own. -/
def buildWithFee (failure : String) (sender : Address) (kind : TransactionKind) (fee : Option ℕ)
    (params : SuggestedParams) : Client Transaction := do
  let note ← uniqueNote
  orBail failure ((← env).algonaut.build { sender, kind, fee, note } params)

/-- Build a transaction at the suggested fee. -/
def build (failure : String) (sender : Address) (kind : TransactionKind)
    (params : SuggestedParams) : Client Transaction :=
  buildWithFee failure sender kind none params

/-- Sign, encode and broadcast a transaction and wait for its confirmation. -/
def submit (client : Algod) (failure : String) (seed : Wire.Field 32) (tx : Transaction) :
    Client String := do
  let signed ← orBail failure ((← env).algonaut.sign seed tx)
  let bytes ← orBail "failed to encode signed transaction" ((← env).algonaut.toMsgPack signed)
  let response ← context "send_raw failed" (algodCall (client.sendRawCall bytes))
  waitForConfirmation response.txId 10
  pure response.txId

/-- `(algos * 1_000_000.0).round() as u64`. -/
def microAlgos (algos : ℚ) : ℕ := min ⌊algos * 1000000 + 1 / 2⌋.toNat (2 ^ 64 - 1)

def sendAlgo (toAddress : String) (amountAlgos : ℚ) : Client Unit := do
  if amountAlgos ≤ 0 then bail "amount must be positive"
  let sk ← privateKeyBytes
  let from_ ← requireAddress
  let to_ ← parseAddress toAddress
  let client ← algodClient
  let params ← paramsFor client
  let tx ← build "failed to build transaction" from_ (.pay to_ (microAlgos amountAlgos)) params
  let _ ← submit client "failed to sign transaction" sk tx
  pure ()

/-! ## Creating assets -/

/-- Create an asset and read its id. The name is checked, but no transaction carries it. -/
def issueAsset (sk : Wire.Field 32) (issuer : Address) (unitsInIssue : ℕ)
    (addresses : AssetAddresses) : Client (Option ℕ) := do
  let client ← algodClient
  let params ← paramsFor client
  let tx ← build "failed to build asset create transaction" issuer
    (.createAsset unitsInIssue 0 false addresses) params
  let txId ← submit client "failed to sign asset create transaction" sk tx
  let info ← context "failed to fetch pending transaction info for asset id"
    (algodCall (client.pendingTransactionCall txId))
  pure ((info.assetIndex.or (some 0)).filter (· ≠ 0))

def createAsset (name : String) (unitsInIssue : ℕ) : Client (Option ℕ) := do
  if (Text.trim name).isEmpty then bail "asset name must not be empty"
  if unitsInIssue = 0 then bail "units_in_issue must be > 0"
  let sk ← privateKeyBytes
  let issuer ← requireAddress
  issueAsset sk issuer unitsInIssue
    { manager := some issuer, reserve := some issuer, freeze := none, clawback := some issuer }

def createAssetConfigured (name : String) (unitsInIssue : ℕ)
    (managerAddr reserveAddr clawbackAddr freezeAddr : String) : Client (Option ℕ) := do
  if (Text.trim name).isEmpty then bail "asset name must not be empty"
  if unitsInIssue = 0 then bail "units_in_issue must be > 0"
  let sk ← privateKeyBytes
  let issuer ← requireAddress
  let manager ← parseAddress managerAddr
  let reserve ← parseAddress reserveAddr
  let clawback ← parseAddress clawbackAddr
  let freeze ← parseAddress freezeAddr
  issueAsset sk issuer unitsInIssue
    { manager := some manager
      reserve := some reserve
      freeze := some freeze
      clawback := some clawback }

def createAssetWithReserveApp (name : String) (unitsInIssue appId : ℕ) : Client (Option ℕ) := do
  if appId = 0 then bail "app_id must be > 0"
  let appAddr ← contractAddress appId
  let issuerAddr ← addressStr
  createAssetConfigured name unitsInIssue issuerAddr appAddr appAddr issuerAddr

/-! ## Moving and reconfiguring assets -/

/-- An asset's parameters as JSON. -/
def assetInfo (client : Algod) (assetId : ℕ) : Client Json := do
  let info ← context "failed to fetch asset information" (algodCall (client.assetCall assetId))
  orBail "failed to serialize asset info" info

/-- Set an asset's reserve and clawback to an application, signed by the asset's manager. -/
def setAssetClawbackToApp (appId assetId : ℕ) : Client Unit := do
  if appId = 0 then bail "app_id must be > 0"
  if assetId = 0 then bail "asset_id must be > 0"
  let client ← algodClient
  let caller ← requireAddress
  let v ← assetInfo client assetId
  let assetManagerStr ← require s!"asset {assetId} info did not contain manager field"
    (paramStr v "manager")
  let assetManager ← parseAddress assetManagerStr
  if caller ≠ assetManager then
    let callerText := (← env).algonaut.addressText caller
    bail s!"Only the asset manager ({assetManagerStr}) can set asset clawback, but called by {callerText}"
  let appAddr ← parseAddress (← contractAddress appId)
  let params ← paramsFor client
  let tx ← build "failed to build asset config transaction" caller
    (.updateAsset assetId
      { manager := some caller, reserve := some appAddr, freeze := none, clawback := some appAddr })
    params
  let sk ← privateKeyBytes
  let _ ← submit client "failed to sign asset config transaction" sk tx
  pure ()

def sendAsset (assetId amount : ℕ) (toAddress : String) : Client Unit := do
  if assetId = 0 then bail "asset_id must be > 0"
  if amount = 0 then bail "amount must be > 0"
  let sk ← privateKeyBytes
  let from_ ← requireAddress
  let to_ ← parseAddress toAddress
  let client ← algodClient
  let params ← paramsFor client
  let tx ← build "failed to build asset transfer transaction" from_
    (.transferAsset assetId amount to_) params
  let _ ← submit client "failed to sign asset transfer transaction" sk tx
  pure ()

/-- What an account holds of an asset, by one read. -/
def holdingOf (client : Algod) (account : Address) (assetId : ℕ) (who : String) : Client ℕ := do
  let info ← context s!"failed to fetch {who} account information"
    (algodCall (client.accountCall account))
  let v ← orBail s!"failed to serialize {who} account info" info.value
  pure (parseHoldingAmountFromAccountValue v assetId)

/-- Set an asset's reserve and clawback to a new address, then move the creator's holding there. The
new address is asked to be opted in only after the reconfiguration. -/
def changeAssetReserveAddress (assetId : ℕ) (reserveAddress : String) : Client Unit := do
  if assetId = 0 then bail "asset_id must be > 0"
  let newReserve ← context "invalid reserve address" (parseAddress reserveAddress)
  let sk ← privateKeyBytes
  let signerAddr ← requireAddress
  let client ← algodClient
  let v ← assetInfo client assetId
  let creatorStr ← require "asset info did not contain creator field" (assetCreator v)
  let caller ← orBail "invalid caller address" ((← env).algonaut.parseAddress (← addressStr))
  if creatorStr ≠ (← env).algonaut.addressText caller then
    bail "caller must be the asset creator to change the reserve address"
  let params ← paramsFor client
  let tx ← build "failed to build asset config transaction" signerAddr
    (.updateAsset assetId
      { manager := some signerAddr
        reserve := some newReserve
        freeze := none
        clawback := some newReserve }) params
  let _ ← submit client "failed to sign asset config transaction" sk tx
  let creatorAmount ← holdingOf client signerAddr assetId "creator"
  if creatorAmount = 0 then pure ()
  else
    let optedIn ← isAccountOptedInToAsset reserveAddress assetId
    if !optedIn then bail s!"new reserve address is not opted-in to asset {assetId}"
    sendAsset assetId creatorAmount reserveAddress

/-- Opting in is a transfer of nothing to oneself. -/
def optInToAsset (assetId : ℕ) : Client Unit := do
  if assetId = 0 then bail "asset_id must be > 0"
  let sk ← privateKeyBytes
  let addr ← requireAddress
  let client ← algodClient
  let params ← paramsFor client
  let tx ← build "failed to build asset opt-in transaction" addr (.transferAsset assetId 0 addr)
    params
  let _ ← submit client "failed to sign asset opt-in transaction" sk tx
  pure ()

/-- Transfer the whole reserve balance of an asset to its creator, signed by the reserve. -/
def recoverReserveBalance (assetId : ℕ) : Client Unit := do
  if assetId = 0 then bail "asset_id must be > 0"
  let client ← algodClient
  let v ← assetInfo client assetId
  let (creatorStr, reserveStr) ← require "asset information did not contain creator/reserve fields"
    (parseCreatorReserveFromAssetInfoValue v)
  let callerAddr ← addressStr
  if callerAddr ≠ reserveStr then
    bail "caller must be the current reserve address to recover the reserve balance"
  let optedIn ← isAccountOptedInToAsset creatorStr assetId
  if !optedIn then bail s!"creator address is not opted-in to asset {assetId}"
  let reserveAddr ← parseAddress reserveStr
  let amount ← holdingOf client reserveAddr assetId "reserve"
  if amount = 0 then pure ()
  else sendAsset assetId amount creatorStr

end BlockchainOps.Algo
