import BlockchainOps.Algo.Arc4
import BlockchainOps.Algo.Assets

/-!
# Applications

Deploying, updating and calling applications. A call lists the application's creator as a foreign
account, which is read once and cached, and its fee is estimated from a copy without one.
-/

namespace BlockchainOps.Algo

open Effect

variable {α : Type}

/-! ## Sizes and fees -/

/-- `arc4_selector`: the first four bytes of the signature's digest. -/
def arc4Selector (keys : KeyPrims) (sig : String) : Bytes := (keys.sha512_256 (utf8 sig)).take 4

/-- The extra pages that a program needs, of 2048 bytes each. -/
def requiredExtraPages (programSize : ℕ) : ℕ := (programSize - 1) / 2048 % 2 ^ 32

def maxExtraProgramPages : ℕ := 3

/-- The extra pages to request: those the program needs, or those to reserve if they are more. -/
def extraPagesFor (programSize reserveExtraPages : ℕ) : ℕ :=
  min (max (requiredExtraPages programSize) reserveExtraPages) maxExtraProgramPages

/-- The fee by size, a multiplication of `u64`, and at least the least fee. -/
def estimateFee (params : SuggestedParams) (size : ℕ) : Client ℕ :=
  Confined.ofOutcome
    (if params.fee * size < 2 ^ 64 then .ok (max (params.fee * size) params.minFee)
    else .stop .panic)

def estimateFeeForPrograms (params : SuggestedParams) (sizes : List ℕ) : Client ℕ :=
  estimateFee params sizes.sum

def estimateFeeForSignedSize (params : SuggestedParams) (estSize : ℕ) : Client ℕ :=
  estimateFee params estSize

/-- A count in the schema of an app spec. -/
def readSchema (schema : Json) (sectionName field : String) : Client ℕ :=
  require s!"ARC-56 app spec missing state/schema/{sectionName}/{field}"
    (schema.get sectionName >>= fun v => v.get field >>= Json.asU64)

/-- The global and the local schema in an app spec. -/
def stateSchemaFromArc56 (arc56Json : String) : Client (StateSchema × StateSchema) := do
  let spec ← orBail "failed to parse ARC-56 app spec json" ((← env).parseJson arc56Json)
  let schema ← require "ARC-56 app spec missing state/schema"
    (spec.get "state" >>= fun s => s.get "schema")
  let globalInts ← readSchema schema "global" "ints"
  let globalBytes ← readSchema schema "global" "bytes"
  let localInts ← readSchema schema "local" "ints"
  let localBytes ← readSchema schema "local" "bytes"
  pure (⟨globalInts, globalBytes⟩, ⟨localInts, localBytes⟩)

/-- `{:.6}` of a number that is not negative. -/
def fixed6 (q : ℚ) : String :=
  let micro := roundHalfEven (q * 1000000)
  let decimals := (List.range 6).map fun i => Nat.digitChar (micro % 1000000 / 10 ^ (5 - i) % 10)
  s!"{micro / 1000000}.{String.ofList decimals}"

/-- The selector of a method, if there is one, and the arguments. -/
def appArguments (method : Option String) (args : List AppArg) : Client (List Bytes) := do
  let keys := (← env).keys
  pure ((method.map (arc4Selector keys)).toList ++ args.map AppArg.toBytes)

/-! ## Calls -/

/-- Build a call of an application, at a fee for its size. -/
def buildCallAppTxInner (appId : ℕ) (assetId : Option ℕ) (foreignAppIds : List ℕ)
    (extraAccounts : List Address) (method : Option String) (args : List AppArg) :
    Client Transaction := do
  if appId = 0 then bail "app_id must be > 0"
  let creator ← parseAddress (← appCreator appId)
  let sender ← requireAddress
  let client ← algodClient
  let appArgs ← appArguments method args
  let params ← paramsFor client
  let kind := TransactionKind.callApplication appId (extraAccounts ++ [creator]) appArgs
    (assetId.map fun aid => [aid]) (if foreignAppIds.isEmpty then none else some foreignAppIds)
  let txZeroFee ← buildWithFee "failed to build app call transaction for fee estimation" sender
    kind (some 0) params
  let estSize ← orBail "failed to estimate signed tx size"
    ((← env).algonaut.estimateBasicSigSize txZeroFee)
  let estFee ← estimateFeeForSignedSize params estSize
  buildWithFee "failed to build app call transaction" sender kind (some estFee) params

def buildCallAppTx (appId : ℕ) (assetId : Option ℕ) (method : Option String)
    (args : List AppArg) : Client Transaction :=
  buildCallAppTxInner appId assetId [] [] method args

/-- Sign and submit a call, and read its id and its logs. -/
def signSubmitAndFetchLogs (tx : Transaction) : Client (String × List Bytes) := do
  let sk ← privateKeyBytes
  let client ← algodClient
  let txId ← submit client "failed to sign app call transaction" sk tx
  let p ← context "failed to fetch pending transaction info"
    (algodCall (client.pendingTransactionCall txId))
  let v ← orBail "failed to serialize pending tx info" p.value
  let b64 := (← env).base64
  let logs := ((v.get "logs" >>= Json.asArray).getD []).filterMap fun l =>
    l.asStr >>= fun s => (b64.decode s).toOption
  pure (txId, logs)

def callApp (appId : ℕ) (assetId : Option ℕ) (method : Option String) (args : List AppArg) :
    Client (String × List Bytes) := do
  if appId = 0 then bail "app_id must be > 0"
  let tx ← buildCallAppTx appId assetId method args
  signSubmitAndFetchLogs tx

def callAppRawArgs := callApp

def callAppArc4Args (appId : ℕ) (assetId : Option ℕ) (method : Option String)
    (args : List AppArg) : Client (String × List Bytes) := do
  let framed ← Confined.lift fun _ => arc4FrameArgs method args
  callApp appId assetId method framed

def callAppWithAccounts (appId : ℕ) (assetId : Option ℕ) (method : Option String)
    (args : List AppArg) (extraAccounts : List String) : Client (String × List Bytes) := do
  if appId = 0 then bail "app_id must be > 0"
  let parsed ← Confined.forEach parseAddress extraAccounts
  let tx ← buildCallAppTxInner appId assetId [] parsed method args
  signSubmitAndFetchLogs tx

def callAppWithForeignApp (appId foreignAppId : ℕ) (assetId : Option ℕ) (method : Option String)
    (args : List AppArg) : Client (String × List Bytes) := do
  if appId = 0 then bail "app_id must be > 0"
  if foreignAppId = 0 then bail "foreign_app_id must be > 0"
  let tx ← buildCallAppTxInner appId assetId [foreignAppId] [] method args
  signSubmitAndFetchLogs tx

/-! ## Opting in and out -/

/-- A transaction on an application that carries nothing else. -/
def sendAppTransaction (what : String) (kind : TransactionKind) : Client Unit := do
  let sender ← requireAddress
  let sk ← privateKeyBytes
  let client ← algodClient
  let params ← paramsFor client
  let tx ← build s!"failed to build app {what} transaction" sender kind params
  let _ ← submit client s!"failed to sign app {what} transaction" sk tx
  pure ()

/-- Nothing is sent for an account that is opted in. -/
def optInApp (appId : ℕ) : Client Unit := do
  if appId = 0 then bail "app_id must be > 0"
  let addrStr ← addressStr
  match ← localStateForAccount appId addrStr with
  | some _ => pure ()
  | none => sendAppTransaction "opt-in" (.optInApplication appId)

def clearStateApp (appId : ℕ) : Client Unit := do
  if appId = 0 then bail "app_id must be > 0"
  sendAppTransaction "clear" (.clearApplication appId)

def closeOutApp (appId : ℕ) : Client Unit := do
  if appId = 0 then bail "app_id must be > 0"
  sendAppTransaction "close-out" (.closeApplication appId)

def deleteApp (appId : ℕ) : Client Unit := do
  if appId = 0 then bail "app_id must be > 0"
  sendAppTransaction "delete" (.deleteApplication appId)

/-- Opt an application's account into an asset by a method of the application; nothing is called
for an account that is opted in, and the transaction id is then empty. -/
def optInAppToAsset (appId assetId : ℕ) (optInMethodName : String) : Client String := do
  if appId = 0 then bail "app_id must be > 0"
  if assetId = 0 then bail "asset_id must be > 0"
  let appAddrStr ← contractAddress appId
  let optedIn ← isAccountOptedInToAsset appAddrStr assetId
  if optedIn then pure ""
  else
    let (txId, _) ← callApp appId (some assetId) (some optInMethodName)
      [.uint (UInt64.ofNat assetId)]
    pure txId

/-! ## Deploying and updating -/

/-- The balance must cover the estimated fee of a create transaction. -/
def checkFunds (estFee : ℕ) : Client Unit := do
  let balanceAlgos ← require
    "Unable to determine account balance from algod; the account may not be funded or node unreachable"
    (← accountBalance)
  let balanceMicro := min ⌊balanceAlgos * 1000000⌋.toNat (2 ^ 64 - 1)
  if balanceMicro < estFee then
    bail s!"Insufficient funds to create application: balance {fixed6 balanceAlgos} ALGO, estimated required fee {fixed6 (estFee / 1000000)} ALGO. Please fund the creator account and retry."

/-- Fund a new application, and opt it into an asset whose reserve and clawback it becomes. -/
def setUpApp (appId : ℕ) (assetId : Option ℕ) (optInMethodName : String) : Client Unit := do
  match ← resultOf (contractAddress appId) with
  | .ok appAddr => sendAlgo appAddr (321 / 100)
  | .error _ => pure ()
  match assetId with
  | some aid =>
    let _ ← optInAppToAsset appId aid optInMethodName
    setAssetClawbackToApp appId aid
  | none => pure ()

/-- The id of a created application, zero if there is none. -/
def createdAppId (v : Json) : ℕ :=
  ((v.get "application-index" >>= Json.asU64).or
    (v.get "application_index" >>= Json.asU64)).getD 0

def deployAppReserving (approvalProgram clearStateProgram : Bytes) (assetId : Option ℕ)
    (method : Option String) (args : List AppArg) (optInMethodName arc56Json : String)
    (reserveExtraPages : ℕ) : Client (Option ℕ) := do
  if approvalProgram.isEmpty then bail "approval_program must not be empty"
  if clearStateProgram.isEmpty then bail "clear_state_program must not be empty"
  let sk ← privateKeyBytes
  let sender ← requireAddress
  let (gs, ls) ← stateSchemaFromArc56 arc56Json
  let client ← algodClient
  let params ← paramsFor client
  let signBytes := (← env).algonaut.bytesToSign
  let estProgSize := (signBytes approvalProgram).length + (signBytes clearStateProgram).length
  let estFee ← estimateFeeForPrograms params [estProgSize]
  checkFunds estFee
  let appArgs ← appArguments method args
  let extraPages := extraPagesFor estProgSize reserveExtraPages
  let tx ← build "failed to build app create transaction" sender
    (.createApplication approvalProgram clearStateProgram gs ls
      (if 0 < extraPages then some extraPages else none) (assetId.map fun aid => [aid])
      (if appArgs.isEmpty then none else some appArgs)) params
  let txId ← submit client "failed to sign app create transaction" sk tx
  let info ← context "failed to fetch pending transaction info for app id"
    (algodCall (client.pendingTransactionCall txId))
  let v ← orBail "failed to serialize pending tx info" info.value
  let appId := createdAppId v
  if appId = 0 then pure none
  else
    setUpApp appId assetId optInMethodName
    pure (some appId)

def deployApp (approvalProgram clearStateProgram : Bytes) (assetId : Option ℕ)
    (method : Option String) (args : List AppArg) (optInMethodName arc56Json : String) :
    Client (Option ℕ) :=
  deployAppReserving approvalProgram clearStateProgram assetId method args optInMethodName
    arc56Json 0

/-- The estimated fee of an update is only logged. -/
def updateApp (appId : ℕ) (approvalProgram clearStateProgram : Bytes) (assetId : Option ℕ) :
    Client (Option ℕ) := do
  if appId = 0 then bail "app_id must be > 0"
  if approvalProgram.isEmpty then bail "approval_program must not be empty"
  if clearStateProgram.isEmpty then bail "clear_state_program must not be empty"
  let sk ← privateKeyBytes
  let sender ← requireAddress
  let client ← algodClient
  let params ← paramsFor client
  let signBytes := (← env).algonaut.bytesToSign
  let estProgSize := (signBytes approvalProgram).length + (signBytes clearStateProgram).length
  let _ ← estimateFeeForPrograms params [estProgSize]
  let tx ← build "failed to build app update transaction" sender
    (.updateApplication appId approvalProgram clearStateProgram (assetId.map fun aid => [aid]))
    params
  let _ ← submit client "failed to sign app update transaction" sk tx
  pure (some appId)

end BlockchainOps.Algo
